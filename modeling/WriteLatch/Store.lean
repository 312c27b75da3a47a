import WriteLatch.Association
import WriteLatch.Failure

/-!
# The store in memory

Entities under their keys.  A call with too many keys, or with another number
of values than keys, fails wholesale and changes nothing.  Otherwise every key
is written or rejected on its own, in order; a key left incomplete is completed
with the next number.
-/

namespace WriteLatch

structure Store where
  entities : Association Key Value := []
  nextNumber : Int64 := 1
  limit : Nat := 500
  maxEntitySize : Nat := 1048576
  /-- The number of keys in every call so far, the first call first. -/
  callSizes : List Nat := []

namespace Store

def find? (s : Store) (k : Key) : Option Value :=
  s.entities.lookup k

def size (s : Store) : Nat :=
  s.entities.length

def insert (s : Store) (k : Key) (v : Value) : Store :=
  { s with entities := s.entities.put k v }

def oversized (k : Key) (size limit : Nat) : Failure :=
  .rejected s!"entity {k.display} is {size} bytes, limit is {limit}"

/-- The key as it is stored. -/
def completed (s : Store) (k : Key) : Key :=
  if k.isComplete then k else k.completedWith s.nextNumber

def numberAfter (s : Store) (k : Key) : Int64 :=
  if k.isComplete then s.nextNumber else s.nextNumber + 1

/-- Writes one entity; an oversized one leaves the store as it is. -/
def write (s : Store) (k : Key) (v : Value) : Slot × Store :=
  if s.maxEntitySize < v.size then
    (.error (oversized k v.size s.maxEntitySize), s)
  else
    (.ok (s.completed k), { s.insert (s.completed k) v with nextNumber := s.numberAfter k })

def writeAll (s : Store) : List (Key × Value) -> List Slot × Store
  | [] => ([], s)
  | (k, v) :: rest =>
      let (slot, s) := s.write k v
      let (slots, s) := s.writeAll rest
      (slot :: slots, s)

/-- Keys if every slot has one, else the slots. -/
def resultOf (slots : List Slot) : CallResult :=
  match slots.mapM (fun slot => slot.toOption) with
  | some keys => .ok keys
  | none => .error (.positional ⟨slots⟩)

def lengthsDiffer (keys values : Nat) : Failure :=
  .backend [s!"{keys} keys but {values} values"]

def putAll (s : Store) (keys : List Key) (values : List Value) : CallResult × Store :=
  let s := { s with callSizes := s.callSizes ++ [keys.length] }
  if s.limit < keys.length then
    (.error (.wholesale (.tooManyKeys keys.length s.limit)), s)
  else if keys.length ≠ values.length then
    (.error (.wholesale (lengthsDiffer keys.length values.length)), s)
  else
    let (slots, s) := s.writeAll (keys.zip values)
    (resultOf slots, s)

/-! ## Writing -/

theorem find?_insert (s : Store) (k other : Key) (v : Value) :
    (s.insert k v).find? other = if other = k then some v else s.find? other :=
  Association.lookup_put s.entities k other v

theorem completed_of_isComplete (s : Store) {k : Key} (h : k.isComplete = true) :
    s.completed k = k := by
  simp [completed, h]

end Store
end WriteLatch
