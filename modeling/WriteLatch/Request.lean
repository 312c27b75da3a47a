import WriteLatch.Key.Text
import WriteLatch.Value.Basic

/-!
# Write requests

A request pairs keys with values by position.  It may be written when there is
a value for every key, all values are of one kind, and every key is valid.  The
checks are made in this order, and each names the first position at fault.
-/

namespace WriteLatch

inductive Defect where
  | lengths (keys values : Nat)
  | mixedKinds (index : Nat) (expected found : ValueKind)
  | invalidKey (index : Nat) (key : String)
  deriving DecidableEq, Repr

namespace Defect

def message : Defect -> String
  | .lengths keys values =>
      s!"keys and values have different lengths ({keys} keys, {values} values)"
  | .mixedKinds index expected found =>
      s!"values are not homogeneous: index {index} is {found.name}, expected {expected.name}"
  | .invalidKey index key =>
      s!"invalid key at index {index}: {key}"

end Defect

namespace Request

/-- The first item with the property, and its position. -/
def firstWhere? {α : Type} (p : α -> Bool) (xs : List α) : Option (α × Nat) :=
  xs.zipIdx.find? fun x => p x.1

def mixedKinds? (values : List Value) : Option Defect :=
  match values with
  | [] => none
  | first :: _ =>
      (firstWhere? (fun v => v.kind != first.kind) values).map fun found =>
        .mixedKinds found.2 first.kind found.1.kind

def invalidKey? (keys : List Key) : Option Defect :=
  (firstWhere? (fun k => !k.isValid) keys).map fun found =>
    .invalidKey found.2 found.1.display

def defect? (keys : List Key) (values : List Value) : Option Defect :=
  if keys.length ≠ values.length then
    some (.lengths keys.length values.length)
  else
    (mixedKinds? values).or (invalidKey? keys)

def check (keys : List Key) (values : List Value) : Except Defect Unit :=
  match defect? keys values with
  | some d => .error d
  | none => .ok ()

theorem check_eq_ok_iff (keys : List Key) (values : List Value) :
    check keys values = .ok () ↔ defect? keys values = none := by
  cases h : defect? keys values with
  | none => simp [check, h]
  | some d => simp [check, h]

end Request
end WriteLatch
