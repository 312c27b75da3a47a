import WriteLatch.Failure
import WriteLatch.Lock

/-!
# Faults of the collaborators

Rules say what the cache and the store do besides their work: cancel a context,
take time, crash, fail, or answer something else than they should.  A rule of
the store may be limited to the calls that hold a certain key.
-/

namespace WriteLatch
namespace Simulation

/-- One thing that happens while a call is served, before the work itself. -/
inductive Beat (ε : Type) where
  | cancel (context : String)
  | pause (duration : Millis)
  | crash (message : String)
  | fail (e : ε)
  deriving Repr

/-- What a rule may ask for, in the order in which it happens. -/
structure Trouble (ε : Type) where
  cancel : Option String := none
  pause : Option Millis := none
  crash : Option String := none
  fail : Option ε := none

namespace Trouble

def beats {ε : Type} (t : Trouble ε) : List (Beat ε) :=
  (t.cancel.map .cancel).toList ++ (t.pause.map .pause).toList ++
    (t.crash.map .crash).toList ++ (t.fail.map .fail).toList

end Trouble

/-! ## Answers of the store -/

/-- A change made to the slots of an answer. -/
inductive Reply where
  | extra
  | drop
  | empty
  | reverse
  | positional
  deriving DecidableEq, Repr

namespace Reply

def apply (slots : List Slot) : Reply -> List Slot
  | .extra => slots ++ slots.getLast?.toList
  | .drop => slots.dropLast
  | .empty => []
  | .reverse => slots.reverse
  | .positional => slots

end Reply

structure StoreRule where
  /-- The display of a key that a call has to hold. -/
  only : Option String := none
  trouble : Trouble Failure := {}
  reject : Option Failure := none
  reply : Option Reply := none

namespace StoreRule

def applies (rule : StoreRule) (keys : List Key) : Bool :=
  match rule.only with
  | some display => keys.any fun k => k.display == display
  | none => true

/-- Puts the failure into the slot of every key with the rule's display. -/
def rejectIn (rule : StoreRule) (keys : List Key) (slots : List Slot) : List Slot :=
  match rule.only, rule.reject with
  | some display, some f =>
      slots.zipIdx.map fun slot =>
        match keys[slot.2]? with
        | some k => if k.display == display then .error f else slot.1
        | none => slot.1
  | _, _ => slots

def slotsAfter (rule : StoreRule) (keys : List Key) (slots : List Slot) : List Slot :=
  let slots := rule.rejectIn keys slots
  match rule.reply with
  | some reply => reply.apply slots
  | none => slots

end StoreRule

/-- What the rules make of an answer. A wholesale failure is left as it is. -/
def answerAfter (rules : List StoreRule) (keys : List Key) (result : CallResult) : CallResult :=
  let changed (slots : List Slot) : CallResult :=
    let slots := rules.foldl (fun slots rule => rule.slotsAfter keys slots) slots
    let forced := rules.any fun rule => rule.reply == some .positional
    match slots.mapM fun slot => slot.toOption with
    | some written => if forced then .error (.positional ⟨slots⟩) else .ok written
    | none => .error (.positional ⟨slots⟩)
  match result with
  | .ok written => changed (written.map .ok)
  | .error (.positional slots) => changed slots.toList
  | .error (.wholesale f) => .error (.wholesale f)

/-! ## All rules -/

/-- Deriving a context takes no time and does not crash. -/
structure ContextRule where
  cancel : Option String := none
  fail : Option (List String) := none
  /-- Tightens the deadline of the derived context. -/
  timeout : Option Millis := none

structure CacheRules where
  context : ContextRule := {}
  set : Trouble (List String) := {}
  delete : Trouble (List String) := {}

structure Faults where
  store : List StoreRule := []
  cache : CacheRules := {}

namespace Faults

def storeRules (faults : Faults) (keys : List Key) : List StoreRule :=
  faults.store.filter fun rule => rule.applies keys

def storeBeats (faults : Faults) (keys : List Key) : List (Beat Failure) :=
  (faults.storeRules keys).flatMap fun rule => rule.trouble.beats

end Faults

theorem answerAfter_wholesale (rules : List StoreRule) (keys : List Key) (f : Failure) :
    answerAfter rules keys (.error (.wholesale f)) = .error (.wholesale f) := rfl

end Simulation
end WriteLatch
