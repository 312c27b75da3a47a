import WriteLatch.Request

/-!
# Failures

A write can fail for one key, for a whole call, or for the request as a whole.
A failure of a call is either wholesale, one failure for all its keys, or
positional, one slot for every key.  Causes of a failure are listed from the
outermost to the root and written with colons between them.
-/

namespace WriteLatch

inductive Failure where
  | invalid (d : Defect)
  | cancelled
  | deadlineExceeded
  | cache (operation : String) (causes : List String)
  | tooManyKeys (count limit : Nat)
  | rejected (reason : String)
  | backend (causes : List String)
  | worker (reason : String)
  deriving DecidableEq, Repr

def causeText (causes : List String) : String :=
  ": ".intercalate causes

namespace Failure

def message : Failure -> String
  | .invalid d => d.message
  | .cancelled => "write cancelled"
  | .deadlineExceeded => "write deadline exceeded"
  | .cache operation causes => s!"cache {operation} failed: {causeText causes}"
  | .tooManyKeys count limit =>
      s!"{count} keys exceed the backing store limit of {limit} per call"
  | .rejected reason => s!"entity rejected: {reason}"
  | .backend causes => s!"backing store error: {causeText causes}"
  | .worker reason => s!"sub-batch worker failed: {reason}"

/-- The failure of a task that crashed with the given message.  The number of the
task is not kept. -/
def ofCrash (message : String) : Failure :=
  .worker s!"task # panicked with message {Text.quoted message}"

end Failure

/-! ## Positional results -/

/-- The outcome for one key: the written key, or why it was not written. -/
abbrev Slot : Type :=
  Except Failure Key

structure Slots where
  toList : List Slot
  deriving Repr

namespace Slot

def failure? : Slot -> Option Failure
  | .ok _ => none
  | .error f => some f

def isFailure (slot : Slot) : Bool :=
  (failure? slot).isSome

end Slot

namespace Slots

def size (slots : Slots) : Nat :=
  slots.toList.length

def failureAt? (slots : Slots) (i : Nat) : Option Failure :=
  slots.toList[i]?.bind Slot.failure?

def failedCount (slots : Slots) : Nat :=
  slots.toList.countP Slot.isFailure

/-- Every failure with its position. -/
def failures (slots : Slots) : List (Nat × Failure) :=
  slots.toList.zipIdx.filterMap fun slot =>
    (Slot.failure? slot.1).map fun f => (slot.2, f)

def message (slots : Slots) : String :=
  let counts := s!"{slots.failedCount} of {slots.size} writes failed"
  match slots.failures with
  | [] => counts
  | (i, f) :: _ => s!"{counts} (first at index {i}: {f.message})"

end Slots

inductive CallFailure where
  | wholesale (f : Failure)
  | positional (slots : Slots)
  deriving Repr

namespace CallFailure

def message : CallFailure -> String
  | .wholesale f => f.message
  | .positional slots => slots.message

end CallFailure

/-- The outcome of one call that writes several keys. -/
abbrev CallResult : Type :=
  Except CallFailure (List Key)

inductive WriteFailure where
  | invalid (d : Defect)
  | positional (slots : Slots)
  deriving Repr

namespace WriteFailure

def message : WriteFailure -> String
  | .invalid d => s!"invalid write request: {d.message}"
  | .positional slots => slots.message

def slots? : WriteFailure -> Option Slots
  | .invalid _ => none
  | .positional slots => some slots

end WriteFailure
end WriteLatch
