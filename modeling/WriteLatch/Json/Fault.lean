/-!
# What can be wrong with a document

A document is read from left to right and the first problem met is the one
reported: the text is not JSON, the text ends too soon, or it is JSON of
another shape than the reader wants.  A reader consumes characters and gives
what they stand for, or a fault.
-/

namespace WriteLatch
namespace Json

inductive Fault where
  | malformed
  | truncated
  | misshapen
  deriving DecidableEq, Repr

/-- What is read from the characters that are left. -/
abbrev Scan : Type -> Type :=
  StateT (List Char) (Except Fault)

/-- The deepest nesting of containers that a reader follows. -/
def depthLimit : Nat :=
  127

namespace Scan

/-- The scan that looks at all characters left and decides from them. -/
def onRest {α : Type} (decide : List Char -> Except Fault (α × List Char)) : Scan α :=
  decide

def fail {α : Type} (fault : Fault) : Scan α :=
  fun _ => .error fault

theorem run_onRest {α : Type} (decide : List Char -> Except Fault (α × List Char))
    (s : List Char) : (onRest decide).run s = decide s := rfl

end Scan
end Json
end WriteLatch
