import WriteLatch.Json.Frame

/-!
# Skipping a value

The value of a member that nobody asked for is passed over.  Its nesting is
kept in a list of the containers that are still open, so there is no limit to
its depth, and neither the range of its numbers nor the surrogates of its
strings are looked at.
-/

namespace WriteLatch
namespace Json

inductive Container where
  | list
  | object
  deriving DecidableEq, Repr

def Container.closer : Container -> Char
  | .list => ']'
  | .object => '}'

inductive SkipPoint where
  | atValue
  | afterValue
  | afterOpening
  deriving DecidableEq, Repr

/-- What stands before the next value of an open container. -/
def skipName : Container -> Scan Unit
  | .list => pure ()
  | .object => do
      punctuation '"'
      restSkipped
      colon

def skipScalar (c : Char) : Scan Unit :=
  if c = 'n' then do advance; word ['u', 'l', 'l']
  else if c = 't' then do advance; word ['r', 'u', 'e']
  else if c = 'f' then do advance; word ['a', 'l', 's', 'e']
  else if c = '-' || isDigit c then do let _ <- numeral .malformed
  else if c = '"' then do advance; restSkipped
  else Scan.fail .malformed

def skipFrom : Nat -> SkipPoint -> List Container -> Scan Unit
  | 0, _, _ => Scan.fail .malformed
  | _ + 1, .afterValue, [] => pure ()
  | _ + 1, .afterOpening, [] => pure ()
  | fuel + 1, .atValue, stack => do
      match <- peek with
      | none => Scan.fail .truncated
      | some c =>
          if c = '[' then do advance; skipFrom fuel .afterOpening (.list :: stack)
          else if c = '{' then do advance; skipFrom fuel .afterOpening (.object :: stack)
          else do skipScalar c; skipFrom fuel .afterValue stack
  | fuel + 1, point, inner :: stack => do
      match <- peek with
      | none => Scan.fail .truncated
      | some c =>
          if c = inner.closer then do advance; skipFrom fuel .afterValue stack
          else if point = .afterOpening then do
            skipName inner
            skipFrom fuel .atValue (inner :: stack)
          else if c = ',' then do
            advance
            skipName inner
            skipFrom fuel .atValue (inner :: stack)
          else Scan.fail .malformed

/-- Every step but the last two of a value consumes a character. -/
def skipValue : Scan Unit := do
  skipFrom (2 * (<- get).length + 3) .atValue []

end Json
end WriteLatch
