import WriteLatch.Text.Pattern.Primitive

/-!
# Sets of characters in a pattern

A set stands between brackets.  Its members are characters, ranges of them, the
named sets of ASCII and other sets in brackets, and sets are also combined by
doubled signs.  A circumflex behind the opening bracket negates a set.  Hyphens
that come first are members, and so is a closing bracket that comes first.

Of a set only the depth of its nesting is kept.
-/

namespace WriteLatch
namespace Text
namespace Pattern

/-- The depth of a row: what stands alone adds nothing to its own. -/
def rowDepth : List Nat -> Nat
  | [] => 0
  | [depth] => depth
  | depths => depths.foldl max 0 + 1

/-- The depth of a set combined with what stands to its left. -/
def combinedDepth (left : Option Nat) (right : Nat) : Nat :=
  match left with
  | none => right
  | some depth => max depth right + 1

/-! ## Members -/

def setNames : List String :=
  ["alnum", "alpha", "ascii", "blank", "cntrl", "digit", "graph", "lower", "print", "punct",
    "space", "upper", "word", "xdigit"]

/-- Reads a named set behind its opening bracket, and whether it is negated. -/
def readNamedSet (cs : List Char) : Option (Bool × List Char) :=
  match cs with
  | ':' :: rest =>
      let isNegated := rest.head? == some '^'
      let rest := if isNegated then rest.drop 1 else rest
      match rest.dropWhile (· != ':') with
      | ':' :: ']' :: after =>
          if setNames.contains (String.ofList (rest.takeWhile (· != ':'))) then
            some (isNegated, after)
          else none
      | _ => none
  | _ => none

def isNamedSetAllowed (mode : Mode) (isNegated : Bool) : Bool :=
  if mode.unicode then !mode.ignoresCase else !isNegated

def readSetChar (mode : Mode) (cs : List Char) : Option (Primitive × List Char) :=
  match cs with
  | [] => none
  | '\\' :: rest => readEscape mode rest
  | c :: rest => some (.char c false, rest)

def isRange : Primitive -> Primitive -> Bool
  | .char first _, .char last _ => first <= last
  | _, _ => false

/-- Reads a member or a range and gives what comes behind.  No hyphen that stands
before a closing bracket or another hyphen makes a range. -/
def readMember (mode : Mode) (cs : List Char) : Option (List Char) := do
  let (first, rest) <- readSetChar mode cs
  guard (first.isAllowedInSet mode)
  match mode.skip rest with
  | '-' :: after =>
      if mode.next? after == some ']' || mode.next? after == some '-' then some ('-' :: after)
      else
        let (last, rest) <- readSetChar mode (mode.skip after)
        guard (last.isAllowedInSet mode && isRange first last)
        some rest
  | rest => some rest

/-! ## Sets -/

/-- Reads whether a set is negated, behind its opening bracket. -/
def openSet (mode : Mode) (cs : List Char) : Option (List Char) :=
  match mode.skip cs with
  | '^' :: rest => if mode.unicode then some rest else none
  | rest => some rest

def isCombination (c : Char) (rest : List Char) : Bool :=
  (c = '&' || c = '-' || c = '~') && rest.head? == some c

/-- Reads a set to its closing bracket and gives its depth.  Of what came before,
there are the depth of the sets to the left of the last combination, the depths
of the members since, and whether anything but hyphens was among them. -/
def readSet (mode : Mode) :
    Nat -> Option Nat -> List Nat -> Bool -> List Char -> Option (Nat × List Char)
  | 0, _, _, _, _ => none
  | fuel + 1, left, members, isFresh, cs =>
      match mode.skip cs with
      | [] => none
      | c :: rest =>
          if isFresh && (c = '-' || c = ']' && members.isEmpty) then
            if (Primitive.char c false).isAllowedInSet mode then
              readSet mode fuel left (members ++ [0]) (c = '-') rest
            else none
          else if c = ']' then some (combinedDepth left (rowDepth members), rest)
          else if c = '[' then
            match readNamedSet rest with
            | some (isNegated, rest) =>
                if isNamedSetAllowed mode isNegated then
                  readSet mode fuel left (members ++ [0]) false rest
                else none
            | none =>
                match openSet mode rest with
                | none => none
                | some inside =>
                    match readSet mode fuel none [] true inside with
                    | some (depth, rest) =>
                        readSet mode fuel left (members ++ [depth + 1]) false rest
                    | none => none
          else if isCombination c rest then
            readSet mode fuel (some (combinedDepth left (rowDepth members))) [] false
              (rest.drop 1)
          else
            match readMember mode (c :: rest) with
            | some rest => readSet mode fuel left (members ++ [0]) false rest
            | none => none

/-- Reads a set behind its opening bracket. -/
def readWholeSet (mode : Mode) (cs : List Char) : Option (Nat × List Char) := do
  let inside <- openSet mode cs
  let (depth, rest) <- readSet mode (inside.length + 1) none [] true inside
  some (depth + 1, rest)

end Pattern
end Text
end WriteLatch
