import WriteLatch.Text.Alphanumeric
import WriteLatch.Text.Pattern.CharSet

/-!
# Patterns

Regular expressions: choices between rows of parts, each of which may be
repeated, with groups in parentheses.  A group may have a name, which no other
group has, and may be read in a mode of its own; a mode that is switched inside a
group is switched back at its end.  No part is repeated by count, and patterns
are not nested without bound.
-/

namespace WriteLatch
namespace Text
namespace Pattern

/-- What matters about a part that has been read. -/
structure Part where
  depth : Nat := 0
  /-- The names of the groups in it. -/
  names : List (List Char) := []
  isRepeatable : Bool := true
  deriving DecidableEq, Repr

namespace Part

/-- A switch of the mode is a part of its own. -/
def switch : Part :=
  { isRepeatable := false }

def repeated (part : Part) : Part :=
  { part with depth := part.depth + 1 }

def grouped (part : Part) (name : Option (List Char)) : Part :=
  { depth := part.depth + 1, names := name.toList ++ part.names }

/-- A row of parts or a choice between them. -/
def joined (parts : List Part) : Part :=
  { depth := rowDepth (parts.map depth), names := parts.flatMap names }

end Part

/-! ## Groups -/

def isName (cs : List Char) : Bool :=
  match cs with
  | [] => false
  | c :: rest =>
      (c = '_' || isAlphabetic c) &&
        rest.all fun c => c = '_' || c = '.' || c = '[' || c = ']' || isAlphanumeric c

/-- What stands behind an opening parenthesis. -/
inductive Opening where
  | group (name : Option (List Char)) (switches : List Char)
  | switches (switches : List Char)
  deriving DecidableEq, Repr

def readName (cs : List Char) : Option (Opening × List Char) :=
  let name := cs.takeWhile (· != '>')
  match cs.dropWhile (· != '>') with
  | [] => none
  | _ :: rest => if isName name then some (.group (some name) [], rest) else none

def readSwitches (cs : List Char) : Option (Opening × List Char) :=
  let switches := cs.takeWhile fun c => c != ':' && c != ')'
  if areSwitches switches then
    match cs.drop switches.length with
    | [] => none
    | ':' :: rest => some (.group none switches, rest)
    | _ :: rest => if switches.isEmpty then none else some (.switches switches, rest)
  else none

def readOpening (cs : List Char) : Option (Opening × List Char) :=
  match cs with
  | '?' :: 'P' :: '<' :: rest => readName rest
  | '?' :: '<' :: rest => readName rest
  | '?' :: rest => readSwitches rest
  | _ => some (.group none [], cs)

/-! ## Patterns -/

def isRepetition (c : Char) : Bool :=
  c = '?' || c = '*' || c = '+'

/-- A question mark behind a repetition belongs to it. -/
def afterRepetition (cs : List Char) : List Char :=
  match cs with
  | '?' :: rest => rest
  | _ => cs

/-- Reads choices up to the end of their group or of the text, behind those and
behind the parts of a row that have been read. -/
def readChoices :
    Nat -> Mode -> List Part -> List Part -> List Char -> Option (Part × List Char)
  | 0, _, _, _, _ => none
  | fuel + 1, mode, choices, parts, cs =>
      let whole := Part.joined (choices ++ [Part.joined parts])
      match mode.skip cs with
      | [] => some (whole, [])
      | ')' :: rest => some (whole, ')' :: rest)
      | '|' :: rest => readChoices fuel mode (choices ++ [Part.joined parts]) [] rest
      | '{' :: _ => none
      | '(' :: rest =>
          match readOpening (mode.skip rest) with
          | none => none
          | some (.switches switches, rest) =>
              readChoices fuel (mode.switch switches) choices (parts ++ [Part.switch]) rest
          | some (.group name switches, rest) =>
              match readChoices fuel (mode.switch switches) [] [] rest with
              | some (inside, ')' :: rest) =>
                  readChoices fuel mode choices (parts ++ [inside.grouped name]) rest
              | _ => none
      | '[' :: rest =>
          match readWholeSet mode rest with
          | some (depth, rest) => readChoices fuel mode choices (parts ++ [{ depth }]) rest
          | none => none
      | c :: rest =>
          if isRepetition c then
            match parts.getLast? with
            | some part =>
                if part.isRepeatable then
                  readChoices fuel mode choices (parts.dropLast ++ [part.repeated])
                    (afterRepetition rest)
                else none
            | none => none
          else
            match readPrimitive mode (c :: rest) with
            | some (primitive, rest) =>
                if primitive.isAllowed mode then
                  readChoices fuel mode choices (parts ++ [{}]) rest
                else none
            | none => none

/-- The depth to which patterns may be nested. -/
def depthLimit : Nat :=
  250

end Pattern

open Pattern in
def isPattern (cs : List Char) : Bool :=
  match readChoices (cs.length + 1) {} [] [] cs with
  | some (part, []) => part.depth <= depthLimit && decide part.names.Nodup
  | _ => false

end Text
end WriteLatch
