import WriteLatch.Text.Hexadecimal
import WriteLatch.Text.Pattern.Mode

/-!
# The smallest parts of a pattern

A character stands for itself unless it has a meaning of its own.  A backslash
takes that meaning away, or gives one to a letter.  There are no tables of the
classes and of the cases of Unicode: what would need one is no pattern.  And a
pattern is about whole characters: what could stand for single octets beyond
ASCII is no pattern either.
-/

namespace WriteLatch
namespace Text
namespace Pattern

inductive Primitive where
  /-- A character, which may have been written as the code of an octet. -/
  | char (c : Char) (isOctet : Bool)
  | anyChar
  /-- Digits, blanks or the characters of words, or all others. -/
  | shorthand (isNegated : Bool)
  /-- The beginning or the end of a line or of the text. -/
  | edge
  | wordEdge
  deriving DecidableEq, Repr

/-! ## Reading -/

/-- So many hexadecimal digits, behind the value of those before them. -/
def readCode (mode : Mode) : Nat -> Nat -> List Char -> Option (Nat × List Char)
  | 0, code, cs => some (code, cs)
  | n + 1, code, cs =>
      match mode.skip cs with
      | [] => none
      | c :: rest =>
          match hexValue? c with
          | some digit => readCode mode n (16 * code + digit) rest
          | none => none

/-- A character by its code in so many digits; two are the code of an octet. -/
def readCoded (mode : Mode) (digits : Nat) (cs : List Char) : Option (Primitive × List Char) :=
  match readCode mode digits 0 cs with
  | some (code, rest) =>
      if code.isValidChar then some (.char (Char.ofNat code) (digits == 2), rest) else none
  | none => none

/-- Reads what stands behind a backslash. -/
def readEscape (mode : Mode) (cs : List Char) : Option (Primitive × List Char) :=
  match cs with
  | [] => none
  | 'x' :: rest => readCoded mode 2 rest
  | 'u' :: rest => readCoded mode 4 rest
  | 'U' :: rest => readCoded mode 8 rest
  | c :: rest =>
      let found (p : Primitive) := some (p, rest)
      match c with
      | 'd' | 's' | 'w' => found (.shorthand false)
      | 'D' | 'S' | 'W' => found (.shorthand true)
      | 'A' | 'z' => found .edge
      | 'b' | 'B' | '<' | '>' => found .wordEdge
      | 'a' => found (.char '\x07' false)
      | 'f' => found (.char '\x0c' false)
      | 'n' => found (.char '\n' false)
      | 'r' => found (.char '\r' false)
      | 't' => found (.char '\t' false)
      | 'v' => found (.char '\x0b' false)
      | c => if c.toNat < 0x80 && !c.isAlphanum then found (.char c false) else none

def readPrimitive (mode : Mode) (cs : List Char) : Option (Primitive × List Char) :=
  match cs with
  | [] => none
  | '\\' :: rest => readEscape mode rest
  | '.' :: rest => some (.anyChar, rest)
  | '^' :: rest => some (.edge, rest)
  | '$' :: rest => some (.edge, rest)
  | c :: rest => some (.char c false, rest)

/-! ## What is allowed -/

def Primitive.isAllowed (mode : Mode) : Primitive -> Bool
  | .char c isOctet =>
      if mode.unicode then !mode.ignoresCase else !(isOctet && 0x80 <= c.toNat)
  | .anyChar => mode.unicode
  | .shorthand isNegated => !mode.unicode && !isNegated
  | .edge => true
  | .wordEdge => !mode.unicode

/-- What is allowed between brackets. -/
def Primitive.isAllowedInSet (mode : Mode) : Primitive -> Bool
  | .char c _ => if mode.unicode then !mode.ignoresCase else c.toNat < 0x80
  | .shorthand isNegated => !mode.unicode && !isNegated
  | _ => false

end Pattern
end Text
end WriteLatch
