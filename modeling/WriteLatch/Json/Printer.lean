import WriteLatch.Binary64.Shortest

/-!
# Written form

Documents are written without blanks.  In a string the quote, the backslash and
the control characters are escaped and nothing else is.  A number of double
precision has its shortest digits: positional from `0.00001` up to below ten to
the sixteenth, always with a point, and otherwise with a signed exponent; what
is not finite is written as null.
-/

namespace WriteLatch
namespace Json

def hexDigit (n : Nat) : Char :=
  if n < 10 then Char.ofNat ('0'.toNat + n) else Char.ofNat ('a'.toNat + (n - 10))

def escapedChar (c : Char) : List Char :=
  if c = '"' then ['\\', '"']
  else if c = '\\' then ['\\', '\\']
  else if c = '\x08' then ['\\', 'b']
  else if c = '\x0c' then ['\\', 'f']
  else if c = '\n' then ['\\', 'n']
  else if c = '\r' then ['\\', 'r']
  else if c = '\t' then ['\\', 't']
  else if c.toNat < 0x20 then
    ['\\', 'u', '0', '0', hexDigit (c.toNat / 16), hexDigit (c.toNat % 16)]
  else [c]

def textChars (s : String) : List Char :=
  '"' :: (s.toList.flatMap escapedChar ++ ['"'])

def boolChars : Bool -> List Char
  | true => ['t', 'r', 'u', 'e']
  | false => ['f', 'a', 'l', 's', 'e']

def nullChars : List Char :=
  ['n', 'u', 'l', 'l']

def natChars (n : Nat) : List Char :=
  Nat.toDigits 10 n

def intChars (n : Int) : List Char :=
  match n with
  | .ofNat n => natChars n
  | .negSucc n => '-' :: natChars (n + 1)

/-! ## Lists and members -/

def commaSeparated : List (List Char) -> List Char
  | [] => []
  | [item] => item
  | item :: items => item ++ ',' :: commaSeparated items

def listChars (items : List (List Char)) : List Char :=
  '[' :: (commaSeparated items ++ [']'])

def memberChars (name : String) (value : List Char) : List Char :=
  textChars name ++ ':' :: value

def objectChars (members : List (List Char)) : List Char :=
  '{' :: (commaSeparated members ++ ['}'])

/-! ## Numbers of double precision -/

def positionalChars (d : Decimal) : List Char :=
  let places := d.exponent + 1
  if places <= 0 then
    '0' :: '.' :: (List.replicate (-places).toNat '0' ++ d.digits)
  else if d.digits.length <= places.toNat then
    d.digits ++ List.replicate (places.toNat - d.digits.length) '0' ++ ['.', '0']
  else
    d.digits.take places.toNat ++ '.' :: d.digits.drop places.toNat

def scientificChars (d : Decimal) : List Char :=
  let mantissa :=
    match d.digits with
    | [] => ['0']
    | [c] => [c]
    | c :: cs => c :: '.' :: cs
  let sign := if d.exponent < 0 then '-' else '+'
  mantissa ++ 'e' :: sign :: natChars d.exponent.natAbs

def floatChars (x : Binary64) : List Char :=
  if !x.isFinite then nullChars
  else
    let sign := if x.isNegative then ['-'] else []
    if x.isZero then sign ++ ['0', '.', '0']
    else
      let d := x.shortest
      if -5 <= d.exponent && d.exponent < 16 then sign ++ positionalChars d
      else sign ++ scientificChars d

end Json
end WriteLatch
