import WriteLatch.Json.Fault
import WriteLatch.Text.Hexadecimal
import WriteLatch.Text.Octets

/-!
# Strings

What follows the opening quote of a string, up to the closing one.  A string
read as text has to be text: no raw control character and no lone surrogate.
Read as octets it may hold both, a lone surrogate in the three octets of its
code.  Skipped, only its escapes have to be well formed.
-/

namespace WriteLatch
namespace Json

def hexCode? (a b c d : Char) : Option Nat := do
  let digits <- [a, b, c, d].mapM Text.hexValue?
  pure (digits.foldl (fun code digit => 16 * code + digit) 0)

/-- Fewer than four characters follow where four hexadecimal digits have to.
The text ends too soon if they are also fewer than four octets. -/
def shortCode (s : List Char) : Fault :=
  if Text.octetCount s < 4 then .truncated else .malformed

def isHighSurrogate (n : Nat) : Bool :=
  0xd800 <= n && n < 0xdc00

def isLowSurrogate (n : Nat) : Bool :=
  0xdc00 <= n && n < 0xe000

def paired (high low : Nat) : Nat :=
  0x10000 + (high - 0xd800) * 0x400 + (low - 0xdc00)

/-- The character behind a backslash, other than a code. -/
def simpleEscape? (c : Char) : Option Char :=
  match c with
  | '"' => some '"'
  | '\\' => some '\\'
  | '/' => some '/'
  | 'b' => some '\x08'
  | 'f' => some '\x0c'
  | 'n' => some '\n'
  | 'r' => some '\r'
  | 't' => some '\t'
  | _ => none

def isControl (c : Char) : Bool :=
  c.toNat < 0x20

/-- Items before the rest of what is read. -/
def andThen {α : Type} (items : List α) (rest : Except Fault (List α × List Char)) :
    Except Fault (List α × List Char) :=
  rest.map fun r => (items ++ r.1, r.2)

/-! ## Text

A high surrogate is held back until the low one that has to follow it.
-/

/-- What one more code adds to a text, and the high surrogate held back next. -/
def textCode? (held : Option Nat) (n : Nat) : Option (List Char × Option Nat) :=
  match held with
  | some high =>
      if isLowSurrogate n then some ([Char.ofNat (paired high n)], none) else none
  | none =>
      if isLowSurrogate n then none
      else if isHighSurrogate n then some ([], some n)
      else some ([Char.ofNat n], none)

def scanText (held : Option Nat) : List Char -> Except Fault (List Char × List Char)
  | [] => .error .truncated
  | c :: s =>
      if c = '\\' then
        match s with
        | [] => .error .truncated
        | e :: s =>
            if e = 'u' then
              match s with
              | a :: b :: c :: d :: s =>
                  match (hexCode? a b c d).bind (textCode? held) with
                  | some (text, held) => andThen text (scanText held s)
                  | none => .error .malformed
              | s => .error (shortCode s)
            else if held.isSome then .error .malformed
            else
              match simpleEscape? e with
              | some e => andThen [e] (scanText none s)
              | none => .error .malformed
      else if held.isSome then .error .malformed
      else if c = '"' then .ok ([], s)
      else if isControl c then .error .malformed
      else andThen [c] (scanText none s)
termination_by structural s => s

/-! ## Octets

Here a surrogate without its partner is a code of its own.
-/

/-- The octets of a code point, surrogates included. -/
def codeOctets (n : Nat) : List UInt8 :=
  if n < 0x80 then
    [UInt8.ofNat n]
  else if n < 0x800 then
    [UInt8.ofNat (0xc0 + n / 0x40), UInt8.ofNat (0x80 + n % 0x40)]
  else if n < 0x10000 then
    [UInt8.ofNat (0xe0 + n / 0x1000), UInt8.ofNat (0x80 + n / 0x40 % 0x40),
      UInt8.ofNat (0x80 + n % 0x40)]
  else
    [UInt8.ofNat (0xf0 + n / 0x40000), UInt8.ofNat (0x80 + n / 0x1000 % 0x40),
      UInt8.ofNat (0x80 + n / 0x40 % 0x40), UInt8.ofNat (0x80 + n % 0x40)]

/-- The codes that one more makes known, and the high surrogate held back
next. -/
def pairUp (held : Option Nat) (n : Nat) : List Nat × Option Nat :=
  match held with
  | some high =>
      if isLowSurrogate n then ([paired high n], none)
      else if isHighSurrogate n then ([high], some n)
      else ([high, n], none)
  | none =>
      if isHighSurrogate n then ([], some n) else ([n], none)

/-- The codes of a string in order; a surrogate pair is one code. -/
def scanCodes (held : Option Nat) : List Char -> Except Fault (List Nat × List Char)
  | [] => .error .truncated
  | c :: s =>
      if c = '\\' then
        match s with
        | [] => .error .truncated
        | e :: s =>
            if e = 'u' then
              match s with
              | a :: b :: c :: d :: s =>
                  match hexCode? a b c d with
                  | some n => andThen (pairUp held n).1 (scanCodes (pairUp held n).2 s)
                  | none => .error .malformed
              | s => .error (shortCode s)
            else
              match simpleEscape? e with
              | some e => andThen (held.toList ++ [e.toNat]) (scanCodes none s)
              | none => .error .malformed
      else if c = '"' then .ok (held.toList, s)
      else andThen (held.toList ++ [c.toNat]) (scanCodes none s)
termination_by structural s => s

/-! ## Skipping -/

def scanPast : List Char -> Except Fault (Unit × List Char)
  | [] => .error .truncated
  | c :: s =>
      if c = '\\' then
        match s with
        | [] => .error .truncated
        | e :: s =>
            if e = 'u' then
              match s with
              | a :: b :: c :: d :: s =>
                  if (hexCode? a b c d).isSome then scanPast s else .error .malformed
              | s => .error (shortCode s)
            else if (simpleEscape? e).isSome then scanPast s
            else .error .malformed
      else if c = '"' then .ok ((), s)
      else if isControl c then .error .malformed
      else scanPast s
termination_by structural s => s

/-! ## As scans -/

def restOfText : Scan String := do
  let cs <- Scan.onRest (scanText none)
  pure (String.ofList cs)

def restOfOctets : Scan (List UInt8) := do
  let codes <- Scan.onRest (scanCodes none)
  pure (codes.flatMap codeOctets)

def restSkipped : Scan Unit :=
  Scan.onRest scanPast

end Json
end WriteLatch
