import WriteLatch.Binary64.Rounding
import WriteLatch.Json.Fault

/-!
# Numerals

A numeral is read in two steps: its digits, and then the number they stand
for.  Without fraction and exponent it is an integer as far as sixty-four bits
go; anything else is a double-precision number, and so is minus zero.
-/

namespace WriteLatch
namespace Json

def isDigit (c : Char) : Bool :=
  '0' <= c && c <= '9'

def digitValue (c : Char) : Nat :=
  c.toNat - '0'.toNat

structure Numeral where
  negative : Bool
  whole : List Char
  fraction : List Char
  exponentNegative : Bool
  exponent : List Char
  deriving DecidableEq, Repr

inductive Number where
  | natural (n : Nat)
  | negative (n : Nat)
  | float (x : Binary64)
  deriving DecidableEq, Repr

/-! ## Digits -/

/-- One digit or more.  The fault for a text that ends here is the caller's. -/
def digits (whenShort : Fault) : Scan (List Char) :=
  Scan.onRest fun s =>
    match s with
    | [] => .error whenShort
    | c :: rest =>
        if isDigit c then
          .ok (c :: rest.takeWhile isDigit, rest.dropWhile isDigit)
        else
          .error .malformed

/-- Digits before the point: a leading zero stands alone. -/
def wholeDigits (whenShort : Fault) : Scan (List Char) :=
  Scan.onRest fun s =>
    match s with
    | '0' :: c :: rest =>
        if isDigit c then .error .malformed else .ok (['0'], c :: rest)
    | s => digits whenShort s

def fractionDigits (whenShort : Fault) : Scan (List Char) :=
  Scan.onRest fun s =>
    match s with
    | '.' :: rest => digits whenShort rest
    | s => .ok ([], s)

/-- A minus sign, a plus sign, or none. -/
def exponentSign : Scan Bool :=
  Scan.onRest fun s =>
    match s with
    | '-' :: rest => .ok (true, rest)
    | '+' :: rest => .ok (false, rest)
    | s => .ok (false, s)

def exponentDigits (whenShort : Fault) : Scan (Bool × List Char) := do
  if (<- get).head? = some 'e' || (<- get).head? = some 'E' then
    modify (List.drop 1)
    let negative <- exponentSign
    let ds <- digits whenShort
    pure (negative, ds)
  else
    pure (false, [])

def minusSign : Scan Bool :=
  Scan.onRest fun s =>
    match s with
    | '-' :: rest => .ok (true, rest)
    | s => .ok (false, s)

def numeral (whenShort : Fault) : Scan Numeral := do
  let negative <- minusSign
  let whole <- wholeDigits whenShort
  let fraction <- fractionDigits whenShort
  let (exponentNegative, exponent) <- exponentDigits whenShort
  pure ⟨negative, whole, fraction, exponentNegative, exponent⟩

/-! ## Values -/

def naturalOf (ds : List Char) : Nat :=
  ds.foldl (fun n c => 10 * n + digitValue c) 0

/-- The longest run of digits whose value still fits into sixty-four bits after
the significand so far, appended to it, and the digits that are left. -/
def significandOf (n : Nat) : List Char -> Nat × List Char
  | [] => (n, [])
  | c :: rest =>
      let next := 10 * n + digitValue c
      if next < Nat.pow 2 64 then significandOf next rest else (n, c :: rest)

/-- Digits that no longer fit count by their place only: before the point they
raise the exponent, after it they are dropped. -/
def Numeral.float? (x : Numeral) : Option Binary64 :=
  let (significand, more) := significandOf 0 x.whole
  let (significand, dropped) := significandOf significand x.fraction
  let written := (naturalOf x.exponent : Int)
  let exponent := if x.exponentNegative then -written else written
  let used : Int := x.fraction.length - dropped.length
  Binary64.ofDecimal? x.negative significand (exponent + more.length - used)

def Numeral.number? (x : Numeral) : Option Number :=
  let n := naturalOf x.whole
  if x.fraction.isEmpty && x.exponent.isEmpty then
    if x.negative then
      if 0 < n && n <= Nat.pow 2 63 then some (.negative n)
      else x.float?.map .float
    else if n < Nat.pow 2 64 then some (.natural n)
    else x.float?.map .float
  else
    x.float?.map .float

/-- A number; one beyond the range of double precision is not JSON. -/
def readNumber : Scan Number := do
  match (<- numeral .truncated).number? with
  | some n => pure n
  | none => throw .malformed

def Number.int64? : Number -> Option Int64
  | .natural n => if n < Nat.pow 2 63 then some (Int64.ofNat n) else none
  | .negative n => some (Int64.ofInt (-n))
  | .float _ => none

def Number.word? : Number -> Option Nat
  | .natural n => some n
  | .negative _ => none
  | .float _ => none

def Number.octet? : Number -> Option UInt8
  | .natural n => if n < 256 then some (UInt8.ofNat n) else none
  | .negative _ => none
  | .float _ => none

def Number.toBinary64 : Number -> Binary64
  | .natural n => Binary64.ofNat false n
  | .negative n => Binary64.ofNat true n
  | .float x => x

end Json
end WriteLatch
