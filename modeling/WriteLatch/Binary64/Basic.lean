/-!
# Double-precision numbers by their bits

A number is its sixty-four bits: a sign, eleven bits of exponent field and
fifty-two of fraction.  The magnitude of a finite number is a natural multiple
of the smallest positive one, `2 ^ -1074`, so that every comparison and
every rounding can be done in exact natural arithmetic.
-/

namespace WriteLatch

structure Binary64 where
  bits : UInt64
  deriving DecidableEq, Repr, Inhabited

namespace Binary64

def isNegative (x : Binary64) : Bool :=
  Nat.pow 2 63 <= x.bits.toNat

def exponentField (x : Binary64) : Nat :=
  x.bits.toNat / Nat.pow 2 52 % Nat.pow 2 11

def fraction (x : Binary64) : Nat :=
  x.bits.toNat % Nat.pow 2 52

def isFinite (x : Binary64) : Bool :=
  x.exponentField < 2047

def isNaN (x : Binary64) : Bool :=
  !x.isFinite && x.fraction != 0

/-- The gap to the next larger magnitude is two to this power, in units of the
smallest positive number. -/
def gapExponent (x : Binary64) : Nat :=
  x.exponentField - 1

def significand (x : Binary64) : Nat :=
  if x.exponentField = 0 then x.fraction else Nat.pow 2 52 + x.fraction

/-- The magnitude in units of the smallest positive number. -/
def magnitude (x : Binary64) : Nat :=
  x.significand * Nat.pow 2 x.gapExponent

def isZero (x : Binary64) : Bool :=
  x.isFinite && x.magnitude == 0

/-- Equality of numbers: nothing equals a NaN, and the two zeros are equal. -/
def numericallyEqual (x y : Binary64) : Bool :=
  !x.isNaN && !y.isNaN && (x == y || x.isZero && y.isZero)

/-- A sign over the bits of a magnitude. -/
def ofSignBits (negative : Bool) (magnitudeBits : Nat) : Binary64 :=
  ⟨UInt64.ofNat (magnitudeBits + if negative then Nat.pow 2 63 else 0)⟩

def infinityBits : Nat :=
  2047 * Nat.pow 2 52

end Binary64
end WriteLatch
