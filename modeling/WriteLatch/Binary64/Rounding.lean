import WriteLatch.Binary64.Basic

/-!
# Rounding to double precision

Rounding takes a ratio of naturals, in units of the smallest positive number,
to the nearest number, a tie to the even significand.  The product, the
quotient and the conversion of a natural are exact results rounded once.
-/

namespace WriteLatch
namespace Binary64

def roundHalfEven (num den : Nat) : Nat :=
  let floor := num / den
  let rest := 2 * (num % den)
  if rest < den then floor
  else if den < rest then floor + 1
  else floor + floor % 2

/-- The bits of the magnitude nearest to the ratio; too large a ratio gives
infinity. -/
def nearestBits (num den : Nat) : Nat :=
  let gap := (num / den).log2 - 52
  min infinityBits (gap * Nat.pow 2 52 + roundHalfEven num (den * Nat.pow 2 gap))

def nearest (negative : Bool) (num den : Nat) : Binary64 :=
  ofSignBits negative (nearestBits num den)

/-- One, in units of the smallest positive number. -/
def unit : Nat :=
  Nat.pow 2 1074

def ofNat (negative : Bool) (n : Nat) : Binary64 :=
  nearest negative (n * unit) 1

def times (x y : Binary64) : Binary64 :=
  nearest (x.isNegative != y.isNegative) (x.magnitude * y.magnitude) unit

def dividedBy (x y : Binary64) : Binary64 :=
  nearest (x.isNegative != y.isNegative) (x.magnitude * unit) y.magnitude

/-! ## Scaling by powers of ten -/

def tenTo (n : Nat) : Binary64 :=
  ofNat false (Nat.pow 10 n)

/-- Divides by ten to the given power; past 308 in steps of 308, and no further
once nothing is left. -/
def scaledDown (x : Binary64) (power : Nat) : Binary64 :=
  if power <= 308 then
    x.dividedBy (tenTo power)
  else if x.isZero then
    x
  else
    scaledDown (x.dividedBy (tenTo 308)) (power - 308)
termination_by power

def scaledUp? (x : Binary64) (power : Nat) : Option Binary64 :=
  if power <= 308 then
    let y := x.times (tenTo power)
    if y.isFinite then some y else none
  else if x.isZero then
    some x
  else
    none

/-- A decimal read in two roundings: of the significand, and of its product
with or quotient by the rounded power of ten.  A result past the largest number
is none. -/
def ofDecimal? (negative : Bool) (significand : Nat) (exponent : Int) : Option Binary64 :=
  let x := ofNat negative significand
  if 0 <= exponent then
    x.scaledUp? exponent.toNat
  else
    some (x.scaledDown (-exponent).toNat)

end Binary64
end WriteLatch
