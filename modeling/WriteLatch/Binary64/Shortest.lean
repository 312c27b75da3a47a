import WriteLatch.Binary64.Basic

/-!
# The shortest decimal of a number

Every positive number is the nearest one to an interval of reals.  Of the
decimals in that interval with the fewest digits, the shortest decimal is the
one closest to the number; of two equally close, the one whose last digit is
even.  On each grid of decimals only the two neighbours of the number have to
be looked at.
-/

namespace WriteLatch

/-- A positive decimal `d.ddd` times ten to the exponent. -/
structure Decimal where
  digits : List Char
  exponent : Int
  deriving DecidableEq, Repr

namespace Binary64

/-- A quarter of the smallest positive number, the unit in which numbers and
the ends of their intervals are both natural. -/
def quarterUnit : Nat :=
  Nat.pow 2 1076

def intervalBelow (x : Binary64) : Nat :=
  if x.fraction = 0 && 1 < x.exponentField then
    Nat.pow 2 x.gapExponent
  else
    2 * Nat.pow 2 x.gapExponent

def intervalAbove (x : Binary64) : Nat :=
  2 * Nat.pow 2 x.gapExponent

/-- Whether `num / den`, in quarter units, rounds to the number.  The ends
belong to the interval when the significand is even. -/
def roundsTo (x : Binary64) (num den : Nat) : Bool :=
  let low := (4 * x.magnitude - x.intervalBelow) * den
  let high := (4 * x.magnitude + x.intervalAbove) * den
  if x.significand % 2 = 0 then
    low <= num && num <= high
  else
    low < num && num < high

/-- The neighbour of the number on the grid of multiples of ten to the power
`grid` that rounds to it, if one does. -/
def onGrid? (x : Binary64) (grid : Int) : Option Nat :=
  let step := quarterUnit * Nat.pow 10 grid.toNat
  let den := Nat.pow 10 (-grid).toNat
  let num := 4 * x.magnitude * den
  let below := num / step
  let rest := 2 * (num % step)
  let lowFits := x.roundsTo (below * step) den
  let highFits := x.roundsTo ((below + 1) * step) den
  if lowFits && highFits then
    if rest < step then some below
    else if step < rest then some (below + 1)
    else some (below + below % 2)
  else if lowFits then some below
  else if highFits then some (below + 1)
  else none

/-- The least power of ten above the number, up to one too small. -/
def decimalMagnitude (x : Binary64) : Int :=
  (((x.magnitude.log2 : Int) - 1074) * 1262611).fdiv (Nat.pow 2 22) + 1

def isBelowTenTo (x : Binary64) (k : Int) : Bool :=
  4 * x.magnitude * Nat.pow 10 (-k).toNat < quarterUnit * Nat.pow 10 k.toNat

def shortestFrom (x : Binary64) (grid : Int) : Nat -> Nat × Int
  | 0 => (0, grid)
  | fuel + 1 =>
      match x.onGrid? grid with
      | some n => (n, grid)
      | none => shortestFrom x (grid - 1) fuel

def withoutTrailingZeros (digits : List Char) : List Char :=
  (digits.reverse.dropWhile (· == '0')).reverse

def decimalOf (n : Nat) (grid : Int) : Decimal :=
  let digits := Nat.toDigits 10 n
  ⟨withoutTrailingZeros digits, grid + (digits.length - 1 : Nat)⟩

/-- The shortest decimal of the magnitude of a finite number other than zero.
Seventeen digits always suffice; one grid more absorbs the estimate of the
magnitude. -/
def shortest (x : Binary64) : Decimal :=
  let k := x.decimalMagnitude
  let top := if x.isBelowTenTo k then k else k + 1
  let found := x.shortestFrom (top - 1) 18
  decimalOf found.1 found.2

end Binary64
end WriteLatch
