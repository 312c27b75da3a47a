/-!
# Spans of a request

A request with more keys than a store takes at once is written in pieces, each
a span of positions.  Positions and lengths are machine words: a sum past the
last word starts again at zero.
-/

namespace WriteLatch

structure Span where
  start : Nat
  stop : Nat
  deriving DecidableEq, Repr

/-- The number of machine words. -/
def wordCount : Nat :=
  Nat.pow 2 64

namespace Span

/-- A span that stops before it starts is empty. -/
def size (span : Span) : Nat :=
  span.stop - span.start

def slice {α : Type} (span : Span) (xs : List α) : List α :=
  (xs.drop span.start).take span.size

/-- The span of positions that starts at a multiple of the limit. -/
def piece (count limit i : Nat) : Span :=
  let start := i * limit
  ⟨start, min ((start + limit) % wordCount) count⟩

/-- How many spans it takes; a limit of zero counts as one. -/
def pieceCount (count limit : Nat) : Nat :=
  (count + max limit 1 - 1) / max limit 1

/-- As many spans as it takes, each of the limit except for the last one. -/
def split (count limit : Nat) : List Span :=
  (List.range (pieceCount count limit)).map (piece count (max limit 1))

/-! ## Room in memory

A list takes one run of memory that is asked for before the list is filled, and
half of all addresses is the most that can be asked for.  A span takes sixteen
octets.
-/

/-- Whether memory can be asked for so many items of a width in octets. -/
def hasRoom (count width : Nat) : Bool :=
  count * width < Nat.pow 2 63

def splitHasRoom (count limit : Nat) : Bool :=
  hasRoom (pieceCount count limit) 16

/-! ## Shape of a split -/

theorem split_zero (limit : Nat) : split 0 limit = [] := by
  have h : (max limit 1 - 1) / max limit 1 = 0 := Nat.div_eq_of_lt (by omega)
  simp [split, pieceCount, h]

theorem length_split (count limit : Nat) :
    (split count limit).length = pieceCount count limit := by
  simp [split]

end Span
end WriteLatch
