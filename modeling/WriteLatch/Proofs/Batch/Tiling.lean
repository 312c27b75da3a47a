import Mathlib.Algebra.Order.Floor.Div
import Mathlib.GroupTheory.GroupAction.Ring
import WriteLatch.Proofs.Batch.Cover

/-!
# Spans that tile a request

A request is cut into spans that follow one another, each as wide as the limit
except for the last one.  Where a span stops is reckoned before it is held
against the end of the request, as a sum of two machine words.  Of all spans
only the last one can come to a sum past the last word.  The sum starts again at
zero then, and that span stops before it starts.
-/

namespace WriteLatch
namespace Span

/-!
## Spans in a row
-/

/-- Spans that follow one another from one position to another. -/
inductive InRow : Nat -> List Span -> Nat -> Prop where
  | nil (i : Nat) : InRow i [] i
  | cons {span : Span} {rest : List Span} {stop : Nat} (ordered : span.start <= span.stop)
      (hrest : InRow span.stop rest stop) : InRow span.start (span :: rest) stop

namespace InRow

variable {start stop : Nat} {spans : List Span}

theorem concat {span : Span} (h : InRow start spans span.start)
    (ordered : span.start <= span.stop) : InRow start (spans ++ [span]) span.stop := by
  generalize hend : span.start = between at h
  induction h with
  | nil i =>
      rw [← hend]
      exact InRow.cons ordered (InRow.nil _)
  | cons hfirst hrest ih => exact InRow.cons hfirst (ih hend)

theorem ordered_of_mem (h : InRow start spans stop) {span : Span} (hmem : span ∈ spans) :
    span.start <= span.stop := by
  induction h with
  | nil i => cases hmem
  | cons hfirst hrest ih =>
      rcases List.mem_cons.mp hmem with heq | hmem
      · rw [heq]
        exact hfirst
      · exact ih hmem

/-- A span starts where those before it have taken up their positions. -/
theorem start_add_sum_take (h : InRow start spans stop) {j : Nat} {span : Span}
    (hspan : spans[j]? = some span) :
    start + ((spans.take j).map size).sum = span.start := by
  induction h generalizing j with
  | nil i => cases hspan
  | @cons first rest stop hfirst hrest ih =>
      cases j with
      | zero =>
          cases hspan
          rfl
      | succ j =>
          have hbefore := ih hspan
          rw [List.take_succ_cons, List.map_cons, List.sum_cons, size]
          omega

/-- All spans together take up the positions from the first to the last. -/
theorem start_add_sum (h : InRow start spans stop) : start + (spans.map size).sum = stop := by
  induction h with
  | nil i => rfl
  | @cons first rest stop hfirst hrest ih =>
      rw [List.map_cons, List.sum_cons, size]
      omega

/-- Every position lies in one of the spans. -/
theorem exists_span (h : InRow start spans stop) {i : Nat} (hstart : start <= i)
    (hstop : i < stop) :
    ∃ (j : Nat) (span : Span), spans[j]? = some span ∧ span.start <= i ∧ i < span.stop := by
  induction h with
  | nil i => omega
  | @cons first rest stop hfirst hrest ih =>
      by_cases hi : i < first.stop
      · exact ⟨0, first, rfl, hstart, hi⟩
      · rcases ih (Nat.le_of_not_lt hi) hstop with ⟨j, span, hspan, hbounds⟩
        exact ⟨j + 1, span, hspan, hbounds⟩

theorem getLast?_stop (h : InRow start spans stop) :
    (spans.getLast?.map Span.stop).getD start = stop := by
  induction h with
  | nil i => rfl
  | @cons first rest stop hfirst hrest ih =>
      rw [List.getLast?_cons]
      cases hlast : rest.getLast? with
      | none =>
          rw [hlast] at ih
          exact ih
      | some last =>
          rw [hlast] at ih
          exact ih

end InRow

/-!
## Tiles
-/

/-- Spans of one width that take up a request of so many positions, except that
the last one stops with the request. -/
structure Tiles (count width : Nat) (spans : List Span) : Prop where
  length : spans.length = count ⌈/⌉ width
  piece : ∀ (i : Nat) (span : Span), spans[i]? = some span ->
    span = ⟨i * width, min ((i + 1) * width) count⟩
  size : ∀ span ∈ spans, 0 < span.size ∧ span.size <= width
  row : InRow 0 spans count

/-- The spans of a split, if memory can be asked for them. -/
def split? (count limit : Nat) : Option (List Span) :=
  if splitHasRoom count limit then some (split count limit) else none

section Split

variable {count limit : Nat}

theorem pieceCount_eq_ceilDiv (count limit : Nat) :
    pieceCount count limit = count ⌈/⌉ max limit 1 :=
  (Nat.ceilDiv_eq_add_pred_div _ _).symm

/-- The first spans of a split lie in a row if none of them is past the last word. -/
theorem inRow_pieces {n : Nat} (hn : n <= pieceCount count limit)
    (hwords : n * max limit 1 < wordCount) :
    InRow 0 ((List.range n).map (piece count (max limit 1))) (min (n * max limit 1) count) := by
  induction n with
  | zero =>
      rw [Nat.zero_mul, Nat.zero_min]
      exact InRow.nil 0
  | succ n ih =>
      have hbefore : n * max limit 1 <= (n + 1) * max limit 1 :=
        Nat.mul_le_mul_right _ (Nat.le_succ n)
      have hstart : n * max limit 1 < count := mul_lt_of_lt_pieceCount hn
      have hpiece : piece count (max limit 1) n =
          ⟨n * max limit 1, min ((n + 1) * max limit 1) count⟩ := piece_eq_of_lt hwords
      have hrow := ih (Nat.le_of_succ_le hn) (Nat.lt_of_le_of_lt hbefore hwords)
      rw [Nat.min_eq_left (Nat.le_of_lt hstart)] at hrow
      rw [List.range_succ, List.map_append, List.map_singleton, hpiece]
      exact @InRow.concat 0 _ ⟨n * max limit 1, min ((n + 1) * max limit 1) count⟩ hrow
        (Nat.le_min.mpr ⟨hbefore, Nat.le_of_lt hstart⟩)

/-- Where no end of a span is past the last word, a split tiles the request. -/
theorem tiles_split (hwords : pieceCount count limit * max limit 1 < wordCount) :
    Tiles count (max limit 1) (split count limit) := by
  have hpiece : ∀ (i : Nat) (span : Span), (split count limit)[i]? = some span ->
      i < pieceCount count limit ∧
        span = ⟨i * max limit 1, min ((i + 1) * max limit 1) count⟩ := by
    intro i span hspan
    rcases getElem?_split hspan with ⟨hi, heq⟩
    have hnext : (i + 1) * max limit 1 <= pieceCount count limit * max limit 1 :=
      Nat.mul_le_mul_right _ hi
    rw [heq]
    exact ⟨hi, piece_eq_of_lt (Nat.lt_of_le_of_lt hnext hwords)⟩
  constructor
  case length =>
    rw [length_split]
    exact pieceCount_eq_ceilDiv count limit
  case piece => exact fun i span hspan => (hpiece i span hspan).2
  case size =>
    intro span hmem
    rcases List.mem_iff_getElem?.mp hmem with ⟨i, hi⟩
    rcases hpiece i span hi with ⟨hlt, heq⟩
    have hstart := mul_lt_of_lt_pieceCount hlt
    rw [heq, Span.size, Nat.succ_mul]
    dsimp only
    omega
  case row =>
    have hrow := inRow_pieces (Nat.le_refl _) hwords
    rw [Nat.min_eq_right (le_pieceCount_mul count limit)] at hrow
    exact hrow

/-!
## Past the last word
-/

/-- Where the end of a span is past the last word, that span is the last one, and
it stops before it starts. -/
theorem split_of_wraps (hcount : count < wordCount) (hlimit : limit < wordCount)
    (hwraps : wordCount <= pieceCount count limit * max limit 1) :
    ∃ n, pieceCount count limit = n + 1 ∧
      split count limit = (List.range n).map (fun i => ⟨i * max limit 1, (i + 1) * max limit 1⟩) ++
        [⟨n * max limit 1, (n + 1) * max limit 1 - wordCount⟩] ∧
      (n + 1) * max limit 1 - wordCount < n * max limit 1 := by
  have hwords : 1 < wordCount := by decide
  cases hpieces : pieceCount count limit with
  | zero =>
      rw [hpieces, Nat.zero_mul] at hwraps
      omega
  | succ n =>
      have hn : n < pieceCount count limit := by
        rw [hpieces]
        exact Nat.lt_succ_self n
      have hstart : n * max limit 1 < count := mul_lt_of_lt_pieceCount hn
      rw [hpieces] at hwraps
      have hbefore : ∀ i ∈ List.range n, piece count (max limit 1) i =
          ⟨i * max limit 1, (i + 1) * max limit 1⟩ := by
        intro i hmem
        have hnext : (i + 1) * max limit 1 <= n * max limit 1 :=
          Nat.mul_le_mul_right _ (List.mem_range.mp hmem)
        have hle : (i + 1) * max limit 1 <= count := Nat.le_of_lt (Nat.lt_of_le_of_lt hnext hstart)
        rw [piece_eq_of_lt (Nat.lt_of_le_of_lt hle hcount), Nat.min_eq_left hle]
      have hlast : piece count (max limit 1) n =
          ⟨n * max limit 1, (n + 1) * max limit 1 - wordCount⟩ := by
        rw [Nat.succ_mul] at hwraps ⊢
        rw [piece, Nat.mod_eq_sub_mod hwraps, Nat.mod_eq_of_lt (by omega),
          Nat.min_eq_left (by omega)]
      refine ⟨n, rfl, ?_, ?_⟩
      · rw [split, hpieces, List.range_succ, List.map_append, List.map_singleton, hlast,
          List.map_congr_left hbefore]
      · rw [Nat.succ_mul] at hwraps ⊢
        omega

theorem not_tiles_of_wraps (hcount : count < wordCount) (hlimit : limit < wordCount)
    (hwraps : wordCount <= pieceCount count limit * max limit 1) :
    ¬ Tiles count (max limit 1) (split count limit) := by
  rcases split_of_wraps hcount hlimit hwraps with ⟨n, _, hsplit, hstop⟩
  intro htiles
  have hordered := htiles.row.ordered_of_mem (hsplit ▸ List.mem_append_right _ List.mem_cons_self)
  exact Nat.not_le_of_lt hstop hordered

/-- For all machine words, a split that memory can be asked for tiles the request
unless the end of its last span is past the last word.  The last span stops
before it starts then, and all others are as they should be. -/
theorem exists_tiles_split_iff (hcount : count < wordCount) (hlimit : limit < wordCount) :
    ((∃ spans, split? count limit = some spans ∧ Tiles count (max limit 1) spans) ↔
      splitHasRoom count limit = true ∧ (count ⌈/⌉ max limit 1) * max limit 1 < wordCount) ∧
    (splitHasRoom count limit = true -> wordCount <= (count ⌈/⌉ max limit 1) * max limit 1 ->
      ∃ n, count ⌈/⌉ max limit 1 = n + 1 ∧
        split? count limit = some
          ((List.range n).map (fun i => ⟨i * max limit 1, (i + 1) * max limit 1⟩) ++
            [⟨n * max limit 1, (n + 1) * max limit 1 - wordCount⟩]) ∧
        (n + 1) * max limit 1 - wordCount < n * max limit 1) := by
  rw [← pieceCount_eq_ceilDiv]
  constructor
  · constructor
    · rintro ⟨spans, hspans, htiles⟩
      rw [split?, Option.ite_none_right_eq_some, Option.some.injEq] at hspans
      rcases hspans with ⟨hroom, heq⟩
      refine ⟨hroom, ?_⟩
      by_contra hwraps
      rw [← heq] at htiles
      exact not_tiles_of_wraps hcount hlimit (Nat.le_of_not_lt hwraps) htiles
    · rintro ⟨hroom, hwords⟩
      exact ⟨split count limit, if_pos hroom, tiles_split hwords⟩
  · intro hroom hwraps
    rcases split_of_wraps hcount hlimit hwraps with ⟨n, hpieces, hsplit, hstop⟩
    exact ⟨n, hpieces, (if_pos hroom).trans (congrArg some hsplit), hstop⟩

/-- As many positions as there are words but one: spans of one more than the root
of that number tile them, and spans of half of all words do not. -/
theorem exists_tiles_split_iff_all :
    (∃ spans, split? 18446744073709551615 4294967297 = some spans ∧
        Tiles 18446744073709551615 4294967297 spans) ∧
      ∃ n, 18446744073709551615 ⌈/⌉ 9223372036854775808 = n + 1 ∧
        split? 18446744073709551615 9223372036854775808 = some
          ((List.range n).map (fun i => ⟨i * 9223372036854775808, (i + 1) * 9223372036854775808⟩) ++
            [⟨n * 9223372036854775808, (n + 1) * 9223372036854775808 - wordCount⟩]) ∧
        (n + 1) * 9223372036854775808 - wordCount < n * 9223372036854775808 := by
  constructor
  · have hall := @exists_tiles_split_iff 18446744073709551615 4294967297 (by decide) (by decide)
    exact hall.1.mpr ⟨by decide, by decide⟩
  · have hall := @exists_tiles_split_iff 18446744073709551615 9223372036854775808 (by decide)
      (by decide)
    exact hall.2 (by decide) (by decide)

/-- Not all machine words have a split that tiles the request: the second span of
these stops at zero. -/
theorem not_tiles_halves :
    split? 18446744073709551615 9223372036854775808 =
        some [⟨0, 9223372036854775808⟩, ⟨9223372036854775808, 0⟩] ∧
      ¬ ∀ count limit, count < wordCount -> limit < wordCount ->
        splitHasRoom count limit = true ->
          ∃ spans, split? count limit = some spans ∧ Tiles count (max limit 1) spans := by
  have hsplit : split? 18446744073709551615 9223372036854775808 =
      some [⟨0, 9223372036854775808⟩, ⟨9223372036854775808, 0⟩] := by decide
  refine ⟨hsplit, ?_⟩
  intro h
  rcases h 18446744073709551615 9223372036854775808 (by decide) (by decide) (by decide) with
    ⟨spans, hspans, htiles⟩
  rw [hsplit, Option.some.injEq] at hspans
  rw [← hspans] at htiles
  have hordered := htiles.row.ordered_of_mem (List.mem_cons_of_mem _ List.mem_cons_self)
  exact absurd hordered (by decide)

end Split

end Span
end WriteLatch
