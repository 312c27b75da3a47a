import Mathlib.Data.List.Nodup
import WriteLatch.Proofs.Batch.Alignment

/-!
# Pieces that cover a request

A list takes up half of all addresses at most, so the positions of a request
stay within the machine words.  Then the pieces in a row are the whole request,
every piece begins where those before it end, and every position lies in one of
them.
-/

namespace WriteLatch
namespace Span

/-- Positions that machine words can hold, with room for the end of a piece. -/
structure IsAddressed (count limit : Nat) : Prop where
  count : 2 * count < wordCount
  limit : limit < wordCount

section Cover

variable {count limit : Nat}

theorem le_pieceCount_mul (count limit : Nat) :
    count <= pieceCount count limit * max limit 1 := by
  have hpos : 0 < max limit 1 := Nat.lt_of_lt_of_le Nat.zero_lt_one (Nat.le_max_right _ _)
  rw [pieceCount]
  have hdiv := Nat.lt_div_mul_add (a := count + max limit 1 - 1) hpos
  omega

/-- A piece starts within the request. -/
theorem mul_lt_of_lt_pieceCount {i : Nat} (hi : i < pieceCount count limit) :
    i * max limit 1 < count := by
  have hpos : 0 < max limit 1 := Nat.lt_of_lt_of_le Nat.zero_lt_one (Nat.le_max_right _ _)
  have hle := (Nat.le_div_iff_mul_le hpos).mp hi
  rw [Nat.succ_mul] at hle
  omega

theorem size_piece_le (count limit i : Nat) : (piece count limit i).size <= limit := by
  have hmod := Nat.mod_le (i * limit + limit) wordCount
  rw [size, piece]
  dsimp only
  omega

theorem IsAddressed.pieceCount_mul_lt (h : IsAddressed count limit) :
    pieceCount count limit * max limit 1 < wordCount := by
  have hwords : 1 < wordCount := by decide
  have hlimit := h.limit
  have hcount := h.count
  cases hpieces : pieceCount count limit with
  | zero => omega
  | succ n =>
      have hlast : n < pieceCount count limit := by
        rw [hpieces]
        exact Nat.lt_succ_self n
      have hstart := mul_lt_of_lt_pieceCount hlast
      rw [Nat.succ_mul]
      cases n with
      | zero => omega
      | succ n =>
          rw [Nat.succ_mul] at hstart ⊢
          omega

theorem piece_eq_of_lt {width i : Nat} (h : (i + 1) * width < wordCount) :
    piece count width i = ⟨i * width, min ((i + 1) * width) count⟩ := by
  rw [Nat.succ_mul] at h ⊢
  rw [piece, Nat.mod_eq_of_lt h]

/-- No end of a piece lies past the last machine word. -/
theorem IsAddressed.piece_eq (h : IsAddressed count limit) {i : Nat}
    (hi : i < pieceCount count limit) :
    piece count (max limit 1) i =
      ⟨i * max limit 1, min (i * max limit 1 + max limit 1) count⟩ := by
  have hnext : (i + 1) * max limit 1 <= pieceCount count limit * max limit 1 :=
    Nat.mul_le_mul_right _ hi
  rw [piece_eq_of_lt (Nat.lt_of_le_of_lt hnext h.pieceCount_mul_lt), Nat.succ_mul]

theorem getElem?_split {i : Nat} {span : Span} (h : (split count limit)[i]? = some span) :
    i < pieceCount count limit ∧ span = piece count (max limit 1) i := by
  have hlt : i < (split count limit).length := (List.getElem?_eq_some_iff.mp h).1
  rw [length_split] at hlt
  rw [split, List.getElem?_map, List.getElem?_range hlt, Option.map_some, Option.some.injEq] at h
  exact ⟨hlt, h.symm⟩

/-- Every position of a request lies in one of its pieces. -/
theorem IsAddressed.exists_span (h : IsAddressed count limit) {i : Nat} (hi : i < count) :
    ∃ (j : Nat) (span : Span), (split count limit)[j]? = some span ∧
      span.start <= i ∧ i < span.stop := by
  have hpos : 0 < max limit 1 := Nat.lt_of_lt_of_le Nat.zero_lt_one (Nat.le_max_right _ _)
  have hpiece : i / max limit 1 < pieceCount count limit := by
    rw [Nat.div_lt_iff_lt_mul hpos]
    exact Nat.lt_of_lt_of_le hi (le_pieceCount_mul count limit)
  have hspan : (split count limit)[i / max limit 1]? =
      some (piece count (max limit 1) (i / max limit 1)) := by
    rw [split, List.getElem?_map, List.getElem?_range hpiece, Option.map_some]
  refine ⟨_, _, hspan, ?_⟩
  rw [h.piece_eq hpiece]
  have hbelow := Nat.div_mul_le_self i (max limit 1)
  have habove := Nat.lt_div_mul_add (a := i) hpos
  dsimp only
  omega

end Cover

/-- No piece of a request is empty. -/
theorem IsAddressed.size_pos {count limit : Nat} (h : IsAddressed count limit) {span : Span}
    (hmem : span ∈ split count limit) : 0 < span.size := by
  rcases List.mem_iff_getElem?.mp hmem with ⟨i, hi⟩
  rcases getElem?_split hi with ⟨hlt, heq⟩
  have hstart := mul_lt_of_lt_pieceCount hlt
  rw [heq, h.piece_eq hlt, size]
  dsimp only
  omega

/-- The pieces in a row are the request. -/
theorem IsAddressed.flatMap_slice_split {α : Type} {xs : List α} {limit : Nat}
    (h : IsAddressed xs.length limit) :
    (split xs.length limit).flatMap (fun span => span.slice xs) = xs := by
  rw [split, List.flatMap_map]
  rcases flatMap_slice_piece xs (max limit 1) (pieceCount xs.length limit) with htake | hpast
  · rw [htake]
    exact List.take_of_length_le (le_pieceCount_mul _ _)
  · exact absurd h.pieceCount_mul_lt (Nat.not_lt.mpr hpast.1)

/-- The pieces before a piece end where it starts. -/
theorem IsAddressed.length_flatMap_take {α : Type} {xs : List α} {limit i : Nat} {span : Span}
    (h : IsAddressed xs.length limit) (hspan : (split xs.length limit)[i]? = some span) :
    (((split xs.length limit).take i).flatMap fun span => span.slice xs).length = span.start := by
  rcases getElem?_split hspan with ⟨hi, heq⟩
  have hstart := mul_lt_of_lt_pieceCount hi
  have hcount := h.count
  rw [split, ← List.map_take, List.take_range, Nat.min_eq_left (Nat.le_of_lt hi), List.flatMap_map,
    heq]
  rcases flatMap_slice_piece xs (max limit 1) i with htake | hpast
  · rw [htake, List.length_take, Nat.min_eq_left (Nat.le_of_lt hstart)]
    rfl
  · omega

end Span

/-!
## A row of lists
-/

/-- A position in one of the lists is a position in the row. -/
theorem getElem?_flatMap_add {α γ : Type} {f : α -> List γ} {xs : List α} {j : Nat} {x : α}
    (hx : xs[j]? = some x) {l : Nat} (hl : l < (f x).length) :
    (xs.flatMap f)[((xs.take j).flatMap f).length + l]? = (f x)[l]? := by
  induction xs generalizing j with
  | nil => cases hx
  | cons first xs ih =>
      cases j with
      | zero =>
          rw [List.getElem?_cons_zero, Option.some.injEq] at hx
          rw [List.take_zero, List.flatMap_nil, List.length_nil, Nat.zero_add, List.flatMap_cons,
            hx, List.getElem?_append_left hl]
      | succ j =>
          rw [List.getElem?_cons_succ] at hx
          rw [List.take_succ_cons, List.flatMap_cons, List.flatMap_cons, List.length_append,
            Nat.add_assoc, List.getElem?_append_right (Nat.le_add_right _ _),
            Nat.add_sub_cancel_left]
          exact ih hx

/-- Two rows whose lists are as long are as long. -/
theorem length_flatMap_zip {α β γ δ : Type} {f : α × β -> List γ} {g : α -> List δ}
    {xs : List α} {ys : List β} (hsame : xs.length = ys.length)
    (hlength : ∀ x ∈ xs, ∀ y, (f (x, y)).length = (g x).length) :
    ((xs.zip ys).flatMap f).length = (xs.flatMap g).length := by
  induction xs generalizing ys with
  | nil => rfl
  | cons x xs ih =>
      cases ys with
      | nil => cases hsame
      | cons y ys =>
          have hrest := ih (Nat.succ.inj hsame) fun x' hmem => hlength x' (List.mem_cons_of_mem x hmem)
          rw [List.zip_cons_cons, List.flatMap_cons, List.flatMap_cons, List.length_append,
            List.length_append, hlength x List.mem_cons_self y, hrest]

theorem flatMap_range {α β : Type} {xs : List α} {f : α -> List β} {g : Nat -> List β}
    (h : ∀ i x, xs[i]? = some x -> g i = f x) :
    (List.range xs.length).flatMap g = xs.flatMap f := by
  induction xs generalizing g with
  | nil => rfl
  | cons x xs ih =>
      rw [List.length_cons, List.range_succ_eq_map, List.flatMap_cons, List.flatMap_map,
        List.flatMap_cons, h 0 x rfl, ih fun i y hy => h (i + 1) y hy]

theorem zip_flatMap {α β γ : Type} {f : α -> List β} {g : α -> List γ} {xs : List α}
    (h : ∀ x ∈ xs, (f x).length = (g x).length) :
    (xs.flatMap f).zip (xs.flatMap g) = xs.flatMap fun x => (f x).zip (g x) := by
  induction xs with
  | nil => rfl
  | cons x xs ih =>
      rw [List.flatMap_cons, List.flatMap_cons, List.flatMap_cons,
        List.zip_append (h x List.mem_cons_self),
        ih fun other hmem => h other (List.mem_cons_of_mem x hmem)]

/-!
## The pieces of a client
-/

namespace Client

variable {c : Client} {keys : List Key} {values : List Value}

theorem flatMap_keys_pieces_eq (h : Span.IsAddressed keys.length c.batchSize) :
    (c.pieces keys values).flatMap Piece.keys = keys := by
  rw [pieces, List.flatMap_map]
  exact h.flatMap_slice_split

theorem flatMap_values_pieces_eq (h : Span.IsAddressed keys.length c.batchSize)
    (hlength : keys.length = values.length) :
    (c.pieces keys values).flatMap Piece.values = values := by
  rw [pieces, List.flatMap_map, hlength]
  rw [hlength] at h
  exact h.flatMap_slice_split

theorem length_values_of_mem_pieces {piece : Piece} (hlength : keys.length = values.length)
    (h : piece ∈ c.pieces keys values) : piece.values.length = piece.span.size := by
  rw [pieces, hlength] at h
  rcases List.mem_map.mp h with ⟨span, hspan, heq⟩
  rw [← heq]
  exact Span.length_slice_of_mem_split hspan

/-- A piece has as many values as keys. -/
theorem length_keys_eq_of_mem_pieces {piece : Piece} (hlength : keys.length = values.length)
    (h : piece ∈ c.pieces keys values) : piece.keys.length = piece.values.length := by
  rw [length_keys_of_mem_pieces h, length_values_of_mem_pieces hlength h]

/-- The pieces pair keys with values as the request does. -/
theorem flatMap_zip_pieces_eq (h : Span.IsAddressed keys.length c.batchSize)
    (hlength : keys.length = values.length) :
    (c.pieces keys values).flatMap (fun piece => piece.keys.zip piece.values) =
      keys.zip values := by
  rw [← zip_flatMap fun piece hmem => length_keys_eq_of_mem_pieces hlength hmem,
    flatMap_keys_pieces_eq h, flatMap_values_pieces_eq h hlength]

theorem map_span_pieces (c : Client) (keys : List Key) (values : List Value) :
    (c.pieces keys values).map Piece.span = Span.split keys.length c.batchSize := by
  rw [pieces, List.map_map]
  exact List.map_id _

theorem getElem?_map_span_pieces {j : Nat} {piece : Piece}
    (h : (c.pieces keys values)[j]? = some piece) :
    (Span.split keys.length c.batchSize)[j]? = some piece.span ∧
      piece = ⟨piece.span, piece.span.slice keys, piece.span.slice values⟩ := by
  rw [pieces, List.getElem?_map, Option.map_eq_some_iff] at h
  rcases h with ⟨span, hspan, heq⟩
  rw [← heq]
  exact ⟨hspan, rfl⟩

/-- No piece has more keys than a call may have. -/
theorem length_keys_le_of_mem_pieces {piece : Piece} (h : piece ∈ c.pieces keys values) :
    piece.keys.length <= max c.batchSize 1 := by
  rw [length_keys_of_mem_pieces h]
  rcases List.mem_map.mp h with ⟨span, hspan, heq⟩
  rcases List.mem_map.mp hspan with ⟨i, _, hpiece⟩
  rw [← heq, ← hpiece]
  exact Span.size_piece_le _ _ i

/-- Every piece has a key of the request. -/
theorem exists_mem_of_mem_pieces (h : Span.IsAddressed keys.length c.batchSize) {piece : Piece}
    (hmem : piece ∈ c.pieces keys values) : ∃ k ∈ piece.keys, k ∈ keys := by
  have hall : (c.pieces keys values).flatMap Piece.keys = keys := flatMap_keys_pieces_eq h
  have hspan : piece.span ∈ Span.split keys.length c.batchSize := by
    rw [← map_span_pieces c keys values]
    exact List.mem_map_of_mem hmem
  have hpos : 0 < piece.keys.length := by
    rw [length_keys_of_mem_pieces hmem]
    exact h.size_pos hspan
  rcases List.exists_mem_of_length_pos hpos with ⟨k, hk⟩
  refine ⟨k, hk, ?_⟩
  rw [← hall]
  exact List.mem_flatMap_of_mem hmem hk

/-- Distinct keys stand in one piece each. -/
theorem not_mem_of_mem_other_piece (h : Span.IsAddressed keys.length c.batchSize)
    (hnodup : keys.Nodup) {i j : Nat} {a b : Piece} (ha : (c.pieces keys values)[i]? = some a)
    (hb : (c.pieces keys values)[j]? = some b) (hij : i ≠ j) {k : Key} (hk : k ∈ a.keys) :
    k ∉ b.keys := by
  have hall : (c.pieces keys values).flatMap Piece.keys = keys := flatMap_keys_pieces_eq h
  rw [← hall, List.nodup_flatMap] at hnodup
  have hpairs := List.pairwise_iff_getElem.mp hnodup.2
  rcases List.getElem?_eq_some_iff.mp ha with ⟨hi, hgeta⟩
  rcases List.getElem?_eq_some_iff.mp hb with ⟨hj, hgetb⟩
  intro hmem
  rcases Nat.lt_or_gt_of_ne hij with hlt | hgt
  · have hapart := hpairs i j hi hj hlt
    rw [hgeta, hgetb] at hapart
    exact hapart hk hmem
  · have hapart := hpairs j i hj hi hgt
    rw [hgeta, hgetb] at hapart
    exact hapart hmem hk

end Client
end WriteLatch
