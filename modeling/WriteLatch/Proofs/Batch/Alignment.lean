import Mathlib.Data.List.Infix
import WriteLatch.Client
import WriteLatch.Proofs.Store.Replies

/-!
# Positions of a request

A request is cut into pieces, and the outcomes of the pieces are put together
again.  A position of the outcome is a position of one of the pieces, and what
the outcome says there is what that piece was answered about the same key.
-/

namespace WriteLatch
namespace Span

/-!
## Pieces in a row

Past the last machine word the positions start again at zero, and from there on
every piece is empty.  So the pieces in a row are the request, or stop short of
its end.
-/

theorem slice_piece_of_wordCount_le {α : Type} {limit i : Nat} (h : wordCount <= i * limit)
    (xs : List α) : (piece xs.length limit i).slice xs = [] := by
  have hwraps : (i * limit + limit) % wordCount < wordCount := Nat.mod_lt _ (by decide)
  have hsize : (piece xs.length limit i).size = 0 := by
    apply Nat.sub_eq_zero_of_le
    exact Nat.le_trans (Nat.min_le_left _ _) (Nat.le_of_lt (Nat.lt_of_lt_of_le hwraps h))
  rw [slice, hsize, List.take_zero]

theorem take_append_slice_piece {α : Type} {limit i : Nat} (h : (i + 1) * limit < wordCount)
    (xs : List α) :
    xs.take (i * limit) ++ (piece xs.length limit i).slice xs = xs.take ((i + 1) * limit) := by
  have hnext : i * limit + limit = (i + 1) * limit := (Nat.succ_mul i limit).symm
  have hslice : (piece xs.length limit i).slice xs =
      (xs.drop (i * limit)).take (min ((i + 1) * limit) xs.length - i * limit) := by
    rw [slice, size, piece]
    dsimp only
    rw [hnext, Nat.mod_eq_of_lt h]
  have hle : i * limit <= (i + 1) * limit := Nat.mul_le_mul_right limit (Nat.le_succ i)
  rw [hslice, ← List.take_add, List.take_eq_take_iff]
  omega

/-- The first pieces in a row, of a size that is not zero. -/
theorem flatMap_slice_piece {α : Type} (xs : List α) (limit n : Nat) :
    (List.range n).flatMap (fun i => (piece xs.length limit i).slice xs) = xs.take (n * limit) ∨
      (wordCount <= n * limit ∧
        (List.range n).flatMap (fun i => (piece xs.length limit i).slice xs) <+: xs) := by
  induction n with
  | zero => simp
  | succ n ih =>
      rw [List.range_succ, List.flatMap_append, List.flatMap_singleton]
      by_cases hfits : (n + 1) * limit < wordCount
      · left
        have hbefore : ¬ wordCount <= n * limit := by
          have hle : n * limit <= (n + 1) * limit := Nat.mul_le_mul_right limit (Nat.le_succ n)
          omega
        rw [ih.resolve_right fun h => hbefore h.1]
        exact take_append_slice_piece hfits xs
      · right
        refine ⟨Nat.le_of_not_lt hfits, ?_⟩
        rcases ih with htake | ⟨hpast, hprefix⟩
        · rw [htake]
          change xs.take (n * limit) ++ (xs.drop (n * limit)).take _ <+: xs
          rw [← List.take_add]
          exact List.take_prefix _ xs
        · rw [slice_piece_of_wordCount_le hpast, List.append_nil]
          exact hprefix

theorem flatMap_slice_split {α : Type} (xs : List α) (limit : Nat) :
    (split xs.length limit).flatMap (fun span => span.slice xs) <+: xs := by
  rw [split, List.flatMap_map]
  rcases flatMap_slice_piece xs (max limit 1) (pieceCount xs.length limit) with htake | hpast
  · rw [htake]
    exact List.take_prefix _ xs
  · exact hpast.2

theorem length_slice_of_mem_split {α : Type} {xs : List α} {limit : Nat} {span : Span}
    (h : span ∈ split xs.length limit) : (span.slice xs).length = span.size := by
  rcases List.mem_map.mp h with ⟨i, _, heq⟩
  have hstop : span.stop <= xs.length := by
    rw [← heq]
    exact Nat.min_le_right _ _
  rw [slice, List.length_take, List.length_drop, size]
  omega

end Span

namespace Batch

/-!
## Slots of an outcome
-/

/-- What an outcome says position by position. -/
def slotsOfOutcome : Except Slots (List Key) -> List Slot
  | .ok keys => keys.map .ok
  | .error slots => slots.toList

theorem flatMap_slotsOf {pieces : List (Span × CallResult)} {lists : List (List Key)}
    (h : pieces.map Prod.snd = lists.map .ok) :
    pieces.flatMap (fun piece => slotsOf piece.1 piece.2) = lists.flatten.map .ok := by
  induction pieces generalizing lists with
  | nil =>
      cases lists with
      | nil => rfl
      | cons keys lists => cases h
  | cons piece pieces ih =>
      cases lists with
      | nil => cases h
      | cons keys lists =>
          rw [List.map_cons, List.map_cons, List.cons.injEq] at h
          rw [List.flatMap_cons, ih h.2, h.1, List.flatten_cons, List.map_append]
          rfl

theorem allKeys?_eq_some_iff {results : List CallResult} {keys : List Key} :
    allKeys? results = some keys ↔
      ∃ lists : List (List Key), results = lists.map .ok ∧ lists.flatten = keys := by
  have hkeys : keys? = fun result : CallResult => result.toOption := by
    funext result
    cases result <;> rfl
  simp only [allKeys?, hkeys, Option.map_eq_some_iff, mapM_toOption_eq_some_iff]

/-- The slots of the outcome are those of the pieces in a row. -/
theorem slotsOfOutcome_merge (spans : List Span) (results : List CallResult) :
    slotsOfOutcome (merge spans results) =
      (spans.zip results).flatMap fun piece => slotsOf piece.1 (conform piece.1 piece.2) := by
  rw [merge]
  generalize hpieces : (spans.zip results).map (fun piece => (piece.1, conform piece.1 piece.2)) =
    pieces
  have hrow : ((spans.zip results).flatMap fun piece => slotsOf piece.1 (conform piece.1 piece.2)) =
      pieces.flatMap fun piece => slotsOf piece.1 piece.2 := by
    rw [← hpieces, List.flatMap_map]
  rw [hrow]
  cases hall : allKeys? (pieces.map Prod.snd) with
  | none => rfl
  | some keys =>
      rcases allKeys?_eq_some_iff.mp hall with ⟨lists, hlists, hflatten⟩
      rw [flatMap_slotsOf hlists, hflatten]
      rfl

/-- Where a slot of a piece has a key, the piece was answered so. -/
theorem writtenAt?_of_slotsOf_conform {span : Span} {result : CallResult} {i : Nat} {k : Key}
    (h : (slotsOf span (conform span result))[i]? = some (.ok k)) :
    writtenAt? result i = some k := by
  have hslots {result : CallResult} (h : (slotsOf span result)[i]? = some (.ok k)) :
      writtenAt? result i = some k := by
    cases result with
    | ok keys =>
        have hkeys : (keys.map Except.ok)[i]? = some (Except.ok k : Slot) := h
        rw [List.getElem?_map, Option.map_eq_some_iff] at hkeys
        rcases hkeys with ⟨k', hk', heq⟩
        cases heq
        exact hk'
    | error f =>
        cases f with
        | wholesale f => cases List.eq_of_mem_replicate (List.mem_of_getElem? h)
        | positional slots =>
            have hsome : slots.toList[i]? = some (.ok k) := h
            rw [writtenAt?, hsome]
            rfl
  cases hmisfit : misfit? span result with
  | none =>
      rw [conform_of_misfit?_eq_none hmisfit] at h
      exact hslots h
  | some n =>
      rw [conform_of_misfit?_eq_some hmisfit] at h
      have hwritten := hslots h
      rw [writtenAt?_wholesale] at hwritten
      cases hwritten

end Batch

/-!
## Two rows of the same shape
-/

/-- A position in a row of lists is one in one of them.  In another row, whose
lists are as long, it is the same one. -/
theorem exists_getElem?_of_flatMap_zip {α β γ δ : Type} {f : α × β -> List γ} {g : α -> List δ}
    {xs : List α} {ys : List β} {i : Nat} {c : γ}
    (hlength : ∀ x ∈ xs, ∀ y, (f (x, y)).length = (g x).length)
    (h : ((xs.zip ys).flatMap f)[i]? = some c) :
    ∃ (j l : Nat) (x : α) (y : β), xs[j]? = some x ∧ ys[j]? = some y ∧ (f (x, y))[l]? = some c ∧
      (g x)[l]? = (xs.flatMap g)[i]? := by
  induction xs generalizing ys i with
  | nil => cases h
  | cons x xs ih =>
      cases ys with
      | nil => cases h
      | cons y ys =>
          have hfirst := hlength x List.mem_cons_self y
          rw [List.zip_cons_cons, List.flatMap_cons] at h
          rw [List.flatMap_cons]
          by_cases hi : i < (g x).length
          · rw [List.getElem?_append_left (hfirst ▸ hi)] at h
            rw [List.getElem?_append_left hi]
            exact ⟨0, i, x, y, rfl, rfl, h, rfl⟩
          · rw [List.getElem?_append_right (hfirst ▸ Nat.le_of_not_lt hi), hfirst] at h
            rw [List.getElem?_append_right (Nat.le_of_not_lt hi)]
            rcases ih (fun x' hmem => hlength x' (List.mem_cons_of_mem x hmem)) h with
              ⟨j, l, x', y', hx', hy', hc, hg⟩
            exact ⟨j + 1, l, x', y', hx', hy', hc, hg⟩

namespace Client

/-- The key that was written at a position of a request, if one was. -/
def writtenAt? (outcome : Except WriteFailure (List Key)) (i : Nat) : Option Key :=
  match outcome with
  | .ok keys => keys[i]?
  | .error (.positional slots) => slots.toList[i]?.bind Except.toOption
  | .error (.invalid _) => none

theorem writtenAt?_merged (spans : List Span) (ends : List TaskEnd) (i : Nat) :
    writtenAt? (merged spans ends) i =
      (Batch.slotsOfOutcome (Batch.merge spans (ends.map TaskEnd.result)))[i]?.bind
        Except.toOption := by
  rw [merged]
  cases Batch.merge spans (ends.map TaskEnd.result) with
  | error slots => rfl
  | ok keys =>
      have hok : writtenAt? (.ok keys) i = keys[i]? := rfl
      rw [Batch.slotsOfOutcome, List.getElem?_map]
      change keys[i]? = _
      cases keys[i]? with
      | none => rfl
      | some k => rfl

theorem flatMap_keys_pieces (c : Client) (keys : List Key) (values : List Value) :
    (c.pieces keys values).flatMap Piece.keys <+: keys := by
  rw [pieces, List.flatMap_map]
  exact Span.flatMap_slice_split keys c.batchSize

theorem length_keys_of_mem_pieces {c : Client} {keys : List Key} {values : List Value}
    {piece : Piece} (h : piece ∈ c.pieces keys values) : piece.keys.length = piece.span.size := by
  rcases List.mem_map.mp h with ⟨span, hspan, heq⟩
  rw [← heq]
  exact Span.length_slice_of_mem_split hspan

/-- Where a request was written, the piece with that position was. -/
theorem exists_piece_of_writtenAt? {c : Client} {keys : List Key} {values : List Value}
    {ends : List TaskEnd} {i : Nat} {given k : Key} (hgiven : keys[i]? = some given)
    (h : writtenAt? (merged ((c.pieces keys values).map Piece.span) ends) i = some k) :
    ∃ (j l : Nat) (piece : Piece) (e : TaskEnd),
      (c.pieces keys values)[j]? = some piece ∧ ends[j]? = some e ∧
      WriteLatch.writtenAt? e.result l = some k ∧ piece.keys[l]? = some given := by
  rw [writtenAt?_merged, Option.bind_eq_some_iff] at h
  rcases h with ⟨slot, hslot, hk⟩
  rw [Batch.slotsOfOutcome_merge, List.zip_map, List.flatMap_map] at hslot
  have hlength : ∀ piece ∈ c.pieces keys values, ∀ e : TaskEnd,
      (Batch.slotsOf piece.span (Batch.conform piece.span e.result)).length =
        piece.keys.length := by
    intro piece hmem e
    rw [Batch.length_slotsOf_conform, length_keys_of_mem_pieces hmem]
  rcases exists_getElem?_of_flatMap_zip hlength hslot with
    ⟨j, l, piece, e, hpiece, he, hanswered, hkey⟩
  have hlt : l < piece.keys.length := by
    rw [← hlength piece (List.mem_of_getElem? hpiece) e]
    exact (List.getElem?_eq_some_iff.mp hanswered).1
  have hwithin : i < ((c.pieces keys values).flatMap Piece.keys).length :=
    (List.getElem?_eq_some_iff.mp (hkey.symm.trans (List.getElem?_eq_getElem hlt))).1
  have hsame : piece.keys[l]? = some given := by
    rcases c.flatMap_keys_pieces keys values with ⟨rest, hrest⟩
    rw [← hrest, List.getElem?_append_left hwithin] at hgiven
    exact hkey.trans hgiven
  cases slot with
  | error f => cases hk
  | ok k' =>
      cases hk
      exact ⟨j, l, piece, e, hpiece, he, Batch.writtenAt?_of_slotsOf_conform hanswered, hsame⟩

end Client
end WriteLatch
