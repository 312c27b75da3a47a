import WriteLatch.Proofs.Batch.Cover
import WriteLatch.Proofs.Interleaving.Returns

/-!
# The outcome of a request

What becomes of a request depends on what its pieces come to, piece by piece,
and on nothing else: in which order they take turns and end does not matter.
There is one outcome for every position of the request, and what is done to one
piece does not show at the positions of another.
-/

namespace WriteLatch

namespace Batch

/-!
## Pieces that were written
-/

theorem eq_ok_of_conform {span : Span} {result : CallResult} {keys : List Key}
    (h : conform span result = .ok keys) : result = .ok keys ∧ keys.length = span.size := by
  cases hmisfit : misfit? span result with
  | some n =>
      rw [conform_of_misfit?_eq_some hmisfit] at h
      cases h
  | none =>
      rw [conform_of_misfit?_eq_none hmisfit] at h
      rw [h] at hmisfit
      exact ⟨h, (misfit?_eq_none_iff span _).mp hmisfit keys.length rfl⟩

/-- A request is written only if every piece of it is. -/
theorem eq_ok_of_merge {spans : List Span} {results : List CallResult} {keys : List Key}
    (h : merge spans results = .ok keys) {j : Nat} {span : Span} {result : CallResult}
    (hspan : spans[j]? = some span) (hresult : results[j]? = some result) :
    ∃ written, result = .ok written ∧ written.length = span.size := by
  rw [merge, List.map_map] at h
  cases hall : allKeys? ((spans.zip results).map (Prod.snd ∘ fun piece =>
      (piece.1, conform piece.1 piece.2))) with
  | none =>
      rw [hall] at h
      cases h
  | some all =>
      rcases allKeys?_eq_some_iff.mp hall with ⟨lists, hlists, _⟩
      have hpiece := congrArg (fun results => results[j]?) hlists
      have hzip : (spans.zip results)[j]? = some (span, result) :=
        List.getElem?_zip_eq_some.mpr ⟨hspan, hresult⟩
      simp only [List.getElem?_map, hzip, Option.map_some, Function.comp_apply] at hpiece
      rcases Option.map_eq_some_iff.mp hpiece.symm with ⟨written, _, heq⟩
      exact ⟨written, eq_ok_of_conform heq.symm⟩

end Batch

namespace Client

/-!
## Slots of the outcome
-/

/-- What an outcome says position by position. -/
def slotsOf : Except WriteFailure (List Key) -> List Slot
  | .ok keys => keys.map .ok
  | .error (.positional slots) => slots.toList
  | .error (.invalid _) => []

theorem slotsOf_merged (spans : List Span) (ends : List TaskEnd) :
    slotsOf (merged spans ends) =
      (spans.zip ends).flatMap fun piece =>
        Batch.slotsOf piece.1 (Batch.conform piece.1 piece.2.result) := by
  have hslots : slotsOf (merged spans ends) =
      Batch.slotsOfOutcome (Batch.merge spans (ends.map TaskEnd.result)) := by
    rw [merged]
    cases Batch.merge spans (ends.map TaskEnd.result) <;> rfl
  rw [hslots, Batch.slotsOfOutcome_merge, List.zip_map_right, List.flatMap_map]
  rfl

/-- A request that was not invalid comes to keys or to slots, of the same
number. -/
theorem merged_eq (spans : List Span) (ends : List TaskEnd) :
    (∃ written, merged spans ends = .ok written ∧
        written.length = (slotsOf (merged spans ends)).length) ∨
      ∃ slots, merged spans ends = .error (.positional slots) ∧
        slots.size = (slotsOf (merged spans ends)).length := by
  rw [merged]
  cases Batch.merge spans (ends.map TaskEnd.result) with
  | ok written => exact Or.inl ⟨written, rfl, (List.length_map _).symm⟩
  | error slots => exact Or.inr ⟨slots, rfl, rfl⟩

variable {c : Client} {keys : List Key} {values : List Value} {ends : List TaskEnd}

theorem length_slotsOf_outcomeOf (haddressed : Span.IsAddressed keys.length c.batchSize)
    (hends : ends.length = (c.pieces keys values).length) :
    (slotsOf (c.outcomeOf keys values ends)).length = keys.length := by
  have hlength : ∀ piece ∈ c.pieces keys values, ∀ e : TaskEnd,
      (Batch.slotsOf piece.span (Batch.conform piece.span e.result)).length =
        piece.keys.length := by
    intro piece hmem e
    rw [Batch.length_slotsOf_conform, length_keys_of_mem_pieces hmem]
  rw [outcomeOf, slotsOf_merged, List.zip_map_left, List.flatMap_map,
    length_flatMap_zip hends.symm hlength, flatMap_keys_pieces_eq haddressed]

/-- The outcome at the positions of a piece is what the piece has come to. -/
theorem getElem?_slotsOf_outcomeOf (haddressed : Span.IsAddressed keys.length c.batchSize)
    (hends : ends.length = (c.pieces keys values).length) {j : Nat} {piece : Piece} {e : TaskEnd}
    (hpiece : (c.pieces keys values)[j]? = some piece) (he : ends[j]? = some e) {i : Nat}
    (hstart : piece.span.start <= i) (hstop : i < piece.span.stop) :
    (slotsOf (c.outcomeOf keys values ends))[i]? =
      (Batch.slotsOf piece.span (Batch.conform piece.span e.result))[i - piece.span.start]? := by
  have hspan := (getElem?_map_span_pieces hpiece).1
  have hzip : (((c.pieces keys values).map Piece.span).zip ends)[j]? = some (piece.span, e) := by
    rw [List.getElem?_zip_eq_some, List.getElem?_map, hpiece]
    exact ⟨rfl, he⟩
  have hbefore : ((((c.pieces keys values).map Piece.span).zip ends).take j |>.flatMap
      fun piece => Batch.slotsOf piece.1 (Batch.conform piece.1 piece.2.result)).length =
        piece.span.start := by
    have hsame : ((Span.split keys.length c.batchSize).take j).length = (ends.take j).length := by
      rw [List.length_take, List.length_take, hends, length_pieces]
    have hlength : ∀ span ∈ (Span.split keys.length c.batchSize).take j, ∀ e : TaskEnd,
        (Batch.slotsOf span (Batch.conform span e.result)).length = (span.slice keys).length := by
      intro span hmem e
      rw [Batch.length_slotsOf_conform, Span.length_slice_of_mem_split (List.mem_of_mem_take hmem)]
    have htake : ((Span.split keys.length c.batchSize).zip ends).take j =
        ((Span.split keys.length c.batchSize).take j).zip (ends.take j) := List.take_zipWith
    rw [map_span_pieces, htake, length_flatMap_zip hsame hlength, haddressed.length_flatMap_take hspan]
  have hwithin : i - piece.span.start <
      (Batch.slotsOf piece.span (Batch.conform piece.span e.result)).length := by
    rw [Batch.length_slotsOf_conform, Span.size]
    omega
  have hat := getElem?_flatMap_add (f := fun piece : Span × TaskEnd =>
    Batch.slotsOf piece.1 (Batch.conform piece.1 piece.2.result)) hzip hwithin
  rw [hbefore, Nat.add_sub_cancel' hstart] at hat
  rw [outcomeOf, slotsOf_merged]
  exact hat

/-- Two requests whose ends differ at one piece only come to the same at the
positions of the others. -/
theorem getElem?_slotsOf_outcomeOf_congr {others : List TaskEnd}
    (haddressed : Span.IsAddressed keys.length c.batchSize)
    (hends : ends.length = (c.pieces keys values).length)
    (hothers : others.length = (c.pieces keys values).length) {j : Nat} {piece : Piece}
    (hsame : ∀ j', j' ≠ j -> others[j']? = ends[j']?)
    (hpiece : (c.pieces keys values)[j]? = some piece) {i : Nat}
    (hi : ¬ (piece.span.start <= i ∧ i < piece.span.stop)) :
    (slotsOf (c.outcomeOf keys values others))[i]? =
      (slotsOf (c.outcomeOf keys values ends))[i]? := by
  by_cases hlt : i < keys.length
  · rcases haddressed.exists_span hlt with ⟨j', span, hspan, hstart, hstop⟩
    have hother : (c.pieces keys values)[j']? =
        some ⟨span, span.slice keys, span.slice values⟩ := by
      rw [pieces, List.getElem?_map, hspan, Option.map_some]
    have hne : j' ≠ j := by
      intro heq
      rw [heq, hpiece, Option.some.injEq] at hother
      rw [hother] at hi
      exact hi ⟨hstart, hstop⟩
    have hlast : j' < ends.length := by
      rw [hends]
      exact (List.getElem?_eq_some_iff.mp hother).1
    have he : ends[j']? = some ends[j'] := List.getElem?_eq_getElem hlast
    rw [getElem?_slotsOf_outcomeOf haddressed hends hother he hstart hstop,
      getElem?_slotsOf_outcomeOf haddressed hothers hother ((hsame j' hne).trans he) hstart hstop]
  · rw [List.getElem?_eq_none, List.getElem?_eq_none]
    · rw [length_slotsOf_outcomeOf haddressed hends]
      exact Nat.le_of_not_lt hlt
    · rw [length_slotsOf_outcomeOf haddressed hothers]
      exact Nat.le_of_not_lt hlt

/-- There is one outcome for every position, whatever the pieces of the request
come to. -/
structure GivesOneEach (c : Client) (keys : List Key) (values : List Value)
    (ends : List TaskEnd) : Prop where
  shape :
    (∃ written, c.outcomeOf keys values ends = .ok written ∧ written.length = keys.length) ∨
      ∃ slots, c.outcomeOf keys values ends = .error (.positional slots) ∧
        slots.size = keys.length
  written : ∀ written, c.outcomeOf keys values ends = .ok written ->
    ∀ (j : Nat) (piece : Piece), (c.pieces keys values)[j]? = some piece ->
      ∃ ks, ends[j]? = some (.finished (.ok ks)) ∧ ks.length = piece.keys.length
  /-- What one piece comes to does not show outside of its span. -/
  isolated : ∀ (others : List TaskEnd) (j : Nat) (piece : Piece),
    others.length = ends.length -> (∀ j', j' ≠ j -> others[j']? = ends[j']?) ->
      (c.pieces keys values)[j]? = some piece ->
        ∀ i, ¬ (piece.span.start <= i ∧ i < piece.span.stop) ->
          (slotsOf (c.outcomeOf keys values others))[i]? =
            (slotsOf (c.outcomeOf keys values ends))[i]?
  crashed : ∀ (j : Nat) (piece : Piece) (message : String),
    (c.pieces keys values)[j]? = some piece -> ends[j]? = some (.crashed message) ->
      ∀ i, piece.span.start <= i -> i < piece.span.stop ->
        (slotsOf (c.outcomeOf keys values ends))[i]? = some (.error (Failure.ofCrash message))

theorem givesOneEach (haddressed : Span.IsAddressed keys.length c.batchSize)
    (hends : ends.length = (c.pieces keys values).length) : c.GivesOneEach keys values ends where
  shape := by
    have hlength := length_slotsOf_outcomeOf haddressed hends
    rw [← hlength]
    exact merged_eq _ _
  written := by
    intro written hwritten j piece hpiece
    have hmerged : Batch.merge ((c.pieces keys values).map Piece.span)
        (ends.map TaskEnd.result) = .ok written := by
      rw [outcomeOf, merged] at hwritten
      cases hmerge : Batch.merge ((c.pieces keys values).map Piece.span)
          (ends.map TaskEnd.result) with
      | ok keys =>
          rw [hmerge] at hwritten
          cases hwritten
          rfl
      | error slots =>
          rw [hmerge] at hwritten
          cases hwritten
    have hlt : j < ends.length := by
      rw [hends]
      exact (List.getElem?_eq_some_iff.mp hpiece).1
    have hspan : ((c.pieces keys values).map Piece.span)[j]? = some piece.span := by
      rw [List.getElem?_map, hpiece, Option.map_some]
    have hresult : (ends.map TaskEnd.result)[j]? = some ends[j].result := by
      rw [List.getElem?_map, List.getElem?_eq_getElem hlt, Option.map_some]
    rcases Batch.eq_ok_of_merge hmerged hspan hresult with ⟨ks, hok, hlength⟩
    rw [← length_keys_of_mem_pieces (List.mem_of_getElem? hpiece)] at hlength
    refine ⟨ks, ?_, hlength⟩
    rw [List.getElem?_eq_getElem hlt]
    cases he : ends[j] with
    | finished result =>
        rw [he] at hok
        rw [show result = .ok ks from hok]
    | crashed message =>
        rw [he] at hok
        cases hok
  isolated := by
    intro others j piece hothers hsame hpiece i hi
    exact getElem?_slotsOf_outcomeOf_congr haddressed hends (hothers.trans hends) hsame hpiece hi
  crashed := by
    intro j piece message hpiece he i hstart hstop
    have hwithin : i - piece.span.start < piece.span.size := by
      rw [Span.size]
      omega
    rw [getElem?_slotsOf_outcomeOf haddressed hends hpiece he hstart hstop]
    change (List.replicate piece.span.size (Except.error (Failure.ofCrash message)))[_]? = _
    rw [List.getElem?_replicate, if_pos hwithin]

end Client

namespace Simulation
namespace World

/-!
## Any interleaving
-/

/-- Where all of a request was written, every transaction has finished with keys. -/
theorem endAt?_of_written {client : Client} {keys : List Key} {values : List Value} {w : World}
    {written : List Key} (haddressed : Span.IsAddressed keys.length client.batchSize)
    (hwriters : w.writers.length = (client.pieces keys values).length)
    (hwritten : w.outcome? client keys values = some (.ok written)) {j : Nat}
    {piece : Client.Piece} (hpiece : (client.pieces keys values)[j]? = some piece) :
    ∃ ks, w.endAt? j = some (.finished (.ok ks)) ∧ ks.length = piece.keys.length := by
  rcases Option.map_eq_some_iff.mp hwritten with ⟨ends, hends, houtcome⟩
  have hlength := congrArg List.length (mapM_eq_some_iff.mp hends)
  rw [List.length_map, List.length_map, hwriters] at hlength
  have hgives : client.GivesOneEach keys values ends :=
    Client.givesOneEach haddressed hlength.symm
  rcases hgives.written written houtcome j piece hpiece with ⟨ks, he, hks⟩
  exact ⟨ks, (endAt?_of_ends? hends j).trans he, hks⟩

end World
end Simulation
end WriteLatch
