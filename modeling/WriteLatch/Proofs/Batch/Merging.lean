import WriteLatch.Proofs.Batch.Faultless
import WriteLatch.Proofs.Batch.Tiling

/-!
# Where a merged outcome has its slots

The outcomes of the pieces are strung together, so a slot stands where it should
only if everything before it has the length that it should have.  An answer of
the wrong length is turned into a failure for each key of its piece first, so
that every piece takes up the positions of its span.
-/

namespace WriteLatch

/-!
## Failures of a row of slots
-/

namespace Slots

theorem failedCount_flatMap {α : Type} (xs : List α) (f : α -> List Slot) :
    (Slots.mk (xs.flatMap f)).failedCount =
      (xs.map fun x => (Slots.mk (f x)).failedCount).sum :=
  List.countP_flatMap

theorem mem_failures_iff {slots : Slots} {i : Nat} {f : Failure} :
    (i, f) ∈ slots.failures ↔ slots.failureAt? i = some f := by
  rw [failures, List.mem_filterMap, failureAt?, Option.bind_eq_some_iff]
  constructor
  · rintro ⟨⟨slot, n⟩, hmem, hslot⟩
    rcases Option.map_eq_some_iff.mp hslot with ⟨f', hf, heq⟩
    cases heq
    exact ⟨slot, List.mem_zipIdx_iff_getElem?.mp hmem, hf⟩
  · rintro ⟨slot, hslot, hf⟩
    refine ⟨(slot, i), List.mem_zipIdx_iff_getElem?.mpr hslot, ?_⟩
    rw [hf]
    rfl

/-- Failures are listed from the first position to the last. -/
theorem pairwise_failures (slots : Slots) :
    (slots.failures.map Prod.fst).Pairwise (· < ·) := by
  have hpositions : slots.toList.zipIdx.Pairwise fun a b => a.2 < b.2 := by
    rw [← List.pairwise_map, List.zipIdx_map_snd]
    exact List.pairwise_lt_range'
  rw [failures, List.pairwise_map]
  refine hpositions.filterMap _ ?_
  rintro ⟨slot, i⟩ ⟨slot', i'⟩ hlt ⟨n, f⟩ hf ⟨n', f'⟩ hf'
  rcases Option.map_eq_some_iff.mp hf with ⟨_, _, heq⟩
  rcases Option.map_eq_some_iff.mp hf' with ⟨_, _, heq'⟩
  cases heq
  cases heq'
  exact hlt

end Slots

namespace Batch

/-!
## What a piece says of its positions
-/

/-- The outcome at a position of a piece. -/
def slotIn? (result : CallResult) (p : Nat) : Option Slot :=
  match result with
  | .ok keys => keys[p]?.map .ok
  | .error (.positional slots) => slots.toList[p]?
  | .error (.wholesale f) => some (.error f)

def failureIn? (result : CallResult) (p : Nat) : Option Failure :=
  match result with
  | .ok _ => none
  | .error (.positional slots) => slots.failureAt? p
  | .error (.wholesale f) => some f

/-- How many keys of a piece have failed. -/
def failedIn (span : Span) : CallResult -> Nat
  | .ok _ => 0
  | .error (.positional slots) => slots.failedCount
  | .error (.wholesale _) => span.size

def conformed (spans : List Span) (results : List CallResult) : List CallResult :=
  List.zipWith conform spans results

/-- An answer for another number of keys than the piece has is a failure of all
of them, and any other answer stays as it is. -/
structure Conforms (span : Span) (result fitted : CallResult) : Prop where
  kept : (∀ n, answered? result = some n -> n = span.size) -> fitted = result
  replaced : ∀ n, answered? result = some n -> n ≠ span.size ->
    fitted = .error (.wholesale (misfitFailure n span.size))

/-- Slots that say of every position what the result of its piece says. -/
structure LaysOut (spans : List Span) (results : List CallResult) (stop : Nat)
    (slots : Slots) : Prop where
  size : slots.size = stop
  covered : ∀ i < stop, ∃ (j : Nat) (span : Span),
    spans[j]? = some span ∧ span.start <= i ∧ i < span.stop
  slotAt : ∀ (j : Nat) (span : Span) (result : CallResult), spans[j]? = some span ->
    results[j]? = some result ->
      ∀ p < span.size, slots.toList[span.start + p]? = slotIn? result p
  failureAt : ∀ (j : Nat) (span : Span) (result : CallResult), spans[j]? = some span ->
    results[j]? = some result ->
      ∀ p < span.size, slots.failureAt? (span.start + p) = failureIn? result p
  failures : ∀ (i : Nat) (f : Failure), (i, f) ∈ slots.failures ↔ slots.failureAt? i = some f
  ordered : (slots.failures.map Prod.fst).Pairwise (· < ·)
  failedCount : slots.failedCount = (List.zipWith failedIn spans results).sum

theorem conforms_conform (span : Span) (result : CallResult) :
    Conforms span result (conform span result) where
  kept := by
    intro hfits
    exact conform_of_misfit?_eq_none ((misfit?_eq_none_iff span result).mpr hfits)
  replaced := by
    intro n hn hne
    apply conform_of_misfit?_eq_some
    rw [misfit?, hn]
    simp [hne]

theorem getElem?_slotsOf {span : Span} (result : CallResult) {p : Nat} (hp : p < span.size) :
    (slotsOf span result)[p]? = slotIn? result p := by
  cases result with
  | ok keys => exact List.getElem?_map
  | error failure =>
      cases failure with
      | positional slots => rfl
      | wholesale f => exact List.getElem?_replicate_of_lt hp

theorem bind_failure?_slotIn? (result : CallResult) (p : Nat) :
    (slotIn? result p).bind Slot.failure? = failureIn? result p := by
  cases result with
  | ok keys =>
      rw [slotIn?, Option.bind_map]
      cases keys[p]? <;> rfl
  | error failure => cases failure <;> rfl

theorem failedCount_slotsOf (span : Span) (result : CallResult) :
    (Slots.mk (slotsOf span result)).failedCount = failedIn span result := by
  cases result with
  | ok keys => exact Slots.failedCount_keys keys
  | error failure =>
      cases failure with
      | positional slots => rfl
      | wholesale f => exact Slots.failedCount_replicate span.size f

/-!
## Pieces in a row
-/

section Row

variable {spans : List Span} {results : List CallResult}

theorem map_conform_zip (spans : List Span) (results : List CallResult) :
    ((spans.zip results).map fun piece => (piece.1, conform piece.1 piece.2)).map Prod.snd =
      conformed spans results := by
  rw [List.map_map, conformed, ← List.map_uncurry_zip_eq_zipWith]
  rfl

theorem merge_of_conformed {lists : List (List Key)}
    (h : conformed spans results = lists.map .ok) : merge spans results = .ok lists.flatten := by
  have hall : allKeys? (conformed spans results) = some lists.flatten :=
    allKeys?_eq_some_iff.mpr ⟨lists, h, rfl⟩
  rw [merge, map_conform_zip, hall]

theorem exists_merge_eq_error
    (h : ¬ ∃ lists : List (List Key), conformed spans results = lists.map .ok) :
    ∃ slots, merge spans results = .error slots := by
  have hall : allKeys? (conformed spans results) = none := by
    rw [Option.eq_none_iff_forall_ne_some]
    intro keys hkeys
    rcases allKeys?_eq_some_iff.mp hkeys with ⟨lists, hlists, _⟩
    exact h ⟨lists, hlists⟩
  rw [merge, map_conform_zip, hall]
  exact ⟨_, rfl⟩

theorem map_size_zip (hlength : results.length = spans.length) :
    (spans.zip results).map (fun piece => piece.1.size) = spans.map Span.size := by
  calc (spans.zip results).map (fun piece => piece.1.size)
      = ((spans.zip results).map Prod.fst).map Span.size := by
        rw [List.map_map]
        rfl
    _ = spans.map Span.size := by rw [List.map_fst_zip (Nat.le_of_eq hlength.symm)]

theorem sum_length_slotsOf_conform (hlength : results.length = spans.length) :
    ((spans.zip results).flatMap fun piece =>
      slotsOf piece.1 (conform piece.1 piece.2)).length = (spans.map Span.size).sum := by
  rw [List.length_flatMap, ← map_size_zip hlength]
  exact congrArg List.sum (List.map_congr_left fun piece _ =>
    length_slotsOf_conform piece.1 piece.2)

variable {stop : Nat}

theorem length_slotsOfOutcome_merge (hrow : Span.InRow 0 spans stop)
    (hlength : results.length = spans.length) :
    (slotsOfOutcome (merge spans results)).length = stop := by
  rw [slotsOfOutcome_merge, sum_length_slotsOf_conform hlength, ← hrow.start_add_sum, Nat.zero_add]

/-- What a piece says of a position stands where its span has that position. -/
theorem getElem?_slotsOfOutcome_merge (hrow : Span.InRow 0 spans stop)
    (hlength : results.length = spans.length) {j p : Nat} {span : Span} {result : CallResult}
    (hspan : spans[j]? = some span) (hresult : results[j]? = some result) (hp : p < span.size) :
    (slotsOfOutcome (merge spans results))[span.start + p]? =
      slotIn? (conform span result) p := by
  have hzip : (spans.zip results)[j]? = some (span, result) :=
    List.getElem?_zip_eq_some.mpr ⟨hspan, hresult⟩
  have hbefore : (((spans.zip results).take j).flatMap fun piece =>
      slotsOf piece.1 (conform piece.1 piece.2)).length = span.start := by
    have htake : (spans.zip results).take j = (spans.take j).zip (results.take j) :=
      List.take_zipWith
    have hsame : (results.take j).length = (spans.take j).length := by
      rw [List.length_take, List.length_take, hlength]
    rw [htake, sum_length_slotsOf_conform hsame, ← hrow.start_add_sum_take hspan, Nat.zero_add]
  have hwithin : p < (slotsOf span (conform span result)).length := by
    rw [length_slotsOf_conform]
    exact hp
  have hat := getElem?_flatMap_add (f := fun piece : Span × CallResult =>
    slotsOf piece.1 (conform piece.1 piece.2)) hzip hwithin
  rw [hbefore] at hat
  rw [slotsOfOutcome_merge, hat, getElem?_slotsOf _ hp]

theorem failedCount_slotsOfOutcome_merge (spans : List Span) (results : List CallResult) :
    (Slots.mk (slotsOfOutcome (merge spans results))).failedCount =
      (List.zipWith failedIn spans (conformed spans results)).sum := by
  have hpieces : List.zipWith failedIn spans (conformed spans results) =
      (spans.zip results).map fun piece => failedIn piece.1 (conform piece.1 piece.2) := by
    induction spans generalizing results with
    | nil => rfl
    | cons span spans ih =>
        cases results with
        | nil => rfl
        | cons result results => exact congrArg (_ :: ·) (ih results)
  rw [slotsOfOutcome_merge, Slots.failedCount_flatMap, hpieces]
  simp only [failedCount_slotsOf]

theorem laysOut_of_merge (hrow : Span.InRow 0 spans stop)
    (hlength : results.length = spans.length) {slots : Slots}
    (h : merge spans results = .error slots) :
    LaysOut spans (conformed spans results) stop slots := by
  have houtcome : slotsOfOutcome (merge spans results) = slots.toList := by
    rw [h]
    rfl
  have hslot : ∀ (j : Nat) (span : Span) (fitted : CallResult), spans[j]? = some span ->
      (conformed spans results)[j]? = some fitted ->
        ∀ p < span.size, slots.toList[span.start + p]? = slotIn? fitted p := by
    intro j span fitted hspan hfitted p hp
    rcases List.getElem?_zipWith_eq_some.mp hfitted with ⟨span', result, hspan', hresult, heq⟩
    rw [hspan, Option.some.injEq] at hspan'
    rw [← heq, ← houtcome, ← hspan']
    exact getElem?_slotsOfOutcome_merge hrow hlength hspan hresult hp
  constructor
  case size =>
    rw [Slots.size, ← houtcome]
    exact length_slotsOfOutcome_merge hrow hlength
  case covered => exact fun i hi => hrow.exists_span (Nat.zero_le i) hi
  case slotAt => exact hslot
  case failureAt =>
    intro j span fitted hspan hfitted p hp
    rw [Slots.failureAt?, hslot j span fitted hspan hfitted p hp, bind_failure?_slotIn?]
  case failures => exact fun i f => Slots.mem_failures_iff
  case ordered => exact slots.pairwise_failures
  case failedCount =>
    rw [← failedCount_slotsOfOutcome_merge, houtcome]

theorem mergeHasRoom_eq (hrow : Span.InRow 0 spans stop)
    (hlength : results.length = spans.length) :
    mergeHasRoom spans results = Span.hasRoom stop 80 := by
  have hsizes : ((spans.zip results).map fun piece => piece.1.size).foldr (· + ·) 0 = stop := by
    rw [map_size_zip hlength, ← List.sum_eq_foldr, ← hrow.start_add_sum, Nat.zero_add]
  rw [mergeHasRoom, hrow.getLast?_stop, hsizes, Bool.and_self]

/-- Results of pieces that follow one another from the start come to keys in a
row, one for every position, if all pieces were written.  Otherwise they come to
slots that say of every position what the result of its piece says. -/
theorem merge_lays_out (hrow : Span.InRow 0 spans stop)
    (hlength : results.length = spans.length) :
    (∀ (j : Nat) (span : Span) (result : CallResult), spans[j]? = some span ->
      results[j]? = some result ->
        ∃ fitted, (conformed spans results)[j]? = some fitted ∧ Conforms span result fitted) ∧
    (∀ lists : List (List Key), conformed spans results = lists.map .ok ->
      merge spans results = .ok lists.flatten ∧ lists.flatten.length = stop) ∧
    ((¬ ∃ lists : List (List Key), conformed spans results = lists.map .ok) ->
      ∃ slots, merge spans results = .error slots ∧
        LaysOut spans (conformed spans results) stop slots) ∧
    mergeHasRoom spans results = Span.hasRoom stop 80 := by
  refine ⟨?_, ?_, ?_, mergeHasRoom_eq hrow hlength⟩
  · intro j span result hspan hresult
    refine ⟨conform span result, ?_, conforms_conform span result⟩
    exact List.getElem?_zipWith_eq_some.mpr ⟨span, result, hspan, hresult, rfl⟩
  · intro lists hlists
    have hmerge := merge_of_conformed hlists
    have hall := length_slotsOfOutcome_merge hrow hlength
    rw [hmerge, slotsOfOutcome, List.length_map] at hall
    exact ⟨hmerge, hall⟩
  · intro hnot
    rcases exists_merge_eq_error hnot with ⟨slots, hslots⟩
    exact ⟨slots, hslots, laysOut_of_merge hrow hlength hslots⟩

end Row

/-- Two keys were written, one of the next two was refused, and no answer came
for the last one. -/
theorem merge_lays_out_mixed :
    ∃ slots, merge (Span.split 5 2)
        [.ok [.numbered "Item" 1, .numbered "Item" 2],
          .error (.positional ⟨[.error (.rejected "large"), .ok (.numbered "Item" 4)]⟩),
          .ok []] = .error slots ∧
      LaysOut (Span.split 5 2)
        [.ok [.numbered "Item" 1, .numbered "Item" 2],
          .error (.positional ⟨[.error (.rejected "large"), .ok (.numbered "Item" 4)]⟩),
          .error (.wholesale (misfitFailure 0 1))] 5 slots ∧
      slots.failures = [(2, .rejected "large"), (4, misfitFailure 0 1)] := by
  have hrow : Span.InRow 0 (Span.split 5 2) 5 := (Span.tiles_split (by decide)).row
  have hall := @merge_lays_out (Span.split 5 2)
    [.ok [.numbered "Item" 1, .numbered "Item" 2],
      .error (.positional ⟨[.error (.rejected "large"), .ok (.numbered "Item" 4)]⟩),
      .ok []] 5 hrow rfl
  have hnot : ¬ ∃ lists : List (List Key), conformed (Span.split 5 2)
      [.ok [.numbered "Item" 1, .numbered "Item" 2],
        .error (.positional ⟨[.error (.rejected "large"), .ok (.numbered "Item" 4)]⟩),
        .ok []] = lists.map .ok := by
    rintro ⟨_ | ⟨a, _ | ⟨b, lists⟩⟩, h⟩ <;> cases h
  rcases hall.2.2.1 hnot with ⟨slots, hslots, hout⟩
  refine ⟨slots, hslots, hout, ?_⟩
  cases hslots
  rfl

end Batch
end WriteLatch
