import Mathlib.Data.Set.List
import WriteLatch.Proofs.Batch.Single
import WriteLatch.Proofs.Batch.Transparency

/-!
# Positional outcomes without a failure

A request comes to keys if every piece of it was answered with keys, and to
slots otherwise.  A reply of slots need not name a failure: slots that all have
keys say of every key that it was written, but keep the request from coming to
keys.  That is the only way to an outcome of slots in which nothing has failed,
and a store that answers by itself never takes it.
-/

namespace WriteLatch

theorem Slots.failedCount_eq_zero_iff {slots : Slots} :
    slots.failedCount = 0 ↔ ∀ slot ∈ slots.toList, slot.isFailure = false := by
  rw [failedCount, List.countP_eq_zero]
  simp only [Bool.not_eq_true]

theorem Slots.failedCount_keys (keys : List Key) :
    (Slots.mk (keys.map .ok)).failedCount = 0 := by
  rw [failedCount_eq_zero_iff]
  intro slot hmem
  rcases List.mem_map.mp hmem with ⟨k, _, rfl⟩
  rfl

theorem Slots.failedCount_replicate (n : Nat) (f : Failure) :
    (Slots.mk (List.replicate n (.error f))).failedCount = n := by
  rw [failedCount, List.countP_replicate]
  rfl

/-- Nothing has failed in a row of slots if nothing has in any part of it. -/
theorem Slots.failedCount_flatMap_eq_zero_iff {α : Type} {xs : List α} {f : α -> List Slot} :
    (Slots.mk (xs.flatMap f)).failedCount = 0 ↔ ∀ x ∈ xs, (Slots.mk (f x)).failedCount = 0 := by
  simp only [failedCount_eq_zero_iff, List.mem_flatMap]
  constructor
  · intro h x hx slot hslot
    exact h slot ⟨x, hx, hslot⟩
  · rintro h slot ⟨x, hx, hslot⟩
    exact h x hx slot hslot

namespace Batch

/-- The result says of every key of the piece that it was written, be it with
keys or with slots. -/
def IsWritten (span : Span) : CallResult -> Prop
  | .ok keys => keys.length = span.size
  | .error (.positional slots) => slots.size = span.size ∧ slots.failedCount = 0
  | .error (.wholesale _) => False

theorem not_isWritten_of_misfit?_eq_some {span : Span} {result : CallResult} {n : Nat}
    (h : misfit? span result = some n) : ¬ IsWritten span result := by
  intro hwritten
  have hnone : misfit? span result = none := by
    rw [misfit?_eq_none_iff]
    intro m hm
    cases result with
    | ok keys =>
        cases hm
        exact hwritten
    | error failure =>
        cases failure with
        | positional slots =>
            cases hm
            exact hwritten.1
        | wholesale f => cases hm
  rw [hnone] at h
  cases h

/-- The slots of a piece name a failure unless all of its keys were written. -/
theorem failedCount_slotsOf_conform_eq_zero_iff {span : Span} (hspan : 0 < span.size)
    (result : CallResult) :
    (Slots.mk (slotsOf span (conform span result))).failedCount = 0 ↔ IsWritten span result := by
  have hwholesale (f : Failure) :
      (Slots.mk (slotsOf span (.error (.wholesale f)))).failedCount ≠ 0 := by
    rw [slotsOf, Slots.failedCount_replicate]
    omega
  cases hmisfit : misfit? span result with
  | some n =>
      rw [conform_of_misfit?_eq_some hmisfit]
      exact iff_of_false (hwholesale _) (not_isWritten_of_misfit?_eq_some hmisfit)
  | none =>
      rw [conform_of_misfit?_eq_none hmisfit]
      have hfits := (misfit?_eq_none_iff span result).mp hmisfit
      cases result with
      | ok keys => exact iff_of_true (Slots.failedCount_keys keys) (hfits keys.length rfl)
      | error failure =>
          cases failure with
          | positional slots => exact ⟨fun h => ⟨hfits slots.size rfl, h⟩, fun h => h.2⟩
          | wholesale f => exact iff_of_false (hwholesale f) id

/-- Where all keys of a piece were written, it comes to keys unless it was
answered with slots. -/
theorem exists_conform_eq_ok_iff {span : Span} {result : CallResult} (h : IsWritten span result) :
    (∃ keys, conform span result = .ok keys) ↔ ¬ ∃ slots, result = .error (.positional slots) := by
  have hmisfit : misfit? span result = none := by
    cases hmisfit : misfit? span result with
    | none => rfl
    | some n => exact absurd h (not_isWritten_of_misfit?_eq_some hmisfit)
  rw [conform_of_misfit?_eq_none hmisfit]
  cases result with
  | ok keys => exact iff_of_true ⟨keys, rfl⟩ (by rintro ⟨slots, hslots⟩; cases hslots)
  | error failure =>
      cases failure with
      | positional slots =>
          exact iff_of_false (by rintro ⟨keys, hkeys⟩; cases hkeys) (not_not_intro ⟨slots, rfl⟩)
      | wholesale f => exact absurd h id

/-- A request comes to keys if every piece of it does. -/
theorem exists_merge_eq_ok_iff {spans : List Span} {results : List CallResult} :
    (∃ keys, merge spans results = .ok keys) ↔
      ∀ piece ∈ spans.zip results, ∃ keys, conform piece.1 piece.2 = .ok keys := by
  have hall : (∃ keys, merge spans results = .ok keys) ↔ ∃ keys,
      allKeys? (((spans.zip results).map fun piece =>
        (piece.1, conform piece.1 piece.2)).map Prod.snd) = some keys := by
    rw [merge]
    cases allKeys? _ <;> simp
  rw [hall, List.map_map]
  simp only [allKeys?_eq_some_iff]
  constructor
  · rintro ⟨_, lists, hlists, _⟩ piece hmem
    have hok := List.mem_map_of_mem (f := Prod.snd ∘ fun piece : Span × CallResult =>
      (piece.1, conform piece.1 piece.2)) hmem
    rw [hlists] at hok
    rcases List.mem_map.mp hok with ⟨keys, _, heq⟩
    exact ⟨keys, heq.symm⟩
  · intro h
    have hrange : (spans.zip results).map (Prod.snd ∘ fun piece =>
        (piece.1, conform piece.1 piece.2)) ∈
          Set.range (List.map (Except.ok (ε := CallFailure))) := by
      rw [Set.range_list_map]
      intro result hmem
      rcases List.mem_map.mp hmem with ⟨piece, hpiece, rfl⟩
      rcases h piece hpiece with ⟨keys, hkeys⟩
      exact ⟨keys, hkeys.symm⟩
    rcases hrange with ⟨lists, hlists⟩
    exact ⟨_, lists, hlists.symm, rfl⟩

/-- A request comes to slots of which none names a failure just if all of it was
written and a piece of it was answered with slots. -/
theorem merge_eq_error_without_failure_iff {spans : List Span} {results : List CallResult}
    (hlength : spans.length = results.length) (hspans : ∀ span ∈ spans, 0 < span.size) :
    (∃ slots, merge spans results = .error slots ∧ slots.failedCount = 0) ↔
      (∀ piece ∈ spans.zip results, IsWritten piece.1 piece.2) ∧
        ∃ slots, Except.error (CallFailure.positional slots) ∈ results := by
  have hslots : (Slots.mk (slotsOfOutcome (merge spans results))).failedCount = 0 ↔
      ∀ piece ∈ spans.zip results, IsWritten piece.1 piece.2 := by
    rw [slotsOfOutcome_merge, Slots.failedCount_flatMap_eq_zero_iff]
    refine forall₂_congr fun piece hmem => ?_
    exact failedCount_slotsOf_conform_eq_zero_iff (hspans piece.1 (List.of_mem_zip hmem).1) piece.2
  have hkeys (hwritten : ∀ piece ∈ spans.zip results, IsWritten piece.1 piece.2) :
      (∃ keys, merge spans results = .ok keys) ↔
        ¬ ∃ slots, Except.error (CallFailure.positional slots) ∈ results := by
    rw [exists_merge_eq_ok_iff]
    constructor
    · rintro h ⟨slots, hmem⟩
      rw [← List.map_snd_zip (Nat.le_of_eq hlength.symm)] at hmem
      rcases List.mem_map.mp hmem with ⟨piece, hpiece, hslots⟩
      exact (exists_conform_eq_ok_iff (hwritten piece hpiece)).mp (h piece hpiece) ⟨slots, hslots⟩
    · intro h piece hmem
      refine (exists_conform_eq_ok_iff (hwritten piece hmem)).mpr ?_
      rintro ⟨slots, hslots⟩
      exact h ⟨slots, hslots ▸ (List.of_mem_zip hmem).2⟩
  constructor
  · rintro ⟨slots, hmerge, hnone⟩
    have hwritten := hslots.mp (by rw [hmerge]; exact hnone)
    refine ⟨hwritten, ?_⟩
    by_contra hpositional
    rcases (hkeys hwritten).mpr hpositional with ⟨keys, hok⟩
    rw [hmerge] at hok
    cases hok
  · rintro ⟨hwritten, hpositional⟩
    cases hmerge : merge spans results with
    | ok keys => exact absurd hpositional ((hkeys hwritten).mp ⟨keys, hmerge⟩)
    | error slots =>
        have hnone := hslots.mpr hwritten
        rw [hmerge] at hnone
        exact ⟨slots, rfl, hnone⟩

end Batch

/-!
## The reply of a store
-/

namespace Store

/-- Slots are given as slots only if one of them names a failure. -/
theorem failedCount_pos_of_resultOf {written : List Slot} {slots : Slots}
    (h : resultOf written = .error (.positional slots)) : 0 < slots.failedCount := by
  rcases resultOf_cases written with ⟨keys, _, hresult⟩ | ⟨hfailure, hresult⟩
  · rw [hresult] at h
    cases h
  · rw [hresult] at h
    cases h
    exact List.countP_pos_iff.mpr hfailure

theorem failedCount_pos_of_putAll {s : Store} {keys : List Key} {values : List Value}
    {slots : Slots} (h : (s.putAll keys values).1 = .error (.positional slots)) :
    0 < slots.failedCount := by
  cases hrefuses : s.refuses keys values with
  | true =>
      rcases putAll_of_refuses hrefuses with ⟨f, hput⟩
      rw [hput] at h
      cases h
  | false =>
      rw [putAll_of_not_refuses hrefuses] at h
      exact failedCount_pos_of_resultOf h

end Store

/-!
## Requests of a client
-/

namespace Client

variable {c : Client} {keys : List Key} {values : List Value} {ends : List TaskEnd}

theorem outcomeOf_eq_positional_iff {slots : Slots} :
    c.outcomeOf keys values ends = .error (.positional slots) ↔
      Batch.merge (Span.split keys.length c.batchSize) (ends.map TaskEnd.result) =
        .error slots := by
  rw [outcomeOf, merged, map_span_pieces]
  cases Batch.merge (Span.split keys.length c.batchSize) (ends.map TaskEnd.result) <;>
    simp [Except.mapError]

theorem positional_mem_results_iff {slots : Slots} :
    Except.error (.positional slots) ∈ ends.map TaskEnd.result ↔
      TaskEnd.finished (.error (.positional slots)) ∈ ends := by
  constructor
  · intro hmem
    rcases List.mem_map.mp hmem with ⟨e, he, hresult⟩
    cases e with
    | finished result => exact hresult ▸ he
    | crashed message => cases hresult
  · exact List.mem_map_of_mem

/-- Of every piece of the request it is said that all of its keys were written. -/
def IsAllWritten (c : Client) (keys : List Key) (values : List Value) (ends : List TaskEnd) :
    Prop :=
  ∀ (j : Nat) (piece : Piece) (e : TaskEnd), (c.pieces keys values)[j]? = some piece ->
    ends[j]? = some e -> Batch.IsWritten piece.span e.result

theorem isAllWritten_iff : c.IsAllWritten keys values ends ↔
    ∀ piece ∈ (Span.split keys.length c.batchSize).zip (ends.map TaskEnd.result),
      Batch.IsWritten piece.1 piece.2 := by
  rw [← map_span_pieces c keys values]
  constructor
  · intro h piece hmem
    rcases List.mem_iff_getElem?.mp hmem with ⟨j, hj⟩
    rcases List.getElem?_zip_eq_some.mp hj with ⟨hspan, hresult⟩
    rw [List.getElem?_map, Option.map_eq_some_iff] at hspan hresult
    rcases hspan with ⟨given, hgiven, hspan⟩
    rcases hresult with ⟨e, he, hresult⟩
    rw [← hspan, ← hresult]
    exact h j given e hgiven he
  · intro h j piece e hpiece he
    have hzip : (((c.pieces keys values).map Piece.span).zip (ends.map TaskEnd.result))[j]? =
        some (piece.span, e.result) := by
      rw [List.getElem?_zip_eq_some, List.getElem?_map, List.getElem?_map, hpiece, he]
      exact ⟨rfl, rfl⟩
    exact h _ (List.mem_of_getElem? hzip)

theorem outcomeOf_without_failure_iff (haddressed : Span.IsAddressed keys.length c.batchSize)
    (hends : ends.length = (c.pieces keys values).length) :
    (∃ slots, c.outcomeOf keys values ends = .error (.positional slots) ∧
        slots.failedCount = 0) ↔
      c.IsAllWritten keys values ends ∧
        ∃ slots, TaskEnd.finished (.error (.positional slots)) ∈ ends := by
  have hlength : (Span.split keys.length c.batchSize).length =
      (ends.map TaskEnd.result).length := by
    rw [List.length_map, hends, length_pieces]
  simp only [outcomeOf_eq_positional_iff, isAllWritten_iff, ← positional_mem_results_iff]
  exact Batch.merge_eq_error_without_failure_iff hlength fun span hmem => haddressed.size_pos hmem

/-- Where results of slots name a failure, so does an outcome of slots. -/
theorem failedCount_pos_of_isProper {slots : Slots}
    (haddressed : Span.IsAddressed keys.length c.batchSize)
    (hends : ends.length = (c.pieces keys values).length) (hproper : ∀ e ∈ ends, e.IsProper)
    (h : c.outcomeOf keys values ends = .error (.positional slots)) : 0 < slots.failedCount := by
  apply Nat.pos_of_ne_zero
  intro hnone
  rcases (outcomeOf_without_failure_iff haddressed hends).mp ⟨slots, h, hnone⟩ with
    ⟨hwritten, given, hmem⟩
  rcases List.mem_iff_getElem?.mp hmem with ⟨j, hj⟩
  have hlt : j < (c.pieces keys values).length := by
    rw [← hends]
    exact (List.getElem?_eq_some_iff.mp hj).1
  have hzero := hwritten j _ _ (List.getElem?_eq_getElem hlt) hj
  exact absurd hzero.2 (Nat.ne_of_gt (hproper _ hmem given rfl))

end Client

namespace Simulation
namespace World

/-- Where a store answers by itself, a transaction that ends with slots ends with
a failure. -/
theorem isProper_of_ends? {start w : World} {ends : List Client.TaskEnd} (hfresh : start.Fresh)
    (hreach : Relation.ReflTransGen SoleStep start w) (hends : w.ends? = some ends) :
    ∀ e ∈ ends, e.IsProper := by
  rcases exists_ledger hfresh hreach with ⟨order, hledger⟩
  intro e hmem slots hslots
  rcases List.mem_iff_getElem?.mp hmem with ⟨i, hi⟩
  rcases Option.bind_eq_some_iff.mp ((endAt?_of_ends? hends i).trans hi) with
    ⟨writer, hwriter, hend⟩
  cases e with
  | crashed message => cases hslots
  | finished result =>
      have hresult : writer.run.stage.result? = some (.error (.positional slots)) :=
        (Run.result?_of_end? hend).trans (congrArg some hslots)
      by_cases hcalled : i ∈ order
      · rcases List.append_of_mem hcalled with ⟨later, earlier, horder⟩
        have hreply := hledger.replied later i earlier horder writer _ hwriter hresult
        exact Store.failedCount_pos_of_putAll hreply.symm
      · rcases hledger.failed i writer _ hcalled hwriter hresult with ⟨f, hf⟩
        cases hf

/-- An outcome of slots in which nothing has failed is come to exactly where all
of the request was written and a piece of it was answered with slots.  So it is
for a row of spans, and for a client whose transactions have come to their ends
in whatever way; where the store answers by itself there is no such outcome. -/
theorem positional_without_failure_iff {spans : List Span} {results : List CallResult}
    (hlength : spans.length = results.length) (hspans : ∀ span ∈ spans, 0 < span.size) :
    ((∃ slots, Batch.merge spans results = .error slots ∧ slots.failedCount = 0) ↔
      (∀ piece ∈ spans.zip results, Batch.IsWritten piece.1 piece.2) ∧
        ∃ slots, Except.error (CallFailure.positional slots) ∈ results) ∧
    (∀ (client : Client) (keys : List Key) (values : List Value) (ends : List Client.TaskEnd),
      Span.IsAddressed keys.length client.batchSize ->
        ends.length = (client.pieces keys values).length ->
          ((∃ slots, client.outcomeOf keys values ends = .error (.positional slots) ∧
              slots.failedCount = 0) ↔
            client.IsAllWritten keys values ends ∧
              ∃ slots, Client.TaskEnd.finished (.error (.positional slots)) ∈ ends)) ∧
    ∀ (client : Client) (scene : Scene) (ctx : Context) (keys : List Key) (values : List Value)
      (w : World), Span.IsAddressed keys.length client.batchSize ->
        Relation.ReflTransGen SoleStep (dispatched client scene ctx keys values) w ->
          ∀ slots, w.outcome? client keys values = some (.error (.positional slots)) ->
            0 < slots.failedCount := by
  refine ⟨?rows, ?clients, ?stores⟩
  case rows => exact Batch.merge_eq_error_without_failure_iff hlength hspans
  case clients => exact fun client keys values ends => Client.outcomeOf_without_failure_iff
  case stores =>
    intro client scene ctx keys values w haddressed hreach slots houtcome
    rcases Option.map_eq_some_iff.mp houtcome with ⟨ends, hends, hslots⟩
    have hlength := (reaches_of_sole hreach).length_ends hends
    have hproper := isProper_of_ends? (fresh_dispatched _ _ _ _ _) hreach hends
    exact Client.failedCount_pos_of_isProper haddressed hlength hproper hslots

theorem reaches_halfFittingEnded :
    Relation.ReflTransGen SoleStep halfFitting halfFittingEnded := by
  have hstays : halfFitting.staysIn (fun w => w.scene.faults.store.isEmpty)
      [0, 1, 1, 1, 0, 1, 0, 1, 1, 0, 0, 1, 0, 0] = true := rfl
  apply turns_of_staysIn _ hstays
  intro w i writer hwriter hplain _
  apply SoleStep.moved hwriter
  intro rule hmem
  rw [List.isEmpty_iff.mp hplain] at hmem
  cases hmem

/-- Slots that all have keys are enough for such an outcome; a value that is too
large for a store that answers by itself shows as a failure. -/
theorem positional_without_failure_iff_halfFittingEnded :
    (∃ slots, Batch.merge [⟨0, 2⟩, ⟨2, 3⟩] [.ok [.numbered "Item" 1, .numbered "Item" 2],
        .error (.positional ⟨[.ok (.numbered "Item" 3)]⟩)] = .error slots ∧
      slots.failedCount = 0) ∧
    (∃ slots, Client.outcomeOf ⟨{}, 1⟩ [.numbered "Item" 1] [.int 1]
        [.finished (.error (.positional ⟨[.ok (.numbered "Item" 1)]⟩))] =
          .error (.positional slots) ∧ slots.failedCount = 0) ∧
    ∃ slots, halfFittingEnded.outcome? ⟨{ maxBatchSize := some 1 }, 1⟩
      [.numbered "Item" 1, .numbered "Item" 2] [.text "ab", .text "abcdef"] =
        some (.error (.positional slots)) ∧ 0 < slots.failedCount := by
  have hspans : ∀ span ∈ [Span.mk 0 2, Span.mk 2 3], 0 < span.size := by decide
  have hall := @positional_without_failure_iff _
    [.ok [.numbered "Item" 1, .numbered "Item" 2],
      .error (.positional ⟨[.ok (.numbered "Item" 3)]⟩)] rfl hspans
  rcases hall with ⟨hrows, hclients, hstores⟩
  refine ⟨?_, ?_, ?_⟩
  · refine hrows.mpr ⟨?_, _, List.mem_cons_of_mem _ List.mem_cons_self⟩
    intro piece hmem
    rcases List.mem_cons.mp hmem with rfl | hlast
    · rfl
    · rw [List.mem_singleton.mp hlast]
      exact ⟨rfl, rfl⟩
  · refine (hclients ⟨{}, 1⟩ [.numbered "Item" 1] [.int 1] _ ⟨by decide, by decide⟩ rfl).mpr
      ⟨?_, _, List.mem_cons_self⟩
    intro j piece e hpiece he
    cases j with
    | zero =>
        cases hpiece
        cases he
        exact ⟨rfl, rfl⟩
    | succ j => cases he
  · have houtcome : halfFittingEnded.outcome? ⟨{ maxBatchSize := some 1 }, 1⟩
        [.numbered "Item" 1, .numbered "Item" 2] [.text "ab", .text "abcdef"] =
          some (.error (.positional ⟨[.ok (.numbered "Item" 1),
            .error (Store.oversized (.numbered "Item" 2) 6 4)]⟩)) := rfl
    exact ⟨_, houtcome, hstores _ _ _ _ _ _ ⟨by decide, by decide⟩ reaches_halfFittingEnded _
      houtcome⟩

/-- One key, answered with a slot that has the key, comes to slots in which
nothing has failed. -/
theorem merge_of_written_slot :
    ¬ ∀ (spans : List Span) (results : List CallResult) (slots : Slots),
      spans.length = results.length -> (∀ span ∈ spans, 0 < span.size) ->
        Batch.merge spans results = .error slots ->
          ∃ slot ∈ slots.toList, slot.isFailure = true := by
  intro h
  have hmerge : Batch.merge [⟨0, 1⟩] [.error (.positional ⟨[.ok (.numbered "Item" 1)]⟩)] =
      .error ⟨[.ok (.numbered "Item" 1)]⟩ := rfl
  rcases h _ _ _ rfl (by decide) hmerge with ⟨slot, hmem, hfailure⟩
  rw [List.mem_singleton.mp hmem] at hfailure
  cases hfailure

end World
end Simulation
end WriteLatch
