import WriteLatch.Proofs.Batch.LastWrite
import WriteLatch.Proofs.Interleaving.Sharing

/-!
# A request as one call

A request for distinct keys is written as by one call of a store without a limit,
however it is cut into pieces and in whatever order these are written: the
outcome is the reply to that call, the store is left as by that call, and in the
cache nothing is left in the slots of the keys.
-/

namespace WriteLatch

namespace Batch

/-!
## Replies to the pieces
-/

/-- A request of which every piece was written is written. -/
theorem merge_of_ok {spans : List Span} {lists : List (List Key)}
    (h : spans.map Span.size = lists.map List.length) :
    merge spans (lists.map .ok) = .ok lists.flatten := by
  have hconform : ((spans.zip (lists.map Except.ok)).map fun piece =>
      (piece.1, conform piece.1 piece.2)).map Prod.snd = lists.map .ok := by
    induction spans generalizing lists with
    | nil =>
        cases lists with
        | nil => rfl
        | cons keys lists => cases h
    | cons span spans ih =>
        cases lists with
        | nil => cases h
        | cons keys lists =>
            rw [List.map_cons, List.map_cons, List.cons.injEq] at h
            have hfits : misfit? span (.ok keys) = none := by
              rw [misfit?_eq_none_iff]
              intro n hn
              cases hn
              exact h.1.symm
            rw [List.map_cons, List.zip_cons_cons, List.map_cons, List.map_cons, ih h.2]
            dsimp only
            rw [conform_of_misfit?_eq_none hfits]
  have hall : allKeys? (lists.map .ok) = some lists.flatten :=
    allKeys?_eq_some_iff.mpr ⟨lists, rfl, rfl⟩
  unfold merge
  dsimp only
  rw [hconform, hall]

/-- A reply with as many slots as a piece has positions says what they say. -/
theorem slotsOf_conform_resultOf {span : Span} {slots : List Slot}
    (h : slots.length = span.size) :
    slotsOf span (conform span (Store.resultOf slots)) = slots := by
  rcases Store.resultOf_cases slots with ⟨keys, hslots, hresult⟩ | ⟨_, hresult⟩
  · have hfits : misfit? span (.ok keys) = none := by
      rw [misfit?_eq_none_iff]
      intro n hn
      cases hn
      rw [hslots, List.length_map] at h
      exact h
    rw [hresult, conform_of_misfit?_eq_none hfits, hslots]
    rfl
  · have hfits : misfit? span (.error (.positional ⟨slots⟩)) = none := by
      rw [misfit?_eq_none_iff]
      intro n hn
      cases hn
      exact h
    rw [hresult, conform_of_misfit?_eq_none hfits]
    rfl

end Batch

namespace Client

section Replies

variable {c : Client} {keys : List Key} {values : List Value} {s : Store}

/-- The ends of the pieces of a request when the store replies to all of them. -/
def repliesOf (c : Client) (s : Store) (keys : List Key) (values : List Value) : List TaskEnd :=
  (c.pieces keys values).map fun piece =>
    .finished (Store.resultOf ((piece.keys.zip piece.values).map s.slotFor))

variable (haddressed : Span.IsAddressed keys.length c.batchSize)
  (hlength : keys.length = values.length)
include haddressed hlength

theorem slotsOf_outcomeOf_repliesOf :
    slotsOf (c.outcomeOf keys values (c.repliesOf s keys values)) =
      (keys.zip values).map s.slotFor := by
  rw [outcomeOf, slotsOf_merged, repliesOf, List.zip_map', List.flatMap_map,
    ← flatMap_zip_pieces_eq haddressed hlength, List.map_flatMap, List.flatMap_def,
    List.flatMap_def]
  congr 1
  apply List.map_congr_left
  intro piece hmem
  apply Batch.slotsOf_conform_resultOf
  rw [List.length_map, List.length_zip, ← length_keys_eq_of_mem_pieces hlength hmem,
    length_keys_of_mem_pieces hmem, Nat.min_self]

theorem outcomeOf_repliesOf_of_fits (hfits : ∀ v ∈ values, v.size <= s.maxEntitySize) :
    c.outcomeOf keys values (c.repliesOf s keys values) = .ok keys := by
  have hresults : (c.repliesOf s keys values).map TaskEnd.result =
      ((c.pieces keys values).map Piece.keys).map .ok := by
    rw [repliesOf, List.map_map, List.map_map]
    apply List.map_congr_left
    intro piece hmem
    have hpiece := length_keys_eq_of_mem_pieces hlength hmem
    have hsmall : ∀ v ∈ piece.values, v.size <= s.maxEntitySize :=
      fun v hv => hfits v (mem_values_of_mem_piece hmem hv)
    have hreply := Store.resultOf_map_ok piece.keys
    rw [← Store.map_slotFor_of_fits hpiece hsmall] at hreply
    exact hreply
  have hsizes : ((c.pieces keys values).map Piece.span).map Span.size =
      ((c.pieces keys values).map Piece.keys).map List.length := by
    rw [List.map_map, List.map_map]
    apply List.map_congr_left
    intro piece hmem
    exact (length_keys_of_mem_pieces hmem).symm
  rw [outcomeOf, merged, hresults, Batch.merge_of_ok hsizes, ← List.flatMap_def,
    flatMap_keys_pieces_eq haddressed]
  rfl

theorem outcomeOf_repliesOf_of_not_fits (hfits : ¬ ∀ v ∈ values, v.size <= s.maxEntitySize) :
    c.outcomeOf keys values (c.repliesOf s keys values) =
      .error (.positional ⟨(keys.zip values).map s.slotFor⟩) := by
  have hslots := slotsOf_outcomeOf_repliesOf (s := s) haddressed hlength
  rcases merged_eq ((c.pieces keys values).map Piece.span) (c.repliesOf s keys values) with
    ⟨written, hwritten, _⟩ | ⟨slots, hpartial, _⟩
  · rw [outcomeOf, hwritten] at hslots
    exact absurd (Store.fits_of_map_slotFor hlength hslots.symm) hfits
  · rw [outcomeOf, hpartial] at hslots
    rw [outcomeOf, hpartial, ← hslots]
    rfl

end Replies

/-- Distinct complete keys, which may be written in pieces that the store does not
refuse. -/
structure WritesApart (c : Client) (s : Store) (keys : List Key) (values : List Value) :
    Prop where
  addressed : Span.IsAddressed keys.length c.batchSize
  size : max c.batchSize 1 <= s.limit
  check : Request.check keys values = .ok ()
  complete : ∀ k ∈ keys, k.isComplete = true
  nodup : keys.Nodup

/-- A store refuses no piece if it takes as many keys as a client writes at once. -/
theorem refuses_piece_eq_false {c : Client} {keys : List Key} {values : List Value} {s : Store}
    {piece : Piece} (hsize : max c.batchSize 1 <= s.limit) (hlength : keys.length = values.length)
    (hmem : piece ∈ c.pieces keys values) : s.refuses piece.keys piece.values = false := by
  have hle := Nat.le_trans (length_keys_le_of_mem_pieces hmem) hsize
  rw [Store.refuses, Bool.or_eq_false_iff, decide_eq_false_iff_not, bne_eq_false_iff_eq]
  exact ⟨Nat.not_lt.mpr hle, length_keys_eq_of_mem_pieces hlength hmem⟩

theorem batchSize_le_of_create {config : Config} {limit : Nat} {c : Client}
    (h : create config limit = .ok c) (hpos : 0 < limit) : max c.batchSize 1 <= limit := by
  rw [(eq_of_create h).2, Config.batchSize]
  cases config.maxBatchSize with
  | none =>
      dsimp only
      omega
  | some most =>
      dsimp only
      omega

end Client

namespace Simulation

/-- What a request for distinct keys comes to and leaves behind: what one call of
a store without a limit would. -/
structure WrittenAsOne (scheme : LockScheme) (keys : List Key) (values : List Value)
    (before after : Scene) (result : Except WriteFailure (List Key)) : Prop where
  written : (∀ v ∈ values, v.size <= before.store.maxEntitySize) -> result = .ok keys
  rejected : ¬ (∀ v ∈ values, v.size <= before.store.maxEntitySize) ->
    ∃ slots : Slots, result = .error (.positional slots) ∧ slots.size = keys.length ∧
      ∀ (i : Nat) (k : Key) (v : Value), keys[i]? = some k -> values[i]? = some v ->
        slots.toList[i]? = some (if v.size <= before.store.maxEntitySize then .ok k
          else .error (Store.oversized k v.size before.store.maxEntitySize))
  entity : ∀ (i : Nat) (k : Key) (v : Value), keys[i]? = some k -> values[i]? = some v ->
    after.store.find? k =
      if v.size <= before.store.maxEntitySize then some v else before.store.find? k
  others : ∀ k, k ∉ keys -> after.store.find? k = before.store.find? k
  cache : after.cache = before.cache.eraseAll (scheme.lockSlots keys)
  reply :
    (∃ ks, ({ before.store with limit := keys.length }.putAll keys values).1 = .ok ks ∧
        result = .ok ks) ∨
      ∃ slots, ({ before.store with limit := keys.length }.putAll keys values).1 =
          .error (.positional slots) ∧ result = .error (.positional slots)
  store : ∀ k, after.store.find? k =
    ({ before.store with limit := keys.length }.putAll keys values).2.find? k

namespace World

section Dispatched

variable {client : Client} {scene : Scene} {ctx : Context} {keys : List Key} {values : List Value}
  {w : World}

/-- The pieces of a request for distinct keys share out the slots of its keys. -/
theorem sharing_dispatched (h : client.WritesApart scene.store keys values) :
    (dispatched client scene ctx keys values).Sharing
      (client.config.lockScheme.lockSlots keys) where
  fresh := fresh_dispatched _ _ _ _ _
  complete := fun writer hmem k hk => h.complete k (mem_of_dispatched hmem hk)
  refuses := by
    intro writer hmem
    rcases List.mem_map.mp hmem with ⟨piece, hpiece, heq⟩
    rw [← heq]
    exact Client.refuses_piece_eq_false h.size (Request.length_eq_of_check h.check) hpiece
  apart := by
    intro i j a b ha hb hij slot hslot hother
    have hvalid := Request.isValid_of_check h.check
    have hmema := List.mem_of_getElem? ha
    have hmemb := List.mem_of_getElem? hb
    rcases Writer.mem_slots.mp hslot with ⟨k, hk, _, heq⟩
    rw [← heq, scheme_of_dispatched hmema, ← scheme_of_dispatched hmemb] at hother
    have hmem := mem_keys_of_slot_mem (hvalid k (mem_of_dispatched hmema hk))
      (fun k' hk' _ => hvalid k' (mem_of_dispatched hmemb hk')) hother
    rw [dispatched, List.getElem?_map, Option.map_eq_some_iff] at ha hb
    rcases ha with ⟨piece, hpiece, hwriter⟩
    rcases hb with ⟨piece', hpiece', hwriter'⟩
    rw [← hwriter] at hk
    rw [← hwriter'] at hmem
    exact Client.not_mem_of_mem_other_piece h.addressed h.nodup hpiece hpiece' hij hk hmem
  shared := by
    intro slot
    have hall : (client.pieces keys values).flatMap Client.Piece.keys = keys :=
      Client.flatMap_keys_pieces_eq h.addressed
    constructor
    · intro hslot
      rw [LockScheme.lockSlots, List.mem_map] at hslot
      rcases hslot with ⟨k, hk, heq⟩
      rw [List.mem_filter, ← hall, List.mem_flatMap] at hk
      rcases hk with ⟨⟨piece, hpiece, hin⟩, hcomplete⟩
      exact ⟨_, List.mem_map_of_mem hpiece, Writer.mem_slots.mpr ⟨k, hin, hcomplete, heq⟩⟩
    · rintro ⟨writer, hmem, hslot⟩
      rcases Writer.mem_slots.mp hslot with ⟨k, hk, hcomplete, heq⟩
      rw [scheme_of_dispatched hmem] at heq
      rw [LockScheme.lockSlots, List.mem_map]
      exact ⟨k, List.mem_filter.mpr ⟨mem_of_dispatched hmem hk, hcomplete⟩, heq⟩

/-- A request finds nothing in its way when its context goes on and the faults of the
scene only take time. -/
theorem smooth_dispatched (hfaults : scene.faults.OnlyDelay)
    (hctx : scene.interruption? (client.bounded scene.now ctx) = none)
    (hstorable : client.config.lockScheme.IsStorable scene.cacheNow) :
    (dispatched client scene ctx keys values).Smooth := by
  refine ⟨hfaults, ?_, ?_, ?_⟩
  · intro writer hmem
    rcases List.mem_map.mp hmem with ⟨piece, _, heq⟩
    rw [← heq]
    exact hctx
  · intro writer hmem c hc
    rw [Run.cacheContext?, (fresh_dispatched _ _ _ _ _).opening writer hmem] at hc
    cases hc
  · intro writer hmem
    rw [scheme_of_dispatched hmem]
    exact hstorable

theorem boundless_dispatched (hdeadline : (client.bounded scene.now ctx).deadline = none)
    (hknown : ∀ t ∈ scene.tokens.cancelled, t.number < scene.tokens.issued) :
    (dispatched client scene ctx keys values).Boundless := by
  refine ⟨?_, ?_, hknown⟩
  · intro writer hmem
    rcases List.mem_map.mp hmem with ⟨piece, _, heq⟩
    rw [← heq]
    exact hdeadline
  · intro writer hmem c hc
    rw [Run.cacheContext?, (fresh_dispatched _ _ _ _ _).opening writer hmem] at hc
    cases hc

variable (h : client.WritesApart scene.store keys values)
  (hreach : Relation.ReflTransGen SmoothStep (dispatched client scene ctx keys values) w)
include h hreach

/-- Whoever writes a piece has come to the reply of the store. -/
theorem ends_of_piece {ends : List Client.TaskEnd} (hends : w.ends? = some ends)
    {order : List Nat} (hledger : Ledger (dispatched client scene ctx keys values) w order)
    {j : Nat} {piece : Client.Piece} (hpiece : (client.pieces keys values)[j]? = some piece) :
    ends[j]? = some (.finished
      (Store.resultOf ((piece.keys.zip piece.values).map scene.store.slotFor))) := by
  have hsharing : (dispatched client scene ctx keys values).Sharing
      (client.config.lockScheme.lockSlots keys) :=
    sharing_dispatched h
  have hsteps := reaches_of_sole (sole_of_smooth hreach)
  have hlt : j < w.writers.length := by
    rw [hsteps.length_writers, length_writers_dispatched]
    exact (List.getElem?_eq_some_iff.mp hpiece).1
  have hwriter : w.writers[j]? = some w.writers[j] := List.getElem?_eq_getElem hlt
  have hat := getElem?_of_ends? hends j
  rw [hwriter, Option.map_some] at hat
  rcases Option.map_eq_some_iff.mp hat.symm with ⟨e, he, hend⟩
  rcases hsharing.replied hreach hledger hwriter hend.symm with ⟨later, earlier, horder, hreply⟩
  rcases hsteps.exists_piece hwriter with ⟨piece', hpiece', hcontinues⟩
  rw [hpiece, Option.some.injEq] at hpiece'
  have hmem := List.mem_of_getElem? hpiece
  have hkeys : ∀ k ∈ piece.keys, k.isComplete = true :=
    fun k hk => h.complete k (Client.mem_of_mem_piece hmem hk)
  have hlimits := scene.store.limits_afterCalls (client.callsOf keys values earlier.reverse)
  have hrefuses : (scene.store.afterCalls (client.callsOf keys values earlier.reverse)).refuses
      piece.keys piece.values = false := by
    have hfirst := hsharing.refuses _ (List.mem_map_of_mem hmem)
    rw [Store.refuses] at hfirst ⊢
    rw [hlimits.1]
    exact hfirst
  rw [he, hreply, hcontinues.keys, hcontinues.values, ← hpiece', storeAfter_dispatched,
    ← Store.slotFor_congr hlimits.2, ← Store.reply_putAll hkeys hrefuses]
  rfl

theorem ends_eq_repliesOf {ends : List Client.TaskEnd} (hends : w.ends? = some ends)
    {order : List Nat} (hledger : Ledger (dispatched client scene ctx keys values) w order) :
    ends = client.repliesOf scene.store keys values := by
  have hsteps := reaches_of_sole (sole_of_smooth hreach)
  apply List.ext_getElem?
  intro j
  rw [Client.repliesOf, List.getElem?_map]
  cases hpiece : (client.pieces keys values)[j]? with
  | some piece => exact ends_of_piece h hreach hends hledger hpiece
  | none =>
      have hnone : w.writers[j]? = none := by
        rw [List.getElem?_eq_none_iff, hsteps.length_writers, length_writers_dispatched]
        exact List.getElem?_eq_none_iff.mp hpiece
      have hat := getElem?_of_ends? hends j
      rw [hnone] at hat
      exact Option.map_eq_none_iff.mp hat.symm

/-- The store holds under every key what one call would have left there. -/
theorem find?_eq_unlimited {ends : List Client.TaskEnd} (hends : w.ends? = some ends) (k : Key) :
    w.scene.store.find? k =
      ({ scene.store with limit := keys.length }.putAll keys values).2.find? k := by
  have hlength := Request.length_eq_of_check h.check
  have hsole := sole_of_smooth hreach
  rcases exists_ledger (sharing_dispatched h).fresh hsole with ⟨order, hledger⟩
  have hfinished (j : Nat) (piece : Client.Piece)
      (hpiece : (client.pieces keys values)[j]? = some piece) :
      ∃ result, w.endAt? j = some (.finished result) ∧ ∀ f, result ≠ Transaction.wholesale f :=
    ⟨_, (endAt?_of_ends? hends j).trans (ends_of_piece h hreach hends hledger hpiece),
      Store.resultOf_ne_wholesale _⟩
  rcases Overlap.exists_writtenPiecemeal h.addressed hlength h.complete
    (Overlap.reaches_of_sole hsole) hfinished with ⟨log, hwritten⟩
  by_cases hk : k ∈ keys
  · have hall : (client.pieces keys values).flatMap Client.Piece.keys = keys :=
      Client.flatMap_keys_pieces_eq h.addressed
    rw [← hall, List.mem_flatMap] at hk
    rcases hk with ⟨piece, hmem, hin⟩
    rcases List.mem_iff_getElem?.mp hmem with ⟨j, hpiece⟩
    apply hwritten.whole j
    intro j' other hother hin'
    by_contra hne
    exact Client.not_mem_of_mem_other_piece h.addressed h.nodup hother hpiece hne hin' hin
  · rw [Client.find?_putAll_unlimited_of_not_mem hlength h.complete hk]
    exact hwritten.others k hk

omit hreach in
/-- One call leaves every key that fits with its value, and nothing else. -/
theorem find?_unlimited {i : Nat} {k : Key} {v : Value} (hk : keys[i]? = some k)
    (hv : values[i]? = some v) :
    ({ scene.store with limit := keys.length }.putAll keys values).2.find? k =
      if v.size <= scene.store.maxEntitySize then some v else scene.store.find? k := by
  have hlength := Request.length_eq_of_check h.check
  rw [Client.find?_putAll_unlimited hlength h.complete, lastValue?_filter_zip h.nodup _ hk hv,
    Store.accepts]
  by_cases hsmall : v.size <= scene.store.maxEntitySize
  · rw [if_pos hsmall, if_pos (decide_eq_true hsmall), Option.some_or]
  · rw [if_neg hsmall, if_neg fun hlarge => hsmall (of_decide_eq_true hlarge), Option.none_or]

/-- What is left of the request is what one call would have left. -/
theorem writtenAsOne {result : Except WriteFailure (List Key)}
    (hresult : w.outcome? client keys values = some result) :
    WrittenAsOne client.config.lockScheme keys values scene w.scene result := by
  have hlength := Request.length_eq_of_check h.check
  have hsharing : (dispatched client scene ctx keys values).Sharing
      (client.config.lockScheme.lockSlots keys) :=
    sharing_dispatched h
  rcases exists_ledger hsharing.fresh (sole_of_smooth hreach) with ⟨order, hledger⟩
  rcases Option.map_eq_some_iff.mp hresult with ⟨ends, hends, houtcome⟩
  rw [ends_eq_repliesOf h hreach hends hledger] at houtcome
  have hstore := find?_eq_unlimited h hreach hends
  have hreply : ({ scene.store with limit := keys.length }.putAll keys values).1 =
      Store.resultOf ((keys.zip values).map scene.store.slotFor) :=
    Store.reply_putAll h.complete (Client.refuses_unlimited scene.store hlength)
  constructor
  case written =>
    intro hfits
    rw [← houtcome]
    exact Client.outcomeOf_repliesOf_of_fits h.addressed hlength hfits
  case rejected =>
    intro hfits
    rw [← houtcome, Client.outcomeOf_repliesOf_of_not_fits h.addressed hlength hfits]
    refine ⟨_, rfl, ?_, fun i k v hk hv => scene.store.getElem?_map_slotFor hk hv⟩
    rw [Slots.size, List.length_map, List.length_zip, ← hlength, Nat.min_self]
  case entity =>
    intro i k v hk hv
    rw [hstore]
    exact find?_unlimited h hk hv
  case others =>
    intro k hk
    rw [hstore]
    exact Client.find?_putAll_unlimited_of_not_mem hlength h.complete hk
  case cache => exact hsharing.cache_eq hreach fun _ hmem => isSome_end?_of_ends? hends hmem
  case reply =>
    rw [hreply, ← houtcome]
    by_cases hfits : ∀ v ∈ values, v.size <= scene.store.maxEntitySize
    · left
      refine ⟨keys, ?_, Client.outcomeOf_repliesOf_of_fits h.addressed hlength hfits⟩
      rw [Store.map_slotFor_of_fits hlength hfits, Store.resultOf_map_ok]
    · right
      exact ⟨_, Store.resultOf_of_not_fits hlength hfits,
        Client.outcomeOf_repliesOf_of_not_fits h.addressed hlength hfits⟩
  case store => exact hstore

end Dispatched

/-- However a request for distinct keys is cut into pieces, and in whatever way their
transactions take turns, it is written as by one call of a store without a limit.
Nothing keeps the transactions from coming to their ends. -/
theorem written_as_one_call {config : Config} {client : Client} {scene : Scene} {ctx : Context}
    {keys : List Key} {values : List Value} {w : World}
    (hclient : Client.create config scene.store.limit = .ok client)
    (hlimit : 0 < scene.store.limit)
    (haddressed : Span.IsAddressed keys.length client.batchSize)
    (hcheck : Request.check keys values = .ok ()) (hcomplete : ∀ k ∈ keys, k.isComplete = true)
    (hnodup : keys.Nodup)
    (hreach : Relation.ReflTransGen SmoothStep (dispatched client scene ctx keys values) w) :
    (∀ result, w.outcome? client keys values = some result ->
      WrittenAsOne client.config.lockScheme keys values scene w.scene result) ∧
    (w.Smooth -> w.Boundless -> ∃ w', Relation.ReflTransGen SmoothStep w w' ∧
      (w'.outcome? client keys values).isSome = true) := by
  have h : client.WritesApart scene.store keys values :=
    ⟨haddressed, Client.batchSize_le_of_create hclient hlimit, hcheck, hcomplete, hnodup⟩
  constructor
  · intro result hresult
    exact writtenAsOne h hreach hresult
  · intro hsmooth hboundless
    rcases (sharing_dispatched h).letsGoOn.exists_ends? ⟨hreach, hsmooth, hboundless⟩ with
      ⟨w', ends, hlast, _, hends⟩
    refine ⟨w', hlast, ?_⟩
    rw [outcome?, hends]
    rfl

/-- A request for two keys, each in a piece of its own.  The second value is too
large, and something is cached for the first key. -/
def halfFitting : World :=
  let slot := LockScheme.slot {} (.numbered "Item" 1)
  let scene : Scene :=
    { store := { maxEntitySize := 4 }
      cache := ({} : Cache).insert slot ⟨⟨slot, [], 0, 0⟩, none⟩ }
  dispatched ⟨{ maxBatchSize := some 1 }, 1⟩ (scene.newRoot "root").2 (scene.newRoot "root").1
    [.numbered "Item" 1, .numbered "Item" 2] [.text "ab", .text "abcdef"]

def halfFittingEnded : World :=
  halfFitting.turns [0, 1, 1, 1, 0, 1, 0, 1, 1, 0, 0, 1, 0, 0]

theorem written_as_one_call_halfFittingEnded :
    WrittenAsOne {} [.numbered "Item" 1, .numbered "Item" 2] [.text "ab", .text "abcdef"]
        halfFitting.scene halfFittingEnded.scene (.error (.positional
          ⟨[.ok (.numbered "Item" 1), .error (Store.oversized (.numbered "Item" 2) 6 4)]⟩)) ∧
      ∃ w, Relation.ReflTransGen SmoothStep halfFitting w ∧
        (w.outcome? ⟨{ maxBatchSize := some 1 }, 1⟩ [.numbered "Item" 1, .numbered "Item" 2]
          [.text "ab", .text "abcdef"]).isSome = true := by
  have hclient : Client.create { maxBatchSize := some 1 } halfFitting.scene.store.limit =
      .ok ⟨{ maxBatchSize := some 1 }, 1⟩ := rfl
  have haddressed : Span.IsAddressed 2 1 := ⟨by decide, by decide⟩
  have hcheck : Request.check [Key.numbered "Item" 1, Key.numbered "Item" 2]
      [Value.text "ab", Value.text "abcdef"] = .ok () := rfl
  have hcomplete : ∀ k ∈ [Key.numbered "Item" 1, Key.numbered "Item" 2],
      k.isComplete = true := by decide
  have hnodup : [Key.numbered "Item" 1, Key.numbered "Item" 2].Nodup := by decide
  have hfaults : halfFitting.scene.faults.OnlyDelay := by
    refine ⟨?_, ?_, rfl, ⟨rfl, rfl, rfl⟩, ⟨rfl, rfl, rfl⟩⟩
    · intro rule hmem
      cases hmem
    · intro rule hmem
      cases hmem
  have hsmooth : halfFitting.Smooth := smooth_dispatched hfaults rfl (Or.inr (by decide))
  have hboundless : halfFitting.Boundless := by
    apply boundless_dispatched rfl
    intro t ht
    cases ht
  have happart : Client.WritesApart ⟨{ maxBatchSize := some 1 }, 1⟩ halfFitting.scene.store
      [.numbered "Item" 1, .numbered "Item" 2] [.text "ab", .text "abcdef"] :=
    ⟨haddressed, by decide, hcheck, hcomplete, hnodup⟩
  have hreach : Relation.ReflTransGen SmoothStep halfFitting halfFittingEnded :=
    (sharing_dispatched happart).letsGoOn.turns
      ⟨Relation.ReflTransGen.refl, hsmooth, hboundless⟩ _
  have hended := @written_as_one_call _ _ _ _ [.numbered "Item" 1, .numbered "Item" 2]
    [.text "ab", .text "abcdef"] _ hclient (by decide) haddressed hcheck hcomplete hnodup hreach
  have hbegin : Relation.ReflTransGen SmoothStep halfFitting halfFitting :=
    Relation.ReflTransGen.refl
  have hbegun := @written_as_one_call _ _ _ _ [.numbered "Item" 1, .numbered "Item" 2]
    [.text "ab", .text "abcdef"] _ hclient (by decide) haddressed hcheck hcomplete hnodup hbegin
  exact ⟨hended.1 _ rfl, hbegun.2 hsmooth hboundless⟩

end World
end Simulation
end WriteLatch
