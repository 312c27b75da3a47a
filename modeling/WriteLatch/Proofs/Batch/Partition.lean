import WriteLatch.Proofs.Batch.Transparency
import WriteLatch.Proofs.Interleaving.Journal

/-!
# A request in its pieces

A client cuts a request into pieces of the size that its settings and the limit
of its store allow: each of them the keys and the values of one span, none of
them empty, and all of them in a row the request.  The locks of the pieces are
the locks of the request, and the store does not find any piece too large.  In
whatever order the transactions take turns, the store is called once for every
piece, provided that the locks are set and the time of the write does not run
out.  A write that returns has noted just these calls.
-/

namespace WriteLatch

open Transaction (Call)

/-!
## Locks of a row of pieces
-/

namespace LockScheme

variable {α : Type} (scheme : LockScheme) (xs : List α) (f : α -> List Key)

theorem lockItems_flatMap :
    scheme.lockItems (xs.flatMap f) = xs.flatMap fun x => scheme.lockItems (f x) := by
  simp only [lockItems, List.filter_flatMap, List.map_flatMap]

theorem lockSlots_flatMap :
    scheme.lockSlots (xs.flatMap f) = xs.flatMap fun x => scheme.lockSlots (f x) := by
  simp only [lockSlots, List.filter_flatMap, List.map_flatMap]

end LockScheme

namespace Client

/-!
## The size of a piece
-/

theorem maxBatchSize_pos_of_check {config : Config} (h : config.check = .ok ()) {most : Nat}
    (hmost : config.maxBatchSize = some most) : 0 < most := by
  apply Nat.pos_of_ne_zero
  intro hzero
  rw [Config.check, hmost, hzero, if_pos rfl] at h
  cases h

/-- The setting lowers the limit of the store and never raises it. -/
theorem batchSize_of_create {config : Config} {limit : Nat} {c : Client}
    (h : create config limit = .ok c) (hpos : 0 < limit) :
    c.batchSize = match config.maxBatchSize with
      | some most => min most limit
      | none => limit := by
  rcases eq_of_create h with ⟨hcheck, hclient⟩
  rw [hclient, Config.batchSize]
  cases hmost : config.maxBatchSize with
  | none => exact Nat.max_eq_right hpos
  | some most =>
      have hmost := maxBatchSize_pos_of_check hcheck hmost
      exact Nat.max_eq_right (Nat.le_min.mpr ⟨hmost, hpos⟩)

/-!
## The pieces of a request
-/

/-- The pieces are the request, cut at the multiples of the size, for a store of
the given limit. -/
structure Partitions (c : Client) (limit : Nat) (keys : List Key) (values : List Value) :
    Prop where
  count : (c.pieces keys values).length = (keys.length + c.batchSize - 1) / c.batchSize
  piece : ∀ (j : Nat) (piece : Piece), (c.pieces keys values)[j]? = some piece ->
    let span : Span := ⟨j * c.batchSize, min ((j + 1) * c.batchSize) keys.length⟩
    piece.keys = span.slice keys ∧ piece.values = span.slice values
  size : ∀ piece ∈ c.pieces keys values, 1 <= piece.keys.length ∧
    piece.keys.length <= c.batchSize ∧ piece.values.length = piece.keys.length
  pairs : (c.pieces keys values).flatMap (fun piece => piece.keys.zip piece.values) =
    keys.zip values
  items : (c.pieces keys values).flatMap (fun piece => c.config.lockScheme.lockItems piece.keys) =
    c.config.lockScheme.lockItems keys
  slots : (c.pieces keys values).flatMap (fun piece => c.config.lockScheme.lockSlots piece.keys) =
    c.config.lockScheme.lockSlots keys
  accepted : ∀ s : Store, s.limit = limit -> ∀ piece ∈ c.pieces keys values,
    s.refuses piece.keys piece.values = false

section Pieces

variable {c : Client} {limit : Nat} {keys : List Key} {values : List Value}

/-- Where a piece begins and ends. -/
theorem span_eq_of_piece (haddressed : Span.IsAddressed keys.length c.batchSize)
    (hpos : 0 < c.batchSize) {j : Nat} {piece : Piece}
    (hpiece : (c.pieces keys values)[j]? = some piece) :
    piece.span = ⟨j * c.batchSize, min ((j + 1) * c.batchSize) keys.length⟩ := by
  rcases Span.getElem?_split (getElem?_map_span_pieces hpiece).1 with ⟨hlt, hspan⟩
  have hsize : max c.batchSize 1 = c.batchSize := Nat.max_eq_left hpos
  rw [hspan, haddressed.piece_eq hlt, hsize, Nat.succ_mul]

theorem partitions (haddressed : Span.IsAddressed keys.length c.batchSize)
    (hpos : 0 < c.batchSize) (hle : c.batchSize <= limit)
    (hlength : keys.length = values.length) : c.Partitions limit keys values where
  count := by
    rw [length_pieces, Span.length_split, Span.pieceCount, Nat.max_eq_left hpos]
  piece := by
    intro j piece hpiece
    rw [← span_eq_of_piece haddressed hpos hpiece]
    have hslices := (getElem?_map_span_pieces hpiece).2
    exact ⟨congrArg Piece.keys hslices, congrArg Piece.values hslices⟩
  size := by
    intro piece hmem
    have hspan : piece.span ∈ Span.split keys.length c.batchSize := by
      rw [← map_span_pieces c keys values]
      exact List.mem_map_of_mem hmem
    have hmost := length_keys_le_of_mem_pieces hmem
    rw [Nat.max_eq_left hpos] at hmost
    refine ⟨?_, hmost, (length_keys_eq_of_mem_pieces hlength hmem).symm⟩
    rw [length_keys_of_mem_pieces hmem]
    exact haddressed.size_pos hspan
  pairs := flatMap_zip_pieces_eq haddressed hlength
  items := by
    rw [← LockScheme.lockItems_flatMap, flatMap_keys_pieces_eq haddressed]
  slots := by
    rw [← LockScheme.lockSlots_flatMap, flatMap_keys_pieces_eq haddressed]
  accepted := by
    intro s hlimit piece hmem
    apply refuses_piece_eq_false _ hlength hmem
    rw [hlimit]
    exact Nat.max_le.mpr ⟨hle, Nat.le_trans hpos hle⟩

end Pieces

/-- Every transaction of a request has set its locks and called the store once
each, in this order, and then has given its locks back or has been kept from it.
So there is one call of the store for every piece. -/
structure AsksOnce (c : Client) (keys : List Key) (values : List Value)
    (calls : List (Nat × Call)) : Prop where
  own : ∀ (j : Nat) (piece : Piece), (c.pieces keys values)[j]? = some piece ->
    ∃ made, Simulation.World.callsBy j calls =
      .set (c.config.lockScheme.lockItems piece.keys) :: .put piece.keys piece.values ::
        Simulation.asked made (.delete (c.config.lockScheme.lockSlots piece.keys))
  puts : (Simulation.putsIn calls).Perm
    ((c.pieces keys values).zipIdx.map fun piece => (piece.2, piece.1.keys, piece.1.values))

/-- The store is noted to have been called with the keys of every piece once. -/
theorem AsksOnce.filterMap_putKeys? {c : Client} {keys : List Key} {values : List Value}
    {calls : List (Nat × Call)} {notes : List CollaboratorCall} (h : c.AsksOnce keys values calls)
    (hnoted : Simulation.Noted calls notes) :
    (notes.filterMap CollaboratorCall.putKeys?).Perm ((c.pieces keys values).map Piece.keys) := by
  have hputs := h.puts.map fun given => given.2.1
  rw [← hnoted.filterMap_putKeys?, List.map_map] at hputs
  have hkeys : (c.pieces keys values).zipIdx.map ((fun given => given.2.1) ∘
      fun piece : Piece × Nat => (piece.2, piece.1.keys, piece.1.values)) =
        ((c.pieces keys values).zipIdx.map Prod.fst).map Piece.keys := by
    rw [List.map_map]
    rfl
  rw [hkeys, List.zipIdx_map_fst] at hputs
  exact hputs

end Client

namespace Simulation
namespace World

/-!
## Every piece is written
-/

/-- The locks of as many pieces have been set. -/
def LocksSet (w : World) (count : Nat) : Prop :=
  ∀ j < count, ∃ now items, ⟨some j, .set now items⟩ ∈ w.history

section Dispatched

variable {client : Client} {scene : Scene} {ctx : Context} {keys : List Key}
  {values : List Value} {w : World} {calls : List (Nat × Call)}

theorem Asks.calls_of_set (h : Asks (dispatched client scene ctx keys values) w calls)
    (hended : w.ends?.isSome = true)
    (hover : (client.bounded scene.now ctx).isOver w.scene.tokens w.scene.now = false)
    {j : Nat} {piece : Client.Piece} (hpiece : (client.pieces keys values)[j]? = some piece)
    (hset : ∃ now items, ⟨some j, .set now items⟩ ∈ w.history) :
    ∃ made, callsBy j calls =
      .set (client.config.lockScheme.lockItems piece.keys) :: .put piece.keys piece.values ::
        Simulation.asked made (.delete (client.config.lockScheme.lockSlots piece.keys)) := by
  have hlt : j < w.writers.length := by
    rw [h.reaches.length_writers, length_writers_dispatched]
    exact (List.getElem?_eq_some_iff.mp hpiece).1
  have hwriter := List.getElem?_eq_getElem hlt
  generalize w.writers[j] = writer at hwriter
  rcases h.reaches.exists_piece hwriter with ⟨piece', hpiece', hcontinues⟩
  rw [hpiece, Option.some.injEq] at hpiece'
  rw [← hpiece'] at hcontinues
  rcases Option.isSome_iff_exists.mp hended with ⟨ends, hends⟩
  have hfinished := isSome_end?_of_ends? hends (List.mem_of_getElem? hwriter)
  rcases Option.isSome_iff_exists.mp hfinished with ⟨e, hend⟩
  have hasked := h.asked (fresh_dispatched _ _ _ _ _) hwriter
  rw [Run.stage_of_end? hend, hcontinues.ctx, hcontinues.job_eq] at hasked
  rcases hset with ⟨now, items, hmem⟩
  exact hasked.of_set ⟨now, items, mem_deedsIn.mpr hmem⟩ hover

theorem Asks.asksOnce (h : Asks (dispatched client scene ctx keys values) w calls)
    (hended : w.ends?.isSome = true)
    (hover : (client.bounded scene.now ctx).isOver w.scene.tokens w.scene.now = false)
    (hset : w.LocksSet (client.pieces keys values).length) : client.AsksOnce keys values calls where
  own := by
    intro j piece hpiece
    exact h.calls_of_set hended hover hpiece (hset j (List.getElem?_eq_some_iff.mp hpiece).1)
  puts := by
    apply putsIn_perm (f := fun piece : Client.Piece => (piece.keys, piece.values))
    · rw [← length_writers_dispatched client scene ctx, ← h.reaches.length_writers]
      exact h.known
    · intro j piece hpiece
      rcases h.calls_of_set hended hover hpiece
        (hset j (List.getElem?_eq_some_iff.mp hpiece).1) with ⟨made, hcalls⟩
      rw [hcalls]
      cases made <;> rfl

/-- A store that nobody else writes to answers every piece key by key. -/
theorem putAll_ne_wholesale_of_sole {limit : Nat} (hparts : client.Partitions limit keys values)
    (hlimit : scene.store.limit = limit)
    (hreach : Relation.ReflTransGen SoleStep (dispatched client scene ctx keys values) w)
    {piece : Client.Piece} (hmem : piece ∈ client.pieces keys values) (f : Failure) :
    (w.scene.store.putAll piece.keys piece.values).1 ≠ Transaction.wholesale f := by
  rcases exists_ledger (fresh_dispatched _ _ _ _ _) hreach with ⟨order, hledger⟩
  apply Run.putAll_ne_wholesale
  apply hparts.accepted _ _ _ hmem
  rw [hledger.store, storeAfter_dispatched, (Store.limits_afterCalls _ _).1, hlimit]

end Dispatched

end World

namespace Session

/-- What a write has noted of its calls when it returns. -/
theorem Ended.exists_notes {s s' : Session} {ctx : Context} {keys : List Key}
    {values : List Value} {result : Except WriteFailure (List Key)} {w : World}
    (h : Ended s s' ctx keys values result w)
    (hover : (s.client.bounded s.scene.now ctx).isOver s'.scene.tokens s'.scene.now = false)
    (hset : w.LocksSet (s.client.pieces keys values).length) :
    ∃ calls notes, World.Asks (World.dispatched s.client s.scene ctx keys values) w calls ∧
      s'.scene.journal.calls = s.scene.journal.calls ++ notes ∧ Noted calls notes ∧
      s.client.AsksOnce keys values calls ∧
      (notes.filterMap CollaboratorCall.putKeys?).Perm
        ((s.client.pieces keys values).map Client.Piece.keys) := by
  rcases World.Asks.start.exists_notes h.moves with ⟨calls, notes, hasks, hjournal, hnoted⟩
  have hends : w.ends?.isSome = true := by
    rcases Option.map_eq_some_iff.mp h.outcome with ⟨ends, hends, _⟩
    exact Option.isSome_of_eq_some hends
  have hgoesOn : (s.client.bounded s.scene.now ctx).isOver w.scene.tokens w.scene.now = false := by
    by_contra hlate
    rw [Bool.not_eq_false] at hlate
    rw [h.quiet.isOver hlate] at hover
    cases hover
  have honce := hasks.asksOnce hends hgoesOn hset
  exact ⟨calls, notes, hasks, h.calls.trans hjournal, hnoted, honce,
    honce.filterMap_putKeys? hnoted⟩

end Session

namespace World

/-- A request is cut into pieces of the size that the settings and the limit of the
store allow, and the store is called once with every piece, in whatever order the
transactions take turns.  They can always come to their ends, and a write that
returns has noted these calls and no others. -/
theorem called_once_with_every_piece {config : Config} {limit : Nat} {client : Client}
    {keys : List Key} {values : List Value} (hclient : Client.create config limit = .ok client)
    (hlimit : 0 < limit) (haddressed : Span.IsAddressed keys.length limit)
    (hcheck : Request.check keys values = .ok ()) :
    (client.batchSize = match config.maxBatchSize with
      | some most => min most limit
      | none => limit) ∧
    client.batchSize <= limit ∧
    client.Partitions limit keys values ∧
    (∀ (scene : Scene) (ctx : Context) (w : World) (calls : List (Nat × Call)),
      Asks (dispatched client scene ctx keys values) w calls -> w.ends?.isSome = true ->
        (client.bounded scene.now ctx).isOver w.scene.tokens w.scene.now = false ->
          w.LocksSet (client.pieces keys values).length -> client.AsksOnce keys values calls) ∧
    (∀ (scene : Scene) (ctx : Context) (w : World),
      Reaches (dispatched client scene ctx keys values) w ->
        ∃ w' calls, Reaches w w' ∧ Asks (dispatched client scene ctx keys values) w' calls ∧
          w'.ends?.isSome = true) ∧
    (∀ (scene : Scene) (ctx : Context) (w : World), scene.store.limit = limit ->
      Relation.ReflTransGen SoleStep (dispatched client scene ctx keys values) w ->
        ∀ piece ∈ client.pieces keys values, ∀ f : Failure,
          (w.scene.store.putAll piece.keys piece.values).1 ≠ Transaction.wholesale f) ∧
    ∀ (s s' : Session) (ctx : Context) (giveUp : Option Millis)
      (result : Except WriteFailure (List Key)),
      s.client = client -> s.schedule.tasks = [] -> s.scene.scheme = client.config.lockScheme ->
        s.writeMany ctx keys values giveUp = (s', .written result) ->
          (∃ w, Session.Ended s s' ctx keys values result w) ∧
          ((client.bounded s.scene.now ctx).isOver s'.scene.tokens s'.scene.now = false ->
            ∀ w, Session.Ended s s' ctx keys values result w ->
              w.LocksSet (client.pieces keys values).length ->
                ∃ calls notes, Asks (dispatched client s.scene ctx keys values) w calls ∧
                  s'.scene.journal.calls = s.scene.journal.calls ++ notes ∧ Noted calls notes ∧
                  client.AsksOnce keys values calls ∧
                  (notes.filterMap CollaboratorCall.putKeys?).Perm
                    ((client.pieces keys values).map Client.Piece.keys)) := by
  have hsize := Client.batchSize_of_create hclient hlimit
  have hle : client.batchSize <= limit :=
    Nat.le_trans (Nat.le_max_left _ _) (Client.batchSize_le_of_create hclient hlimit)
  have hpos : 0 < client.batchSize := Client.batchSize_pos_of_create hclient
  have hparts : client.Partitions limit keys values :=
    Client.partitions ⟨haddressed.count, Nat.lt_of_le_of_lt hle haddressed.limit⟩ hpos hle
      (Request.length_eq_of_check hcheck)
  refine ⟨hsize, hle, hparts, ?ended, ?progress, ?answers, ?session⟩
  case ended =>
    intro scene ctx w calls hasks hended hover hset
    exact hasks.asksOnce hended hover hset
  case progress =>
    intro scene ctx w hreach
    rcases letsGoOn_step.exists_ends? (w := w) trivial with ⟨w', ends, hlast, _, hends⟩
    rcases Asks.start.exists_reaches (hreach.trans hlast) with ⟨calls, hcalls⟩
    exact ⟨w', calls, hlast, hcalls, Option.isSome_of_eq_some hends⟩
  case answers =>
    intro scene ctx w hstore hreach piece hmem f
    exact putAll_ne_wholesale_of_sole hparts hstore hreach hmem f
  case session =>
    intro s s' ctx giveUp result hsame htasks hscheme hwritten
    rw [← hsame] at hscheme ⊢
    constructor
    · have hresult : (s.writeMany ctx keys values giveUp).2 = .written result := by rw [hwritten]
      have hended := Session.exists_ended_of_writeMany htasks hscheme hcheck hresult
      rw [hwritten] at hended
      exact hended
    · intro hover w hended hset
      exact hended.exists_notes hover hset

/-- A client that may write two keys at a time. -/
def inPairs : Client :=
  ⟨{ maxBatchSize := some 2 }, 2⟩

def threeKeys : List Key :=
  [.numbered "Item" 5, .incomplete "Item", .numbered "Item" 7]

def threeValues : List Value :=
  [.int 1, .int 2, .int 3]

/-- A session of this client, in which nothing has been written. -/
def pairing : Session :=
  ⟨inPairs, { scene := (Scene.newRoot {} "root").2 }⟩

def threeSent : World :=
  dispatched inPairs pairing.scene (Scene.newRoot {} "root").1 threeKeys threeValues

/-- One transaction after the other. -/
def threeWritten : World :=
  threeSent.turns [0, 0, 0, 0, 0, 0, 0, 1, 1, 1, 1, 1, 1, 1]

/-- The session after it has waited for the request. -/
def paired : Session :=
  (pairing.writeMany (Scene.newRoot {} "root").1 threeKeys threeValues none).1

def threeNotes : List CollaboratorCall :=
  let scheme := inPairs.config.lockScheme
  [.newContext, .set (scheme.lockItems [.numbered "Item" 5]),
    .put [.numbered "Item" 5, .incomplete "Item"] [true, false],
    .delete (scheme.lockSlots [.numbered "Item" 5]),
    .newContext, .set (scheme.lockItems [.numbered "Item" 7]),
    .put [.numbered "Item" 7] [true], .delete (scheme.lockSlots [.numbered "Item" 7])]

theorem calls_paired : paired.scene.journal.calls = threeNotes := rfl

theorem ended_threeWritten : Session.Ended pairing paired (Scene.newRoot {} "root").1 threeKeys
    threeValues (.ok [.numbered "Item" 5, .numbered "Item" 1, .numbered "Item" 7])
    threeWritten where
  moves := threeSent.own_turns _
  outcome := rfl
  quiet := by
    have hbefore : threeWritten.scene.cache = {} := rfl
    have hafter : paired.scene.cache = {} := rfl
    have hcancelled : threeWritten.scene.tokens.cancelled = [] := rfl
    have hcounter : paired.scene.journal.total .failedReleases = 0 := rfl
    constructor
    · decide +kernel
    · decide +kernel
    · intro t hmem
      rw [hcancelled] at hmem
      cases hmem
    · rw [hbefore, hafter]
      exact Cache.fades_refl _ _
    · exact hcounter
  calls := calls_paired

theorem locksSet_threeWritten : threeWritten.LocksSet 2 := by
  intro j hj
  match j, hj with
  | 0, _ => exact ⟨_, _, List.mem_of_getElem? (i := 3) rfl⟩
  | 1, _ => exact ⟨_, _, List.mem_of_getElem? (i := 1) rfl⟩

/-- Two calls, of the first two keys and of the last one, whether the transactions
take turns or go one after the other. -/
theorem called_once_with_every_piece_threeKeys :
    inPairs.AsksOnce threeKeys threeValues
        (threeSent.callsIn [1, 0, 0, 1, 1, 1, 0, 1, 0, 1, 0, 0, 1, 0]) ∧
      (paired.scene.journal.calls.filterMap CollaboratorCall.putKeys?).Perm
        [[.numbered "Item" 5, .incomplete "Item"], [.numbered "Item" 7]] := by
  have hclient : Client.create { maxBatchSize := some 2 } 500 = .ok inPairs := rfl
  have haddressed : Span.IsAddressed threeKeys.length 500 := ⟨by decide, by decide⟩
  have hcheck : Request.check threeKeys threeValues = .ok () := rfl
  have hall := called_once_with_every_piece hclient (by decide) haddressed hcheck
  rcases hall with ⟨_, _, _, hended, _, _, hsession⟩
  constructor
  · have hasks : Asks threeSent (threeSent.turns [1, 0, 0, 1, 1, 1, 0, 1, 0, 1, 0, 0, 1, 0])
        (threeSent.callsIn [1, 0, 0, 1, 1, 1, 0, 1, 0, 1, 0, 0, 1, 0]) := Asks.start.turns _
    apply hended _ _ _ _ hasks rfl rfl
    intro j hj
    match j, hj with
    | 0, _ => exact ⟨_, _, List.mem_of_getElem? (i := 2) rfl⟩
    | 1, _ => exact ⟨_, _, List.mem_of_getElem? (i := 3) rfl⟩
  · have hreturned : pairing.writeMany (Scene.newRoot {} "root").1 threeKeys threeValues none =
        (paired, .written (.ok [.numbered "Item" 5, .numbered "Item" 1, .numbered "Item" 7])) :=
      rfl
    have hwritten := hsession pairing paired _ none _ rfl rfl rfl hreturned
    have hgoesOn : (inPairs.bounded pairing.scene.now (Scene.newRoot {} "root").1).isOver
      paired.scene.tokens paired.scene.now = false := by decide +kernel
    rcases hwritten.2 hgoesOn _ ended_threeWritten locksSet_threeWritten with
      ⟨calls, notes, _, hjournal, _, _, hperm⟩
    have hnotes : paired.scene.journal.calls = notes := hjournal
    rw [hnotes]
    exact hperm

end World
end Simulation
end WriteLatch
