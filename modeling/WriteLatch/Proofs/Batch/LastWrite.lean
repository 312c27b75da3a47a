import WriteLatch.Proofs.Batch.Outcome
import WriteLatch.Proofs.Interleaving.Overlap
import WriteLatch.Proofs.Locks.Coverage

/-!
# Keys that repeat

A key may stand at several positions of a request.  Within a piece the last of
them stays, but the pieces are written at the same time, entity by entity, and
which of them comes last to a key is settled for every key on its own.  A key
whose positions all lie in one piece is left as by one call for the whole
request.
-/

namespace WriteLatch

/-!
## The last write under a key
-/

/-- The last write under a key was made by the transaction at a position. -/
def LastWrite (log : List (Nat × Key × Value)) (k : Key) (j : Nat) : Prop :=
  ∃ earlier v later, log = earlier ++ (j, k, v) :: later ∧ ∀ write ∈ later, write.2.1 ≠ k

theorem exists_lastWrite {log : List (Nat × Key × Value)} {k : Key}
    (h : ∃ write ∈ log, write.2.1 = k) : ∃ j, LastWrite log k j := by
  induction log with
  | nil =>
      rcases h with ⟨write, hmem, _⟩
      cases hmem
  | cons first rest ih =>
      by_cases hrest : ∃ write ∈ rest, write.2.1 = k
      · rcases ih hrest with ⟨j, earlier, v, later, hlog, hlater⟩
        exact ⟨j, first :: earlier, v, later, congrArg (first :: ·) hlog, hlater⟩
      · rcases h with ⟨write, hmem, hkey⟩
        rcases List.mem_cons.mp hmem with hfirst | hin
        · refine ⟨first.1, [], first.2.2, rest, ?_, ?_⟩
          · rw [← hkey, hfirst]
            rfl
          · intro other hother heq
            exact hrest ⟨other, hother, heq⟩
        · exact absurd ⟨write, hin, hkey⟩ hrest

section Parts

open Simulation.Overlap

theorem partOf_filter (log : List (Nat × Key × Value)) (p : Key × Value -> Bool) (j : Nat) :
    partOf (log.filter fun write => p write.2) j = (partOf log j).filter p := by
  rw [partOf, partOf, List.filter_map, List.filter_filter, List.filter_filter]
  simp only [Function.comp_def, Bool.and_comm]

variable {log : List (Nat × Key × Value)} {parts : Nat -> List (Key × Value)} {k : Key} {j : Nat}
  {n : Nat}

theorem LastWrite.mem_partOf (h : LastWrite log k j) : ∃ v, (k, v) ∈ partOf log j := by
  rcases h with ⟨earlier, v, later, hlog, _⟩
  rw [hlog]
  exact ⟨v, Simulation.Overlap.mem_partOf.mpr (List.mem_append_right _ List.mem_cons_self)⟩

/-- The value that was written last stands at the last position of the key in the part of
the transaction that has written it. -/
theorem LastWrite.lastValue?_eq (h : LastWrite log k j) :
    ∃ v, lastValue? (log.map Prod.snd) k = some v ∧ lastValue? (partOf log j) k = some v := by
  rcases h with ⟨earlier, v, later, hlog, hlater⟩
  have hvalue {rest : List (Key × Value)} (before : List (Key × Value))
      (hrest : ∀ entry ∈ rest, entry.1 ≠ k) :
      lastValue? (before ++ (k, v) :: rest) k = some v := by
    rw [lastValue?_append, lastValue?_cons, lastValue?_eq_none hrest, if_pos rfl]
    rfl
  refine ⟨v, ?_, ?_⟩
  · rw [hlog, List.map_append, List.map_cons]
    apply hvalue
    intro entry hmem
    rcases List.mem_map.mp hmem with ⟨write, hwrite, heq⟩
    rw [← heq]
    exact hlater write hwrite
  · rw [hlog, partOf_append, partOf_cons_self]
    apply hvalue
    intro entry hmem
    exact hlater _ (Simulation.Overlap.mem_partOf.mp hmem)

variable (hparts : ∀ i, partOf log i = parts i) (hpast : ∀ i, n <= i -> parts i = [])
include hparts hpast

/-- Where the last write under a key belongs to the last part that has the key, the
parts come to the same value one after another. -/
theorem LastWrite.lastValue?_flatMap (h : LastWrite log k j)
    (hlast : ∀ i, j < i -> ∀ entry ∈ parts i, entry.1 ≠ k) :
    lastValue? ((List.range n).flatMap parts) k = lastValue? (log.map Prod.snd) k := by
  rcases h.lastValue?_eq with ⟨v, hlog, hpart⟩
  have hlt : j < n := by
    by_contra hge
    rw [hparts, hpast j (Nat.le_of_not_lt hge)] at hpart
    cases hpart
  rcases List.append_of_mem (List.mem_range.mpr hlt) with ⟨before, after, hrange⟩
  have hafter : ∀ i ∈ after, j < i := by
    have hsorted : (List.range n).Pairwise (· < ·) := List.pairwise_lt_range
    rw [hrange, List.pairwise_append, List.pairwise_cons] at hsorted
    exact hsorted.2.1.1
  have habsent : lastValue? (after.flatMap parts) k = none := by
    apply lastValue?_eq_none
    intro entry hmem
    rcases List.mem_flatMap.mp hmem with ⟨i, hi, hentry⟩
    exact hlast i (hafter i hi) entry hentry
  rw [hlog, hrange, List.flatMap_append, List.flatMap_cons, lastValue?_append, lastValue?_append,
    habsent, ← hparts j, hpart]
  rfl

/-- So it is where only one part has the key at all. -/
theorem lastValue?_flatMap_of_alone (halone : ∀ i, i ≠ j -> ∀ entry ∈ parts i, entry.1 ≠ k) :
    lastValue? ((List.range n).flatMap parts) k = lastValue? (log.map Prod.snd) k := by
  by_cases hsome : ∃ write ∈ log, write.2.1 = k
  · rcases exists_lastWrite hsome with ⟨i, hwrite⟩
    rcases hwrite.mem_partOf with ⟨v, hmem⟩
    rw [hparts] at hmem
    have hij : i = j := by
      by_contra hne
      exact halone i hne _ hmem rfl
    apply hwrite.lastValue?_flatMap hparts hpast
    intro i' hlt
    exact halone i' (Nat.ne_of_gt (hij ▸ hlt))
  · rw [lastValue?_eq_none, lastValue?_eq_none]
    · intro entry hmem heq
      rcases List.mem_map.mp hmem with ⟨write, hwrite, hentry⟩
      rw [← hentry] at heq
      exact hsome ⟨write, hwrite, heq⟩
    · intro entry hmem heq
      rcases List.mem_flatMap.mp hmem with ⟨i, _, hentry⟩
      rw [← hparts i] at hentry
      exact hsome ⟨_, Simulation.Overlap.mem_partOf.mp hentry, heq⟩

end Parts

/-- A key in a row has a last position there. -/
theorem exists_last_position {keys : List Key} {k : Key} (h : k ∈ keys) :
    ∃ l : Nat, keys[l]? = some k ∧ ∀ l', l < l' -> keys[l']? ≠ some k := by
  induction keys with
  | nil => cases h
  | cons first rest ih =>
      by_cases hrest : k ∈ rest
      · rcases ih hrest with ⟨l, hl, hlast⟩
        refine ⟨l + 1, hl, ?_⟩
        intro l' hlt
        cases l' with
        | zero => cases hlt
        | succ l' => exact hlast l' (Nat.lt_of_succ_lt_succ hlt)
      · refine ⟨0, congrArg some ((List.mem_cons.mp h).resolve_right hrest).symm, ?_⟩
        intro l' hlt hl'
        cases l' with
        | zero => cases hlt
        | succ l' => exact hrest (List.mem_of_getElem? hl')

namespace Client

/-!
## Entries of a request, piece by piece
-/

section Pieces

variable {c : Client} {s : Store} {keys : List Key} {values : List Value} {j : Nat}

/-- The entries of the piece at a position. -/
def entriesAt (c : Client) (keys : List Key) (values : List Value) (j : Nat) :
    List (Key × Value) :=
  match (c.pieces keys values)[j]? with
  | some piece => piece.keys.zip piece.values
  | none => []

theorem entriesAt_of_piece {piece : Piece} (h : (c.pieces keys values)[j]? = some piece) :
    c.entriesAt keys values j = piece.keys.zip piece.values := by
  rw [entriesAt, h]

theorem entriesAt_of_length_le (h : (c.pieces keys values).length <= j) :
    c.entriesAt keys values j = [] := by
  rw [entriesAt, List.getElem?_eq_none h]

/-- The pieces in the order of the request hold its entries in their order. -/
theorem flatMap_entriesAt_range (haddressed : Span.IsAddressed keys.length c.batchSize)
    (hlength : keys.length = values.length) :
    (List.range (c.pieces keys values).length).flatMap (c.entriesAt keys values) =
      keys.zip values := by
  rw [← flatMap_zip_pieces_eq haddressed hlength]
  exact flatMap_range fun _ _ => entriesAt_of_piece

theorem exists_piece_of_mem_entriesAt {entry : Key × Value}
    (h : entry ∈ c.entriesAt keys values j) :
    ∃ piece, (c.pieces keys values)[j]? = some piece ∧ entry ∈ piece.keys.zip piece.values := by
  cases hpiece : (c.pieces keys values)[j]? with
  | none =>
      rw [entriesAt, hpiece] at h
      cases h
  | some piece =>
      rw [entriesAt_of_piece hpiece] at h
      exact ⟨piece, rfl, h⟩

/-- A key that no piece has at a position is not among the entries there. -/
theorem ne_of_mem_entriesAt {k : Key}
    (h : ∀ piece, (c.pieces keys values)[j]? = some piece -> k ∉ piece.keys) :
    ∀ entry ∈ c.entriesAt keys values j, entry.1 ≠ k := by
  intro entry hentry heq
  rcases exists_piece_of_mem_entriesAt hentry with ⟨piece, hpiece, hin⟩
  have hkey := (List.of_mem_zip hin).1
  rw [heq] at hkey
  exact h piece hpiece hkey

end Pieces

/-!
## One call for the whole request
-/

section Unlimited

variable {keys : List Key} {values : List Value}

theorem refuses_unlimited (before : Store) (hlength : keys.length = values.length) :
    Store.refuses { before with limit := keys.length } keys values = false := by
  rw [Store.refuses, hlength, bne_self_eq_false, Bool.or_false, decide_eq_false_iff_not]
  exact Nat.lt_irrefl _

variable {before : Store} (hlength : keys.length = values.length)
  (hcomplete : ∀ k ∈ keys, k.isComplete = true)
include hlength hcomplete

/-- One call for all of a request writes its entries in order. -/
theorem find?_putAll_unlimited (k : Key) :
    ({ before with limit := keys.length }.putAll keys values).2.find? k =
      (lastValue? ((keys.zip values).filter before.accepts) k).or (before.find? k) := by
  rw [Store.find?_putAll values hcomplete, Store.entriesOf, refuses_unlimited before hlength,
    if_neg Bool.false_ne_true]
  rfl

theorem find?_putAll_unlimited_of_not_mem {k : Key} (hk : k ∉ keys) :
    ({ before with limit := keys.length }.putAll keys values).2.find? k = before.find? k := by
  rw [find?_putAll_unlimited hlength hcomplete, lastValue?_eq_none, Option.none_or]
  intro entry hmem heq
  have hin := (List.of_mem_zip (List.mem_filter.mp hmem).1).1
  rw [heq] at hin
  exact hk hin

end Unlimited

/-- Values that are small enough are all accepted. -/
theorem filter_accepts_of_fits {s : Store} {values : List Value} {entries : List (Key × Value)}
    (hfits : ∀ v ∈ values, v.size <= s.maxEntitySize)
    (hentries : ∀ entry ∈ entries, entry.2 ∈ values) : entries.filter s.accepts = entries := by
  rw [List.filter_eq_self]
  intro entry hmem
  rw [Store.accepts, decide_eq_true_eq]
  exact hfits entry.2 (hentries entry hmem)

/-- It leaves the value at the last position of a key. -/
theorem find?_putAll_unlimited_of_last {before : Store} {keys : List Key} {values : List Value}
    (hlength : keys.length = values.length) (hcomplete : ∀ k ∈ keys, k.isComplete = true)
    (hfits : ∀ v ∈ values, v.size <= before.maxEntitySize) {i : Nat} {k : Key}
    (hi : keys[i]? = some k) (hlast : ∀ j, i < j -> keys[j]? ≠ some k) :
    ({ before with limit := keys.length }.putAll keys values).2.find? k = values[i]? := by
  have hlt : i < values.length := by
    rw [← hlength]
    exact (List.getElem?_eq_some_iff.mp hi).1
  rw [find?_putAll_unlimited hlength hcomplete,
    filter_accepts_of_fits hfits fun _ hmem => (List.of_mem_zip hmem).2,
    lastValue?_zip hlength hi hlast, List.getElem?_eq_getElem hlt, Option.some_or]

/-!
## The store after the pieces of a request
-/

/-- What a request leaves in a store when its pieces were written at the same time, by all
that was written, one entity after another. -/
structure WrittenPiecemeal (c : Client) (keys : List Key) (values : List Value)
    (before after : Store) (log : List (Nat × Key × Value)) : Prop where
  /-- Every piece was written in its order, and nothing else was. -/
  parts : ∀ j, Simulation.Overlap.partOf log j = c.entriesAt keys values j
  found : ∀ k, after.find? k =
    (lastValue? ((log.map Prod.snd).filter before.accepts) k).or (before.find? k)
  others : ∀ k, k ∉ keys -> after.find? k = before.find? k
  /-- Every key has the value at its last position in the piece that has written it last. -/
  last : (∀ v ∈ values, v.size <= before.maxEntitySize) -> ∀ k ∈ keys,
    ∃ (j : Nat) (piece : Piece) (l : Nat), LastWrite log k j ∧
      (c.pieces keys values)[j]? = some piece ∧ piece.keys[l]? = some k ∧
        (∀ l', l < l' -> piece.keys[l']? ≠ some k) ∧ after.find? k = piece.values[l]?
  /-- Where that is the last piece with the key, it is left as one call for the whole
  request leaves it. -/
  inOrder : (∀ v ∈ values, v.size <= before.maxEntitySize) -> ∀ (j : Nat) (k : Key),
    LastWrite log k j ->
      (∀ (i : Nat) (piece : Piece), j < i -> (c.pieces keys values)[i]? = some piece ->
        k ∉ piece.keys) ->
          after.find? k = ({ before with limit := keys.length }.putAll keys values).2.find? k
  /-- So is a key with all its positions in one piece. -/
  whole : ∀ (j : Nat) (k : Key),
    (∀ (i : Nat) (piece : Piece), (c.pieces keys values)[i]? = some piece ->
      k ∈ piece.keys -> i = j) ->
        after.find? k = ({ before with limit := keys.length }.putAll keys values).2.find? k

section Written

variable {c : Client} {keys : List Key} {values : List Value} {before : Store}
  {log : List (Nat × Key × Value)}
  (hparts : ∀ j, Simulation.Overlap.partOf log j = c.entriesAt keys values j)
include hparts

/-- What was written are entries of the request. -/
theorem mem_of_mem_log {entry : Key × Value} (h : entry ∈ log.map Prod.snd) :
    entry.1 ∈ keys ∧ entry.2 ∈ values := by
  rcases List.mem_map.mp h with ⟨write, hwrite, heq⟩
  have hentry : entry ∈ c.entriesAt keys values write.1 := by
    rw [← hparts, Simulation.Overlap.mem_partOf, ← heq]
    exact hwrite
  rcases exists_piece_of_mem_entriesAt hentry with ⟨piece, hpiece, hin⟩
  have hmem := List.mem_of_getElem? hpiece
  exact ⟨mem_of_mem_piece hmem (List.of_mem_zip hin).1,
    mem_values_of_mem_piece hmem (List.of_mem_zip hin).2⟩

/-- Every key of the request was written. -/
theorem exists_lastWrite_of_mem (haddressed : Span.IsAddressed keys.length c.batchSize)
    (hlength : keys.length = values.length) {k : Key} (hk : k ∈ keys) :
    ∃ j, LastWrite log k j := by
  have hkeys : (keys.zip values).map Prod.fst = keys :=
    List.map_fst_zip (Nat.le_of_eq hlength)
  rw [← hkeys, List.mem_map] at hk
  rcases hk with ⟨entry, hentry, heq⟩
  rw [← flatMap_entriesAt_range haddressed hlength, List.mem_flatMap] at hentry
  rcases hentry with ⟨j, _, hin⟩
  rw [← hparts, Simulation.Overlap.mem_partOf] at hin
  exact exists_lastWrite ⟨_, hin, heq⟩

theorem writtenPiecemeal {after : Store}
    (haddressed : Span.IsAddressed keys.length c.batchSize) (hlength : keys.length = values.length)
    (hcomplete : ∀ k ∈ keys, k.isComplete = true)
    (hfound : ∀ k, after.find? k =
      (lastValue? ((log.map Prod.snd).filter before.accepts) k).or (before.find? k)) :
    c.WrittenPiecemeal keys values before after log where
  parts := hparts
  found := hfound
  others := by
    intro k hk
    rw [hfound, lastValue?_eq_none, Option.none_or]
    intro entry hmem heq
    have hin := (mem_of_mem_log hparts (List.mem_of_mem_filter hmem)).1
    rw [heq] at hin
    exact hk hin
  last := by
    intro hfits k hk
    rcases exists_lastWrite_of_mem hparts haddressed hlength hk with ⟨j, hwrite⟩
    rcases hwrite.lastValue?_eq with ⟨v, hlog, hpart⟩
    rcases hwrite.mem_partOf with ⟨v', hmem⟩
    rw [hparts] at hmem hpart
    rcases exists_piece_of_mem_entriesAt hmem with ⟨piece, hpiece, hin⟩
    rcases exists_last_position (List.of_mem_zip hin).1 with ⟨l, hl, hlast⟩
    refine ⟨j, piece, l, hwrite, hpiece, hl, hlast, ?_⟩
    rw [entriesAt_of_piece hpiece, lastValue?_zip
      (length_keys_eq_of_mem_pieces hlength (List.mem_of_getElem? hpiece)) hl hlast] at hpart
    rw [hfound, filter_accepts_of_fits hfits fun _ h => (mem_of_mem_log hparts h).2, hlog, hpart]
    rfl
  inOrder := by
    intro hfits j k hwrite hlast
    rw [hfound, find?_putAll_unlimited hlength hcomplete,
      filter_accepts_of_fits hfits fun _ h => (mem_of_mem_log hparts h).2,
      filter_accepts_of_fits hfits fun _ h => (List.of_mem_zip h).2,
      ← flatMap_entriesAt_range haddressed hlength,
      hwrite.lastValue?_flatMap hparts fun _ => entriesAt_of_length_le]
    exact fun i hlt => ne_of_mem_entriesAt fun piece => hlast i piece hlt
  whole := by
    intro j k halone
    have haccepted : ((log.filter fun write => before.accepts write.2).map Prod.snd) =
        (log.map Prod.snd).filter before.accepts := by
      rw [List.filter_map]
      rfl
    have hacceptedParts (i : Nat) :
        Simulation.Overlap.partOf (log.filter fun write => before.accepts write.2) i =
          (c.entriesAt keys values i).filter before.accepts := by
      rw [partOf_filter, hparts]
    have hpast (i : Nat) (hle : (c.pieces keys values).length <= i) :
        (c.entriesAt keys values i).filter before.accepts = [] := by
      rw [entriesAt_of_length_le hle, List.filter_nil]
    have hothers (i : Nat) (hne : i ≠ j) :
        ∀ entry ∈ (c.entriesAt keys values i).filter before.accepts, entry.1 ≠ k := by
      intro entry hmem
      exact ne_of_mem_entriesAt (fun piece hpiece hin => hne (halone i piece hpiece hin)) entry
        (List.mem_of_mem_filter hmem)
    rw [hfound, find?_putAll_unlimited hlength hcomplete,
      ← flatMap_entriesAt_range haddressed hlength, List.filter_flatMap, ← haccepted,
      lastValue?_flatMap_of_alone hacceptedParts hpast hothers]

end Written

end Client

namespace Simulation
namespace Overlap

/-!
## Any interleaving of the entities
-/

section Dispatched

variable {client : Client} {scene : Scene} {ctx : Context} {keys : List Key} {values : List Value}
  {p : Overlap}

theorem length_writers_of_dispatched
    (hreach : Reaches (of (World.dispatched client scene ctx keys values)) p) :
    p.world.writers.length = (client.pieces keys values).length :=
  hreach.length_writers.trans (World.length_writers_dispatched client scene ctx keys values)

/-- Where every transaction has finished with what is no wholesale failure, all of the
request was written. -/
theorem exists_writtenPiecemeal (haddressed : Span.IsAddressed keys.length client.batchSize)
    (hlength : keys.length = values.length) (hcomplete : ∀ k ∈ keys, k.isComplete = true)
    (hreach : Reaches (of (World.dispatched client scene ctx keys values)) p)
    (hends : ∀ (j : Nat) (piece : Client.Piece), (client.pieces keys values)[j]? = some piece ->
      ∃ result, p.world.endAt? j = some (.finished result) ∧
        ∀ f, result ≠ Transaction.wholesale f) :
    ∃ log, client.WrittenPiecemeal keys values scene.store p.world.scene.store log := by
  have hkeys : ∀ writer ∈ (World.dispatched client scene ctx keys values).writers,
      ∀ k ∈ writer.run.keys, k.isComplete = true :=
    fun writer hmem k hk => hcomplete k (World.mem_of_dispatched hmem hk)
  rcases exists_log hkeys (World.fresh_dispatched _ _ _ _ _) hreach with ⟨log, hlogged⟩
  refine ⟨log, Client.writtenPiecemeal ?_ haddressed hlength hcomplete hlogged.found⟩
  intro j
  cases hpiece : (client.pieces keys values)[j]? with
  | none =>
      have hle := List.getElem?_eq_none_iff.mp hpiece
      rw [Client.entriesAt_of_length_le hle]
      apply hlogged.unknown
      rw [List.getElem?_eq_none_iff, length_writers_of_dispatched hreach]
      exact hle
  | some piece =>
      rcases hends j piece hpiece with ⟨result, hend, hproper⟩
      rcases Option.bind_eq_some_iff.mp hend with ⟨writer, hwriter, hfinished⟩
      rcases hreach.continues hwriter with ⟨first, hfirst, hcontinues⟩
      have hofPiece : first =
          .ofPiece client.config.lockScheme (client.bounded scene.now ctx) piece := by
        rw [of, World.dispatched, List.getElem?_map, hpiece] at hfirst
        exact (Option.some.inj hfirst).symm
      rw [hlogged.partOf_eq hwriter (Run.result?_of_end? hfinished) hproper, hcontinues.keys,
        hcontinues.values, hofPiece, Client.entriesAt_of_piece hpiece]
      rfl

end Dispatched

/-- Where all of a request was written, every key has the value at its last position in the
piece that has written it last.  One call for the whole request leaves the value at the
last position in the request. -/
theorem last_write_decides {client : Client} {scene : Scene} {ctx : Context}
    {keys written : List Key} {values : List Value} {p : Overlap}
    (haddressed : Span.IsAddressed keys.length client.batchSize)
    (hcheck : Request.check keys values = .ok ()) (hcomplete : ∀ k ∈ keys, k.isComplete = true)
    (hfits : ∀ v ∈ values, v.size <= scene.store.maxEntitySize)
    (hreach : Reaches (of (World.dispatched client scene ctx keys values)) p)
    (hwritten : p.world.outcome? client keys values = some (.ok written)) :
    (∃ log, client.WrittenPiecemeal keys values scene.store p.world.scene.store log) ∧
      ∀ (i : Nat) (k : Key), keys[i]? = some k -> (∀ j, i < j -> keys[j]? ≠ some k) ->
        ({ scene.store with limit := keys.length }.putAll keys values).2.find? k = values[i]? := by
  have hlength := Request.length_eq_of_check hcheck
  constructor
  · apply exists_writtenPiecemeal haddressed hlength hcomplete hreach
    intro j piece hpiece
    rcases World.endAt?_of_written haddressed (length_writers_of_dispatched hreach) hwritten
      hpiece with ⟨ks, hend, _⟩
    exact ⟨.ok ks, hend, fun f hfailed => nomatch hfailed⟩
  · intro i k hi hlast
    exact Client.find?_putAll_unlimited_of_last hlength hcomplete hfits hi hlast

/-- A request with two keys, each of them twice, in two pieces. -/
def twoTwice : Overlap :=
  .of (World.dispatched ⟨{}, 2⟩ (Scene.newRoot {} "root").2 (Scene.newRoot {} "root").1
    [.numbered "Item" 1, .numbered "Item" 2, .numbered "Item" 1, .numbered "Item" 2]
    [.int 1, .int 2, .int 3, .int 4])

/-- The second piece comes last to the first key, and the first piece to the second one. -/
def twoTwiceCrossed : Overlap :=
  twoTwice.turns [0, 0, 0, 0, 0, 1, 1, 1, 1, 1, 0, 1, 1, 0, 0, 0, 0, 1, 1, 1]

theorem last_write_decides_twoTwiceCrossed :
    Reaches twoTwice twoTwiceCrossed ∧
    twoTwiceCrossed.world.outcome? ⟨{}, 2⟩
      [.numbered "Item" 1, .numbered "Item" 2, .numbered "Item" 1, .numbered "Item" 2]
      [.int 1, .int 2, .int 3, .int 4] = some (.ok
        [.numbered "Item" 1, .numbered "Item" 2, .numbered "Item" 1, .numbered "Item" 2]) ∧
    (∃ log, Client.WrittenPiecemeal ⟨{}, 2⟩
      [.numbered "Item" 1, .numbered "Item" 2, .numbered "Item" 1, .numbered "Item" 2]
      [.int 1, .int 2, .int 3, .int 4] twoTwice.world.scene.store
      twoTwiceCrossed.world.scene.store log) ∧
    twoTwiceCrossed.world.scene.store.find? (.numbered "Item" 1) = some (.int 3) ∧
    twoTwiceCrossed.world.scene.store.find? (.numbered "Item" 2) = some (.int 2) := by
  have haddressed : Span.IsAddressed 4 2 := ⟨by decide, by decide⟩
  have hcheck : Request.check
      [Key.numbered "Item" 1, .numbered "Item" 2, .numbered "Item" 1, .numbered "Item" 2]
      [Value.int 1, .int 2, .int 3, .int 4] = .ok () := rfl
  have hcomplete : ∀ k ∈
      [Key.numbered "Item" 1, .numbered "Item" 2, .numbered "Item" 1, .numbered "Item" 2],
      k.isComplete = true := by decide
  have hfits : ∀ v ∈ [Value.int 1, .int 2, .int 3, .int 4],
      v.size <= twoTwice.world.scene.store.maxEntitySize := by decide
  have hwritten : twoTwiceCrossed.world.outcome? ⟨{}, 2⟩
      [.numbered "Item" 1, .numbered "Item" 2, .numbered "Item" 1, .numbered "Item" 2]
      [.int 1, .int 2, .int 3, .int 4] = some (.ok
        [.numbered "Item" 1, .numbered "Item" 2, .numbered "Item" 1, .numbered "Item" 2]) := rfl
  have hreach : Reaches twoTwice twoTwiceCrossed := reaches_turns _ _
  have hdecides := @last_write_decides ⟨{}, 2⟩ _ _
    [.numbered "Item" 1, .numbered "Item" 2, .numbered "Item" 1, .numbered "Item" 2] _ _ _
    haddressed hcheck hcomplete hfits hreach hwritten
  exact ⟨hreach, hwritten, hdecides.1, rfl, rfl⟩

end Overlap

namespace World

/-- The transaction of the second piece is the first to call the store. -/
def twiceCrossed : World :=
  twice.turns [1, 1, 1, 1, 1, 1, 1, 0, 0, 0, 0, 0, 0, 0]

theorem reaches_twiceCrossed : Relation.ReflTransGen SoleStep twice twiceCrossed := by
  have hstays : twice.staysIn (fun w => w.scene.faults.store.isEmpty)
      [1, 1, 1, 1, 1, 1, 1, 0, 0, 0, 0, 0, 0, 0] = true := rfl
  apply turns_of_staysIn _ hstays
  intro w i writer hwriter hplain _
  apply SoleStep.moved hwriter
  intro rule hmem
  rw [List.isEmpty_iff.mp hplain] at hmem
  cases hmem

/-- All of the request was written, and the value at the first position of the
key has stayed. -/
theorem find?_twiceCrossed :
    Request.check [Key.numbered "Item" 1, Key.numbered "Item" 1]
        [Value.int 1, Value.int 2] = .ok () ∧
      Relation.ReflTransGen SoleStep twice twiceCrossed ∧
      Overlap.Reaches (.of twice) (.of twiceCrossed) ∧
      twiceCrossed.outcome? ⟨{}, 1⟩ [.numbered "Item" 1, .numbered "Item" 1]
        [.int 1, .int 2] = some (.ok [.numbered "Item" 1, .numbered "Item" 1]) ∧
      twiceCrossed.scene.store.find? (.numbered "Item" 1) = some (.int 1) ∧
      ({ twice.scene.store with limit := 2 }.putAll
        [.numbered "Item" 1, .numbered "Item" 1] [.int 1, .int 2]).2.find? (.numbered "Item" 1) =
          some (.int 2) :=
  ⟨rfl, reaches_twiceCrossed, Overlap.reaches_of_sole reaches_twiceCrossed, rfl, rfl, rfl⟩

end World
end Simulation
end WriteLatch
