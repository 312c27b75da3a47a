import WriteLatch.Proofs.Batch.Alignment
import WriteLatch.Proofs.Interleaving.Readers

/-!
# No stale entities

Locks take the place of entities in the cache, so that nobody reads an old
entity there once a new one has been written.  A complete key is locked and its
slot erased.  A key that the store completes has no lock: there can be nothing in
its slot, unless there was an entity under it before.
-/

namespace WriteLatch
namespace Simulation
namespace World

variable {scheme : LockScheme}

/-- What has been done since the given moment. -/
def since (w before : World) : List Entry :=
  w.history.take (w.history.length - before.history.length)

theorem since_append {w before : World} (h : before.history <:+ w.history) :
    w.since before ++ before.history = w.history := by
  rcases h with ⟨newer, hnewer⟩
  rw [since, ← hnewer, List.length_append, Nat.add_sub_cancel_right, List.take_left]

/-- A reader finds an entity in the slot that was put there before the given
moment, for nobody has touched the slot since. -/
def KeepsEntity (w before : World) (slot : String) : Prop :=
  ∃ item, w.scene.cache.find? w.scene.cacheNow slot = some item ∧ item.isLock = false ∧
    ∀ entry ∈ w.since before, ¬ entry.deed.Touches slot

/-!
## What can be found in a slot
-/

theorem Sound.holds_of_find? {w : World} (h : Sound {} w) {slot : String} {item : CacheItem}
    (hfind : w.scene.cache.find? w.scene.cacheNow slot = some item) :
    ∃ writer e, standing slot w.history = .holds writer e ∧ e.item = item := by
  rw [h.mirrors.find?_eq slot, Option.map_eq_some_iff] at hfind
  rcases hfind with ⟨e, hlive, hitem⟩
  have hexpected := Option.eq_some_of_filter_eq_some hlive
  cases hstands : standing slot w.history with
  | untouched =>
      rw [hstands] at hexpected
      cases hexpected
  | empty =>
      rw [hstands] at hexpected
      cases hexpected
  | holds writer e' =>
      rw [hstands] at hexpected
      cases hexpected
      exact ⟨writer, e, rfl, hitem⟩

/-- What stands in the slot of a key and is no lock is an entity of the store. -/
theorem Faithful.stores_of_holds {w : World} (h : Faithful scheme w) {k : Key}
    (huniform : k.IsUniform) {writer : Option Nat} {e : CacheEntry}
    (hstands : standing (scheme.slot k) w.history = .holds writer e)
    (hentity : e.item.isLock = false) : w.Stores k := by
  rcases standing_eq_holds_iff.mp hstands with
    ⟨newer, now, items, older, item, hhistory, _, hplaced, he⟩
  have hmem : ⟨writer, .set now items⟩ ∈ w.history := by
    rw [hhistory]
    exact List.mem_append_right _ List.mem_cons_self
  rcases Cache.placed?_eq_some hplaced with ⟨hitem, hslot⟩
  cases writer with
  | some i =>
      -- A transaction sets nothing but locks.
      rcases h.sound.exists_writer hmem with ⟨owner, howner⟩
      rw [h.sound.items_eq howner hmem] at hitem
      rcases Writer.mem_items.mp hitem with ⟨k', _, _, hlock⟩
      have hlocked := owner.scheme.isLock_lockItem k'
      have hsame : e.item = item := by rw [← he, Cache.entryOf]
      rw [hlock, ← hsame, hentity] at hlocked
      cases hlocked
  | none =>
      rcases h.cached now items hmem item hitem with ⟨k', hk', hslot'⟩
      rw [hslot] at hslot'
      have hsame : k = k' := scheme.slot_inj_of_isUniform huniform (h.uniform k' hk') hslot'
      rw [hsame]
      exact hk'

/-- Whoever has come since then and has set locks has touched their slots. -/
theorem not_keepsEntity_of_hasSet {w before : World} {first : Cache} (h : Sound first before)
    (hhistory : before.history <:+ w.history) {i : Nat} {writer : Writer}
    (hlater : before.writers.length <= i) (hset : w.HasSet i writer) {slot : String}
    (hslot : slot ∈ writer.slots) : ¬ w.KeepsEntity before slot := by
  rintro ⟨item, _, _, huntouched⟩
  rcases hset with ⟨now, hdone⟩
  have hmem : ⟨some i, .set now writer.items⟩ ∈ w.history := mem_deedsIn.mp hdone
  rw [← since_append hhistory] at hmem
  rcases List.mem_append.mp hmem with hnew | hold
  · exact huntouched _ hnew (Writer.exists_item_of_mem_slots hslot)
  · exact Nat.not_lt.mpr hlater (h.known _ hold i rfl)

/-- Where there was no entity in the store, there was none in the cache. -/
theorem not_keepsEntity_of_not_stores {w before : World} (hsound : Sound {} w)
    (h : Faithful scheme before) (hhistory : before.history <:+ w.history) {k : Key}
    (huniform : k.IsUniform) (hunused : ¬ before.Stores k) :
    ¬ w.KeepsEntity before (scheme.slot k) := by
  rintro ⟨item, hfind, hentity, huntouched⟩
  rcases hsound.holds_of_find? hfind with ⟨writer, e, hstands, hitem⟩
  rw [← since_append hhistory, standing_append_of_untouched huntouched] at hstands
  rw [← hitem] at hentity
  exact hunused (h.stores_of_holds huniform hstands hentity)

end World

/-!
## After a call
-/

namespace Traffic

/-- What the transactions of a call have come to: each one is for its piece. -/
theorem exists_writer_of_written {within : World -> World -> Prop} {client : Client}
    {before after : Traffic} {ctx : Context} {keys : List Key} {values : List Value}
    (hwithin : ∀ w w', within w w' -> World.Step w w')
    (hafter : Reaches within (before.started (before.writersOf client ctx keys values)) after)
    {ends : List Client.TaskEnd}
    (hends : after.ends? (before.nextSpan (client.pieces keys values).length) = some ends)
    {i : Nat} {given k : Key} (hgiven : keys[i]? = some given)
    (hwritten : Client.writtenAt?
      (Client.merged ((client.pieces keys values).map Client.Piece.span) ends) i = some k) :
    ∃ j writer result l, before.world.writers.length <= j ∧ after.world.writers[j]? = some writer ∧
      writer.scheme = client.config.lockScheme ∧ writer.run.stage.result? = some result ∧
      writtenAt? result l = some k ∧ writer.run.keys[l]? = some given := by
  rcases Client.exists_piece_of_writtenAt? hgiven hwritten with
    ⟨j, l, piece, e, hpiece, he, hanswered, hkey⟩
  rcases exists_writer_of_ends? hends he with ⟨writer, hwriter, hend⟩
  have hstarted : (before.started (before.writersOf client ctx keys values)).world.writers[
      before.world.writers.length + j]? = some (Writer.ofPiece client.config.lockScheme
        (client.bounded before.world.scene.now ctx) piece) := by
    rw [getElem?_started_add, writersOf, List.getElem?_map, hpiece]
    rfl
  rcases hafter.exists_continues hwithin hstarted with ⟨writer', hwriter', hcontinues⟩
  have hsame : writer = writer' := Option.some.inj (hwriter.symm.trans hwriter')
  have hstage : writer.run.stage = .ended e := Run.stage_of_end? hend
  cases e with
  | crashed message => cases hanswered
  | finished result =>
      refine ⟨_, writer, result, l, Nat.le_add_right _ _, hwriter, ?_, ?_, hanswered, ?_⟩
      · rw [hsame]
        exact hcontinues.scheme
      · rw [hstage]
        rfl
      · rw [hsame, hcontinues.keys]
        exact hkey

/-- Whatever has been written and cached before, and whatever else goes on
meanwhile: when a call has written a key, an entity that was cached under the
key before the call is not found there any more.  For a key that the store has
completed this takes that there was no entity under it. -/
theorem not_keepsEntity_of_written {client : Client} {start before after : Traffic}
    (hempty : start.world.Empty)
    (hbefore : Reaches (World.FaithfulStep client.config.lockScheme) start before)
    {ctx : Context} {keys : List Key} {values : List Value}
    (hcheck : Request.check keys values = .ok ())
    (hafter : Reaches (World.FaithfulStep client.config.lockScheme)
      (before.started (before.writersOf client ctx keys values)) after)
    {ends : List Client.TaskEnd}
    (hends : after.ends? (before.nextSpan (client.pieces keys values).length) = some ends)
    {i : Nat} {given k : Key} (hgiven : keys[i]? = some given)
    (hwritten : Client.writtenAt?
      (Client.merged ((client.pieces keys values).map Client.Piece.span) ends) i = some k)
    (hunused : given.isComplete = true ∨ ¬ before.world.Stores k) :
    ¬ after.world.KeepsEntity before.world (client.config.lockScheme.slot k) := by
  have hcalled : Reaches (World.FaithfulStep client.config.lockScheme) before after :=
    Relation.ReflTransGen.head (Step.calledForMany client ctx hcheck) hafter
  have hreach : Reaches (World.FaithfulStep client.config.lockScheme) start after :=
    hbefore.trans hcalled
  have hfirst : World.Faithful client.config.lockScheme before.world :=
    Reaches.faithful hbefore hempty
  have hlast : World.Faithful client.config.lockScheme after.world :=
    Reaches.faithful hreach hempty
  have hhistory := Reaches.history_suffix hcalled fun _ _ hstep => hstep.step
  rcases exists_writer_of_written (fun _ _ h => h.step) hafter hends hgiven hwritten with
    ⟨j, writer, result, l, hlater, hwriter, hscheme, hresult, hanswered, hkey⟩
  rcases hlast.reported j writer result hwriter hresult l k hanswered with
    ⟨hset, given', hgiven', hbecome⟩
  have hsame : given' = given := Option.some.inj (hgiven'.symm.trans hkey)
  rw [hsame] at hbecome
  have hvalid : given.isValid = true :=
    hlast.valid writer (List.mem_of_getElem? hwriter) given (List.mem_of_getElem? hkey)
  rcases hbecome with ⟨hcomplete, hk⟩ | ⟨hincomplete, hcompleted⟩
  · apply World.not_keepsEntity_of_hasSet hfirst.sound hhistory hlater hset
    rw [hk, ← hscheme]
    exact Writer.mem_slots.mpr ⟨given, List.mem_of_getElem? hkey, hcomplete, rfl⟩
  · have hnone : ¬ before.world.Stores k := by
      apply hunused.resolve_left
      rw [hincomplete]
      exact Bool.false_ne_true
    have huniform : k.IsUniform :=
      Store.CanBecome.isUniform (Or.inr ⟨hincomplete, hcompleted⟩)
        (Key.space_eq_of_mem_elements hvalid)
    exact World.not_keepsEntity_of_not_stores hlast.sound hfirst hhistory huniform hnone

theorem reaches_faithfulTurns {scheme : LockScheme} {t : Traffic} {ids : List Nat}
    (h : t.world.staysIn (fun w => w.scene.faults.store.isEmpty) ids = true) :
    Reaches (World.FaithfulStep scheme) t { t with world := t.world.turns ids } :=
  reaches_turns (fun _ _ _ hwriter hplain _ =>
    World.FaithfulStep.moved hwriter (List.isEmpty_iff.mp hplain)) h

theorem empty_idle : idle.world.Empty :=
  ⟨rfl, rfl, rfl, rfl⟩

/-- A client with the default settings. -/
def plainClient : Client :=
  ⟨{}, 500⟩

def root : Context :=
  (Context.root "root" {}).1

/-- An item is written under a number of the client's own choice. -/
def ownCalled : Traffic :=
  idle.started [Writer.single {} root (.numbered "Item" 1) (.int 1)]

def ownWritten : Traffic :=
  { ownCalled with world := ownCalled.world.turns [0, 0, 0, 0, 0, 0, 0] }

def ownItem : CacheItem :=
  ⟨LockScheme.slot {} (.numbered "Item" 1), [0], 0, 0⟩

/-- A reader has cached the item. -/
def ownCached : Traffic :=
  { ownWritten with world := ownWritten.world.stored [ownItem] }

/-- Another call comes after that. -/
def calledLater (keys : List Key) (values : List Value) : Traffic :=
  ownCached.started (ownCached.writersOf plainClient root keys values)

theorem reaches_ownCached :
    Reaches (World.FaithfulStep plainClient.config.lockScheme) idle ownCached := by
  have hcalled : Step (World.FaithfulStep plainClient.config.lockScheme) idle ownCalled :=
    Step.calledForOne plainClient root rfl
  have hturns : ownCalled.world.staysIn (fun w => w.scene.faults.store.isEmpty)
      [0, 0, 0, 0, 0, 0, 0] = true := rfl
  have hwritten : Reaches (World.FaithfulStep plainClient.config.lockScheme) idle ownWritten :=
    (Relation.ReflTransGen.single hcalled).trans (reaches_faithfulTurns hturns)
  refine hwritten.tail (Step.within (World.FaithfulStep.cached ?_))
  intro item hmem
  rw [List.mem_singleton.mp hmem]
  exact ⟨.numbered "Item" 1, rfl, rfl⟩

/-- The item is written again, and something else is left to the store. -/
def againCalled : Traffic :=
  calledLater [.numbered "Item" 1, .incomplete "Other"] [.int 2, .int 2]

def againWritten : Traffic :=
  { againCalled with world := againCalled.world.turns [1, 1, 1, 1, 1, 1, 1] }

theorem not_keepsEntity_againWritten :
    ownCached.world.scene.cache.find? ownCached.world.scene.cacheNow ownItem.slot = some ownItem ∧
      ¬ againWritten.world.KeepsEntity ownCached.world (LockScheme.slot {} (.numbered "Item" 1)) ∧
      ¬ againWritten.world.KeepsEntity ownCached.world
        (LockScheme.slot {} (.numbered "Other" 1)) := by
  have hturns : againCalled.world.staysIn (fun w => w.scene.faults.store.isEmpty)
      [1, 1, 1, 1, 1, 1, 1] = true := rfl
  have hends : againWritten.ends? (ownCached.nextSpan 1) =
      some [.finished (.ok [.numbered "Item" 1, .numbered "Other" 1])] := rfl
  have hunused : ¬ ownCached.world.Stores (.numbered "Other" 1) := by
    intro hstores
    cases hstores
  refine ⟨rfl, ?_, ?_⟩
  · exact not_keepsEntity_of_written empty_idle reaches_ownCached rfl
      (reaches_faithfulTurns hturns) hends (i := 0) rfl rfl (Or.inl rfl)
  · exact not_keepsEntity_of_written empty_idle reaches_ownCached rfl
      (reaches_faithfulTurns hturns) hends (i := 1) rfl rfl (Or.inr hunused)

/-- A new item is left to the store, which gives it the number of the other
one. -/
def numberedCalled : Traffic :=
  calledLater [.incomplete "Item"] [.int 2]

def numberedWritten : Traffic :=
  { numberedCalled with world := numberedCalled.world.turns [1, 1, 1, 1, 1, 1, 1] }

/-- The other item has been overwritten and stays in the cache, although no
context has ended. -/
theorem keepsEntity_numberedWritten :
    Reaches (World.FaithfulStep plainClient.config.lockScheme) idle ownCached ∧
      Request.check [.incomplete "Item"] [.int 2] = .ok () ∧
      Reaches (World.FaithfulStep plainClient.config.lockScheme) numberedCalled numberedWritten ∧
      (∀ writer ∈ numberedWritten.world.writers, writer.run.ctx.isOver
        numberedWritten.world.scene.tokens numberedWritten.world.scene.now = false) ∧
      numberedWritten.ends? (ownCached.nextSpan 1) = some [.finished (.ok [.numbered "Item" 1])] ∧
      Client.writtenAt? (Client.merged
        ((plainClient.pieces [.incomplete "Item"] [.int 2]).map Client.Piece.span)
        [.finished (.ok [.numbered "Item" 1])]) 0 = some (.numbered "Item" 1) ∧
      numberedWritten.world.KeepsEntity ownCached.world
        (LockScheme.slot {} (.numbered "Item" 1)) := by
  have hturns : numberedCalled.world.staysIn (fun w => w.scene.faults.store.isEmpty)
      [1, 1, 1, 1, 1, 1, 1] = true := rfl
  have hgoesOn : (numberedWritten.world.writers.all fun writer => !writer.run.ctx.isOver
      numberedWritten.world.scene.tokens numberedWritten.world.scene.now) = true := rfl
  have hsince : numberedWritten.world.since ownCached.world =
      [⟨some 1, .erased []⟩, ⟨some 1, .set ownCached.world.scene.cacheNow []⟩] := rfl
  refine ⟨reaches_ownCached, rfl, reaches_faithfulTurns hturns, ?_, rfl, rfl, ownItem, rfl, rfl, ?_⟩
  · intro writer hmem
    have hall := List.all_eq_true.mp hgoesOn writer hmem
    simpa using hall
  · rw [hsince]
    simp [Deed.Touches]

end Traffic
end Simulation
end WriteLatch
