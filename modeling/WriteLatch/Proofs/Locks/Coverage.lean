import WriteLatch.Proofs.Encoding.Keys
import WriteLatch.Proofs.Interleaving.Deeds
import WriteLatch.Proofs.Interleaving.Dispatch

/-!
# Keys stay locked

A transaction sets the locks of its keys before it calls the store.  What can
take a lock away from under it is someone who erases the slot; setting the slot
once more only renews the lock, as long as all locks live equally long.  Distinct
valid keys have distinct slots, so only a transaction with the same key erases
the slot of a key.
-/

namespace WriteLatch

namespace Simulation

namespace World

/-- Only transactions have touched the slot. -/
def LeftAlone (w : World) (slot : String) : Prop :=
  ∀ entry ∈ w.history, entry.writer = none -> ¬ entry.deed.Touches slot

theorem leftAlone_of_all {w : World}
    (h : (w.history.all fun entry => entry.writer.isSome) = true) (slot : String) :
    w.LeftAlone slot := by
  intro entry hmem hnone
  rw [List.all_eq_true] at h
  have hsome := h entry hmem
  rw [hnone] at hsome
  cases hsome

def KeysValid (w : World) : Prop :=
  ∀ writer ∈ w.writers, ∀ k ∈ writer.run.keys, k.isComplete = true -> k.isValid = true

/-- No complete key is written by two transactions. -/
def KeysDisjoint (w : World) : Prop :=
  ∀ (i j : Nat) (a b : Writer), w.writers[i]? = some a -> w.writers[j]? = some b -> i ≠ j ->
    ∀ k ∈ a.run.keys, k.isComplete = true -> k ∉ b.run.keys

/-!
## One slot
-/

/-- A lock that has not expired is there, or its slot was erased by one of the
transactions with that slot. -/
theorem Sound.isLocked_or_erased {first : Cache} {w : World} (h : Sound first w) {i : Nat}
    {writer : Writer} {now : Millis} {newer older : List Entry} {slot : String}
    (hhistory : w.history = newer ++ ⟨some i, .set now writer.items⟩ :: older)
    (hscheme : ∀ other ∈ w.writers, other.scheme = writer.scheme)
    (hslot : slot ∈ writer.slots)
    (hforeign : w.LeftAlone slot) (hlasts : writer.scheme.Lasts now w.scene.cacheNow) :
    w.scene.cache.isLocked w.scene.cacheNow slot = true ∨
      ∃ j other, w.writers[j]? = some other ∧ slot ∈ other.slots ∧
        ⟨some j, .erased other.slots⟩ ∈ newer := by
  have hmemNewer {entry : Entry} (hmem : entry ∈ newer) : entry ∈ w.history := by
    rw [hhistory]
    exact List.mem_append_left _ hmem
  by_cases herased : ∃ entry ∈ newer, ∃ slots, entry.deed = .erased slots ∧ slot ∈ slots
  · right
    rcases herased with ⟨⟨source, deed⟩, hmem, slots, hdeed, hslots⟩
    cases hdeed
    cases source with
    | none => exact absurd hslots (hforeign _ (hmemNewer hmem) rfl)
    | some j =>
        rcases h.exists_writer (hmemNewer hmem) with ⟨other, hother⟩
        have hsame := h.slots_eq hother (hmemNewer hmem)
        rw [hsame] at hslots hmem
        exact ⟨j, other, hother, hslots, hmem⟩
  · left
    have hnot (entry : Entry) (hmem : entry ∈ newer) (slots : List String)
        (hdeed : entry.deed = .erased slots) : slot ∉ slots :=
      fun hslots => herased ⟨entry, hmem, slots, hdeed, hslots⟩
    rcases exists_standing_of_not_erased hhistory
      (Writer.exists_item_of_mem_slots hslot) hnot with
      ⟨⟨source, deed⟩, hlast, t, items, item, hdeed, hitem, hitemSlot, hstands⟩
    cases hdeed
    -- The last to set the slot is a transaction, and set it no earlier.
    have hset : ∃ j, source = some j ∧ now <= t := by
      rcases List.mem_append.mp hlast with hnewer | hown
      · cases source with
        | none =>
            exact absurd ⟨item, hitem, hitemSlot⟩ (hforeign _ (hmemNewer hnewer) rfl)
        | some j =>
            have horder := h.inOrder
            rw [hhistory] at horder
            exact ⟨j, rfl, horder.le_of_mem_append hnewer List.mem_cons_self⟩
      · cases List.mem_singleton.mp hown
        exact ⟨i, rfl, Nat.le_refl now⟩
    rcases hset with ⟨j, hsource, hle⟩
    rw [hsource] at hlast hstands
    have hmem : ⟨some j, .set t items⟩ ∈ w.history := by
      rw [hhistory]
      rcases List.mem_append.mp hlast with hnewer | hown
      · exact List.mem_append_left _ hnewer
      · rw [List.mem_singleton.mp hown]
        exact List.mem_append_right _ List.mem_cons_self
    rcases h.exists_writer hmem with ⟨other, hother⟩
    rw [h.items_eq hother hmem] at hitem
    rcases Writer.mem_items.mp hitem with ⟨k, _, _, hlock⟩
    rw [hscheme other (List.mem_of_getElem? hother)] at hlock
    apply h.mirrors.isLocked_of_holds hstands
    · rw [← hlock, LockScheme.isLive_lockItem]
      exact hlasts.of_le hle
    · rw [← hlock]
      exact writer.scheme.isLock_lockItem k

/-!
## Slots and keys
-/

/-- Under one scheme, only a transaction with the key has the slot of the key. -/
theorem mem_keys_of_slot_mem {writer : Writer} {k : Key} (hk : k.isValid = true)
    (hkeys : ∀ k' ∈ writer.run.keys, k'.isComplete = true -> k'.isValid = true)
    (hslot : writer.scheme.slot k ∈ writer.slots) : k ∈ writer.run.keys := by
  rcases Writer.mem_slots.mp hslot with ⟨k', hmem, hcomplete, hsame⟩
  have heq : k' = k := writer.scheme.slot_inj_of_isValid (hkeys k' hmem hcomplete) hk hsame
  rw [← heq]
  exact hmem

theorem slot_mem_slots {writer : Writer} {k : Key} (hmem : k ∈ writer.run.keys)
    (hcomplete : k.isComplete = true) : writer.scheme.slot k ∈ writer.slots :=
  Writer.mem_slots.mpr ⟨k, hmem, hcomplete, rfl⟩

/-- What holds of the transactions at first holds of them later. -/
theorem Reaches.scheme_eq {start w : World} {scheme : LockScheme} (h : Reaches start w)
    (hstart : ∀ writer ∈ start.writers, writer.scheme = scheme) :
    ∀ writer ∈ w.writers, writer.scheme = scheme := by
  intro writer hmem
  rcases List.mem_iff_getElem?.mp hmem with ⟨i, hwriter⟩
  rcases h.continues hwriter with ⟨first, hfirst, hcontinues⟩
  exact hcontinues.scheme.trans (hstart first (List.mem_of_getElem? hfirst))

/-!
## Several writers
-/

/-- From the moment its locks are set until they are erased, every complete key
of a transaction is locked, whatever other transactions with other keys do. -/
theorem isLocked_until_erased {start w : World} {scheme : LockScheme} {i : Nat}
    {writer : Writer} {now : Millis} {items : List CacheItem} {k : Key}
    (hfresh : start.Fresh)
    (hscheme : ∀ writer ∈ start.writers, writer.scheme = scheme)
    (hvalid : start.KeysValid) (hdisjoint : start.KeysDisjoint)
    (hreach : Reaches start w) (hforeign : w.LeftAlone (scheme.slot k))
    (hwriter : w.writers[i]? = some writer)
    (hset : ⟨some i, .set now items⟩ ∈ w.history)
    (hnotErased : ∀ slots, ⟨some i, .erased slots⟩ ∉ w.history)
    (hk : k ∈ writer.run.keys) (hcomplete : k.isComplete = true)
    (hlasts : scheme.Lasts now w.scene.cacheNow) :
    w.scene.cache.isLocked w.scene.cacheNow (scheme.slot k) = true := by
  have hsound : Sound start.scene.cache w := hreach.sound (sound_of_fresh hfresh)
  have hschemes := hreach.scheme_eq hscheme
  have hown : writer.scheme = scheme := hschemes writer (List.mem_of_getElem? hwriter)
  rw [← hown] at hschemes hforeign hlasts ⊢
  rcases List.append_of_mem hset with ⟨newer, older, hhistory⟩
  rw [hsound.items_eq hwriter hset] at hhistory
  have hcovered := hsound.isLocked_or_erased hhistory hschemes (slot_mem_slots hk hcomplete)
    hforeign hlasts
  rcases hcovered with hlocked | ⟨j, other, hother, hslot, herased⟩
  · exact hlocked
  · -- Only the transaction itself has the slot, and it has not erased it.
    exfalso
    by_cases hij : i = j
    · rw [← hij] at herased
      apply hnotErased other.slots
      rw [hhistory]
      exact List.mem_append_left _ herased
    · rcases hreach.continues hwriter with ⟨own, hfirstOwn, hcontinues⟩
      rcases hreach.continues hother with ⟨first, hfirst, hcontinuesOther⟩
      have hkOwn : k ∈ own.run.keys := by
        rw [← hcontinues.keys]
        exact hk
      have hmemFirst := List.mem_of_getElem? hfirst
      rw [hown, ← hscheme first hmemFirst, hcontinuesOther.slots_eq] at hslot
      apply hdisjoint i j own first hfirstOwn hfirst hij k hkOwn hcomplete
      exact mem_keys_of_slot_mem (hvalid own (List.mem_of_getElem? hfirstOwn) k hkOwn hcomplete)
        (hvalid first hmemFirst) hslot

/-- Two pieces with a key each.  The locks of the first one are set, and the
second one has been written to the end. -/
def apart : World :=
  oneByOne {} [.numbered "Item" 1, .numbered "Item" 2] [.int 1, .int 2]

def apartLater : World :=
  apart.turns [0, 0, 0, 1, 1, 1, 1, 1, 1, 1]

theorem isLocked_apartLater :
    apartLater.scene.cache.isLocked apartLater.scene.cacheNow
      (LockScheme.slot {} (.numbered "Item" 1)) = true := by
  have hhistory : apartLater.history =
      [⟨some 1, .erased [LockScheme.slot {} (.numbered "Item" 2)]⟩,
        ⟨some 1, .set 2000 [LockScheme.lockItem {} (.numbered "Item" 2)]⟩,
        ⟨some 0, .set 2000 [LockScheme.lockItem {} (.numbered "Item" 1)]⟩] := rfl
  have hscheme : ∀ writer ∈ apart.writers, writer.scheme = {} :=
    fun _ hmem => scheme_of_dispatched hmem
  have hvalid : apart.KeysValid := by
    intro writer hmem k hk _
    have hcheck : Request.check [Key.numbered "Item" 1, Key.numbered "Item" 2]
        [Value.int 1, Value.int 2] = .ok () := rfl
    exact Request.isValid_of_check hcheck k (mem_of_dispatched hmem hk)
  have hdisjoint : apart.KeysDisjoint := by
    intro i j a b ha hb hij k hk _ hmem
    match i, j with
    | 0, 0 | 1, 1 => exact hij rfl
    | 0, 1 | 1, 0 =>
        cases ha
        cases hb
        rw [List.mem_singleton.mp hk] at hmem
        cases List.mem_singleton.mp hmem
    | i + 2, _ => cases ha
    | _, j + 2 => cases hb
  have hforeign : apartLater.LeftAlone (LockScheme.slot {} (.numbered "Item" 1)) :=
    leftAlone_of_all rfl _
  have hset : ⟨some 0, .set 2000 [LockScheme.lockItem {} (.numbered "Item" 1)]⟩ ∈
      apartLater.history := by
    rw [hhistory]
    simp
  have hnotErased : ∀ slots, ⟨some 0, .erased slots⟩ ∉ apartLater.history := by
    rw [hhistory]
    simp
  have hwriter : ∃ writer, apartLater.writers[0]? = some writer ∧
      Key.numbered "Item" 1 ∈ writer.run.keys :=
    ⟨_, rfl, List.mem_cons_self⟩
  rcases hwriter with ⟨writer, hwriter, hk⟩
  have hlasts : LockScheme.Lasts {} 2000 apartLater.scene.cacheNow := Or.inr (by decide)
  exact isLocked_until_erased (fresh_oneByOne _ _ _) hscheme hvalid hdisjoint
    (apart.reaches_turns _) hforeign hwriter hset hnotErased hk rfl hlasts

/-!
## A request in pieces
-/

/-- A transaction that calls the store has set its locks and done nothing
since. -/
theorem Sound.deedsOf_of_isPutting {first : Cache} {w : World} (h : Sound first w) {i : Nat}
    {writer : Writer} (hwriter : w.writers[i]? = some writer)
    (hputting : writer.run.isPutting = true) :
    ∃ now, w.deedsOf i = [.set now writer.items] := by
  have htells := h.tells i writer hwriter
  unfold Run.isPutting at hputting
  cases hstage : writer.run.stage with
  | writing c rules call =>
      rw [hstage] at htells
      exact htells
  | opening | locking c call | releasing c result call | ended e =>
      rw [hstage] at hputting
      cases hputting

/-- While the store is called for a piece of a request, every complete key of
the piece is locked, unless another piece with the same key has erased the lock
since. -/
theorem isLocked_or_erased_by_other_piece {client : Client} {scene : Scene} {ctx : Context}
    {keys : List Key} {values : List Value} {w : World} {i : Nat} {writer : Writer} {k : Key}
    (hcheck : Request.check keys values = .ok ())
    (hreach : Reaches (dispatched client scene ctx keys values) w)
    (hforeign : w.LeftAlone (client.config.lockScheme.slot k))
    (hwriter : w.writers[i]? = some writer) (hputting : writer.run.isPutting = true)
    (hk : k ∈ writer.run.keys) (hcomplete : k.isComplete = true)
    (hlasts : ∀ now items, ⟨some i, .set now items⟩ ∈ w.history ->
      client.config.lockScheme.Lasts now w.scene.cacheNow) :
    w.scene.cache.isLocked w.scene.cacheNow (client.config.lockScheme.slot k) = true ∨
      ∃ j other now newer older, j ≠ i ∧ w.writers[j]? = some other ∧ k ∈ other.run.keys ∧
        w.history = newer ++ ⟨some i, .set now writer.items⟩ :: older ∧
        ⟨some j, .erased other.slots⟩ ∈ newer := by
  have hsound : Sound scene.cache w :=
    hreach.sound (sound_of_fresh (fresh_dispatched client scene ctx keys values))
  have hschemes := hreach.scheme_eq fun _ hmem => scheme_of_dispatched hmem
  have hown : writer.scheme = client.config.lockScheme :=
    hschemes writer (List.mem_of_getElem? hwriter)
  have hkeys {j : Nat} {other : Writer} (hother : w.writers[j]? = some other) :
      ∀ k' ∈ other.run.keys, k'.isValid = true := by
    rcases hreach.continues hother with ⟨first, hfirst, hcontinues⟩
    intro k' hmem
    rw [hcontinues.keys] at hmem
    exact Request.isValid_of_check hcheck k' (mem_of_dispatched (List.mem_of_getElem? hfirst) hmem)
  rcases hsound.deedsOf_of_isPutting hwriter hputting with ⟨now, hdeeds⟩
  have hset : ⟨some i, .set now writer.items⟩ ∈ w.history := by
    rw [← mem_deedsIn, ← deedsOf, hdeeds]
    exact List.mem_singleton_self _
  have hnow := hlasts now writer.items hset
  rw [← hown] at hschemes hforeign hnow ⊢
  rcases List.append_of_mem hset with ⟨newer, older, hhistory⟩
  have hcovered := hsound.isLocked_or_erased hhistory hschemes (slot_mem_slots hk hcomplete)
    hforeign hnow
  rcases hcovered with hlocked | ⟨j, other, hother, hslot, herased⟩
  · exact Or.inl hlocked
  · right
    refine ⟨j, other, now, newer, older, ?_, hother, ?_, hhistory, herased⟩
    · intro hij
      have hmem : .erased other.slots ∈ w.deedsOf j := by
        rw [deedsOf, mem_deedsIn, hhistory]
        exact List.mem_append_left _ herased
      rw [hij, hdeeds, List.mem_singleton] at hmem
      cases hmem
    · rw [← hschemes other (List.mem_of_getElem? hother)] at hslot
      exact mem_keys_of_slot_mem (hkeys hwriter k hk) (fun k' hmem _ => hkeys hother k' hmem) hslot

/-- A request with the same key twice, in two pieces.  The store is called for
both. -/
def twice : World :=
  oneByOne {} [.numbered "Item" 1, .numbered "Item" 1] [.int 1, .int 2]

def twicePutting : World :=
  twice.turns [0, 0, 0, 0, 1, 1, 1, 1]

theorem isLocked_or_erased_twicePutting :
    twicePutting.scene.cache.isLocked twicePutting.scene.cacheNow
      (LockScheme.slot {} (.numbered "Item" 1)) = true ∨
      ∃ j other now newer older, j ≠ 1 ∧ twicePutting.writers[j]? = some other ∧
        Key.numbered "Item" 1 ∈ other.run.keys ∧
        twicePutting.history = newer ++
          ⟨some 1, .set now [LockScheme.lockItem {} (.numbered "Item" 1)]⟩ :: older ∧
        ⟨some j, .erased other.slots⟩ ∈ newer := by
  have hcheck : Request.check [Key.numbered "Item" 1, Key.numbered "Item" 1]
      [Value.int 1, Value.int 2] = .ok () := rfl
  have hwriter : ∃ writer, twicePutting.writers[1]? = some writer ∧
      writer.run.isPutting = true ∧ Key.numbered "Item" 1 ∈ writer.run.keys ∧
      writer.items = [LockScheme.lockItem {} (.numbered "Item" 1)] :=
    ⟨_, rfl, rfl, List.mem_cons_self, rfl⟩
  rcases hwriter with ⟨writer, hwriter, hputting, hk, hitems⟩
  have hlasts (now : Millis) (items : List CacheItem)
      (hmem : ⟨some 1, .set now items⟩ ∈ twicePutting.history) :
      LockScheme.Lasts {} now twicePutting.scene.cacheNow := by
    have hhistory : twicePutting.history =
        [⟨some 1, .set 2000 [LockScheme.lockItem {} (.numbered "Item" 1)]⟩,
          ⟨some 0, .set 2000 [LockScheme.lockItem {} (.numbered "Item" 1)]⟩] := rfl
    rw [hhistory] at hmem
    rcases List.mem_cons.mp hmem with hown | hother
    · cases hown
      exact Or.inr (by decide)
    · cases List.mem_singleton.mp hother
  rw [← hitems]
  exact isLocked_or_erased_by_other_piece hcheck (twice.reaches_turns _) (leftAlone_of_all rfl _)
    hwriter hputting hk rfl hlasts

/-- The first piece has been written to the end since. -/
def twiceLater : World :=
  twicePutting.turns [0, 0, 0]

/-- The store is still called for the second piece, and its key is not locked. -/
theorem not_isLocked_twiceLater :
    Request.check [Key.numbered "Item" 1, Key.numbered "Item" 1]
        [Value.int 1, Value.int 2] = .ok () ∧
      Reaches twice twiceLater ∧ (twiceLater.history.all fun entry => entry.writer.isSome) = true ∧
      ∃ writer, twiceLater.writers[1]? = some writer ∧ writer.run.isPutting = true ∧
        Key.numbered "Item" 1 ∈ writer.run.keys ∧ (Key.numbered "Item" 1).isComplete = true ∧
        writer.run.ctx.isOver twiceLater.scene.tokens twiceLater.scene.now = false ∧
        (∀ now items, ⟨some 1, .set now items⟩ ∈ twiceLater.history ->
          LockScheme.Lasts {} now twiceLater.scene.cacheNow) ∧
        twiceLater.scene.cache.isLocked twiceLater.scene.cacheNow
          (LockScheme.slot {} (.numbered "Item" 1)) = false := by
  have hreach : Reaches twice twiceLater :=
    (twice.reaches_turns _).trans (twicePutting.reaches_turns _)
  have hhistory : twiceLater.history =
      [⟨some 0, .erased [LockScheme.slot {} (.numbered "Item" 1)]⟩,
        ⟨some 1, .set 2000 [LockScheme.lockItem {} (.numbered "Item" 1)]⟩,
        ⟨some 0, .set 2000 [LockScheme.lockItem {} (.numbered "Item" 1)]⟩] := rfl
  have hsound : Sound twice.scene.cache twiceLater :=
    hreach.sound (sound_of_fresh (fresh_oneByOne _ _ _))
  refine ⟨rfl, hreach, rfl, _, rfl, rfl, List.mem_cons_self, rfl, rfl, ?_, ?_⟩
  · intro now items hmem
    rw [hhistory] at hmem
    rcases List.mem_cons.mp hmem with hother | hmem
    · cases hother
    · rcases List.mem_cons.mp hmem with hown | hother
      · cases hown
        exact Or.inr (by decide)
      · cases List.mem_singleton.mp hother
  · apply hsound.mirrors.isLocked_of_empty
    rw [hhistory, standing_erased, if_pos List.mem_cons_self]

end World
end Simulation
end WriteLatch
