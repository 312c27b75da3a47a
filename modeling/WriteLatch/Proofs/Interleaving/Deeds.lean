import WriteLatch.Proofs.Interleaving.World

/-!
# What transactions have done

The stage a transaction is in tells what it has done to the cache so far.  Its
locks are set at most once, before the store is called, and when it has finished
with a context for the cache, its last deed was to erase them or to report why
not.  A crash leaves things as they are.

With what a history says of the cache, this is the invariant that every step
keeps.
-/

namespace WriteLatch

/-- A lock set at one time has not expired at another. -/
def LockScheme.Lasts (scheme : LockScheme) (since now : Millis) : Prop :=
  scheme.lifetime = 0 ∨ now < since + scheme.lifetime

namespace LockScheme

theorem isLive_lockItem (scheme : LockScheme) (k : Key) (since now : Millis) :
    (Cache.entryOf since (scheme.lockItem k)).isLive now = true ↔ scheme.Lasts since now :=
  Cache.isLive_entryOf since now (scheme.lockItem k)

theorem Lasts.of_le {scheme : LockScheme} {since later now : Millis}
    (h : scheme.Lasts since now) (hle : since <= later) : scheme.Lasts later now := by
  rcases h with hforever | hbefore
  · exact Or.inl hforever
  · exact Or.inr (Nat.lt_of_lt_of_le hbefore (Nat.add_le_add_right hle _))

end LockScheme

namespace Simulation

/-!
## Calls under way
-/

def Progress.isServed {ε : Type} : Progress ε -> Bool
  | .notBegun => false
  | .serving _ => true
  | .paused _ _ => false

namespace Run

/-- The call of the store has begun and has not returned. -/
def isPutting (run : Run) : Bool :=
  match run.stage with
  | .writing _ _ (.serving _) => true
  | .writing _ _ (.paused _ _) => true
  | _ => false

/-- The call that erases the locks is being served. -/
def isErasing (run : Run) : Bool :=
  match run.stage with
  | .releasing _ _ call => call.isServed
  | _ => false

end Run

namespace World

/-!
## What a history tells of a transaction
-/

/-- What a transaction has done, the latest deed first. -/
def deedsOf (w : World) (i : Nat) : List Deed :=
  deedsIn i w.history

theorem deedsOf_moved_self (w : World) (i : Nat) (writer : Writer) :
    (w.moved i writer).deedsOf i =
      (writer.run.deed? (w.sceneOf writer)).toList ++ w.deedsOf i := by
  unfold deedsOf moved
  cases writer.run.deed? (w.sceneOf writer) with
  | none => rfl
  | some deed => exact deedsIn_cons_self i deed w.history

theorem deedsOf_moved_of_ne {i j : Nat} (h : j ≠ i) (w : World) (writer : Writer) :
    (w.moved i writer).deedsOf j = w.deedsOf j := by
  unfold deedsOf moved
  cases writer.run.deed? (w.sceneOf writer) with
  | none => rfl
  | some deed =>
      apply deedsIn_cons_of_ne
      intro heq
      exact h (Option.some.inj heq).symm

/-- For a transaction a step is a move of its own, or leaves it where it is. -/
theorem Step.own_or_other {w w' : World} (h : Step w w') {i : Nat} {writer : Writer}
    (hwriter : w.writers[i]? = some writer) :
    w' = w.moved i writer ∨ (w'.writers[i]? = some writer ∧ w'.deedsOf i = w.deedsOf i) := by
  cases h with
  | @moved j writer' hwriter' =>
      by_cases hij : i = j
      · left
        rw [← hij, hwriter, Option.some.injEq] at hwriter'
        rw [← hij, hwriter']
      · right
        exact ⟨(w.getElem?_moved_of_ne writer' hij).trans hwriter, deedsOf_moved_of_ne hij w writer'⟩
  | stored items => exact Or.inr ⟨hwriter, rfl⟩
  | erased slots => exact Or.inr ⟨hwriter, rfl⟩
  | meanwhile hquiet => exact Or.inr ⟨hwriter, rfl⟩

/-- Nothing, or one setting of the items. -/
def SetOnce (items : List CacheItem) (deeds : List Deed) : Prop :=
  deeds = [] ∨ ∃ now, deeds = [.set now items]

theorem SetOnce.eq_of_mem {items : List CacheItem} {deeds : List Deed} {deed : Deed}
    (h : SetOnce items deeds) (hmem : deed ∈ deeds) : deeds = [deed] := by
  rcases h with hnone | ⟨now, hone⟩
  · rw [hnone] at hmem
    cases hmem
  · rw [hone, List.mem_singleton] at hmem
    rw [hone, hmem]

/-- What a transaction in a stage has done with its items and their slots. -/
def Tells (items : List CacheItem) (slots : List String) (deeds : List Deed) : Stage -> Prop
  | .opening => deeds = []
  | .locking _ _ => deeds = []
  | .writing _ _ _ => ∃ now, deeds = [.set now items]
  | .releasing _ _ _ => SetOnce items deeds
  | .ended (.finished _) =>
      deeds = [] ∨ ∃ last earlier, deeds = last :: earlier ∧ SetOnce items earlier ∧
        (last = .erased slots ∨ ∃ answer, last = .reported answer)
  | .ended (.crashed _) => SetOnce items deeds

theorem tells_of_leads {run : Run} {scene : Scene} {stage stage' : Stage} {deed : Option Deed}
    {deeds : List Deed} (h : Leads run scene stage deed stage')
    (htells : Tells (run.lockItems scene) (run.lockSlots scene) deeds stage) :
    Tells (run.lockItems scene) (run.lockSlots scene) (deed.toList ++ deeds) stage' := by
  cases h with
  | rests stage => exact htells
  | refused result => exact Or.inl htells
  | opened hwithin => exact htells
  | setGoesOn c call call' => exact htells
  | set c beats now =>
      have hnone : deeds = [] := htells
      rw [hnone]
      exact ⟨now, rfl⟩
  | setFailed c call result => exact Or.inl htells
  | setCrashed c beats message => exact Or.inl htells
  | putGoesOn c rules rules' call call' => exact htells
  | put c rules call result => exact Or.inr htells
  | putCrashed c rules beats message => exact Or.inr htells
  | deleteStarts result call beats hgoesOn => exact htells
  | deletePauses c result beats rest resume => exact htells
  | deleted c result beats =>
      exact Or.inr ⟨_, deeds, rfl, htells, Or.inl rfl⟩
  | deleteFailed c result beats causes =>
      exact Or.inr ⟨_, deeds, rfl, htells, Or.inr ⟨_, rfl⟩⟩
  | deleteInterrupted result call hinterrupted =>
      exact Or.inr ⟨_, deeds, rfl, htells, Or.inr ⟨_, rfl⟩⟩
  | deleteCrashed c result beats message => exact htells

theorem within_of_leads {run : Run} {scene : Scene} {stage stage' : Stage} {deed : Option Deed}
    (h : Leads run scene stage deed stage')
    (hwithin : ∀ c, (run.enter stage).cacheContext? = some c -> c.Within run.ctx) :
    ∀ c, (run.enter stage').cacheContext? = some c -> c.Within run.ctx := by
  cases h with
  | rests stage => exact hwithin
  | refused result =>
      intro c hc
      cases hc
  | opened hopened =>
      intro c hc
      cases hc
      exact hopened
  | setGoesOn c call call' => exact hwithin
  | set c beats now => exact hwithin
  | setFailed c call result => exact hwithin
  | putGoesOn c rules rules' call call' => exact hwithin
  | put c rules call result => exact hwithin
  | deleteStarts result call beats hgoesOn => exact hwithin
  | deletePauses c result beats rest resume => exact hwithin
  | setCrashed c beats message | putCrashed c rules beats message | deleted c result beats
  | deleteFailed c result beats causes | deleteInterrupted result call hinterrupted
  | deleteCrashed c result beats message =>
      intro c hc
      cases hc

/-!
## The invariant
-/

/-- What holds of a world whatever steps have been taken. -/
structure Sound (first : Cache) (w : World) : Prop where
  mirrors : Mirrors first w.history w.scene.cache w.scene.cacheNow
  inOrder : InOrder w.scene.cacheNow w.history
  /-- Every deed was done by a writer there is, or by someone else. -/
  known : ∀ entry ∈ w.history, ∀ i, entry.writer = some i -> i < w.writers.length
  tells : ∀ (i : Nat) (writer : Writer), w.writers[i]? = some writer ->
    Tells writer.items writer.slots (w.deedsOf i) writer.run.stage
  within : ∀ writer ∈ w.writers, ∀ c, writer.run.cacheContext? = some c ->
    c.Within writer.run.ctx

variable {first : Cache} {w w' : World}

theorem sound_of_fresh (h : w.Fresh) : Sound w.scene.cache w where
  mirrors := by
    rw [h.history]
    exact mirrors_nil w.scene.cache w.scene.cacheNow
  inOrder := by
    rw [h.history]
    trivial
  known := by
    rw [h.history]
    intro entry hmem
    cases hmem
  tells := by
    intro i writer hwriter
    rw [h.opening writer (List.mem_of_getElem? hwriter), deedsOf, h.history]
    rfl
  within := by
    intro writer hmem c hc
    rw [Run.cacheContext?, h.opening writer hmem] at hc
    cases hc

theorem tells_next {writer : Writer} {deeds : List Deed}
    (h : Tells writer.items writer.slots deeds writer.run.stage) :
    Tells (w.next writer).items (w.next writer).slots
      ((writer.run.deed? (w.sceneOf writer)).toList ++ deeds) (w.next writer).run.stage := by
  have hmoved := writer.run.moved_move (w.sceneOf writer)
  rw [(w.continues_next writer).items_eq, (w.continues_next writer).slots_eq]
  exact tells_of_leads hmoved.stage h

theorem within_next {writer : Writer}
    (h : ∀ c, writer.run.cacheContext? = some c -> c.Within writer.run.ctx) :
    ∀ c, (w.next writer).run.cacheContext? = some c -> c.Within (w.next writer).run.ctx := by
  have hmoved := writer.run.moved_move (w.sceneOf writer)
  intro c hc
  rw [next, hmoved.ctx]
  exact within_of_leads hmoved.stage h c hc

theorem Step.known (h : Step w w') (hknown : ∀ entry ∈ w.history, ∀ i,
    entry.writer = some i -> i < w.writers.length) :
    ∀ entry ∈ w'.history, ∀ i, entry.writer = some i -> i < w'.writers.length := by
  have hforeign (deed : Deed) (entry : Entry) (i : Nat)
      (hmem : entry ∈ ⟨none, deed⟩ :: w.history) (hi : entry.writer = some i) :
      i < w.writers.length := by
    rcases List.mem_cons.mp hmem with heq | hold
    · rw [heq] at hi
      cases hi
    · exact hknown entry hold i hi
  intro entry hmem i hi
  cases h with
  | @moved j writer hwriter =>
      rw [World.moved, List.length_set]
      rcases List.mem_append.mp hmem with hnew | hold
      · rw [Option.mem_toList, Option.map_eq_some_iff] at hnew
        rcases hnew with ⟨deed, _, hentry⟩
        rw [← hentry, Option.some.injEq] at hi
        rw [← hi]
        exact (List.getElem?_eq_some_iff.mp hwriter).1
      · exact hknown entry hold i hi
  | stored items => exact hforeign _ entry i hmem hi
  | erased slots => exact hforeign _ entry i hmem hi
  | meanwhile hquiet => exact hknown entry hmem i hi

theorem Sound.step (hsound : Sound first w) (h : Step w w') : Sound first w' where
  mirrors := h.adds.mirrors hsound.mirrors
  inOrder := h.adds.inOrder hsound.inOrder
  known := h.known hsound.known
  tells := by
    intro i writer' hwriter'
    rcases h.continues hwriter' with ⟨writer, hwriter, _⟩
    rcases h.own_or_other hwriter with hown | ⟨hsame, hdeeds⟩
    · rw [hown, getElem?_moved_self hwriter, Option.some.injEq] at hwriter'
      rw [hown, ← hwriter', deedsOf_moved_self]
      exact tells_next (hsound.tells i writer hwriter)
    · rw [hsame, Option.some.injEq] at hwriter'
      rw [hdeeds, ← hwriter']
      exact hsound.tells i writer hwriter
  within := by
    intro writer' hmem
    rcases List.mem_iff_getElem?.mp hmem with ⟨i, hwriter'⟩
    rcases h.continues hwriter' with ⟨writer, hwriter, _⟩
    have hwithin := hsound.within writer (List.mem_of_getElem? hwriter)
    rcases h.own_or_other hwriter with hown | ⟨hsame, _⟩
    · rw [hown, getElem?_moved_self hwriter, Option.some.injEq] at hwriter'
      rw [← hwriter']
      exact within_next hwithin
    · rw [hsame, Option.some.injEq] at hwriter'
      rw [← hwriter']
      exact hwithin

theorem Reaches.sound (h : Reaches w w') (hsound : Sound first w) : Sound first w' := by
  induction h with
  | refl => exact hsound
  | tail hreach hstep ih => exact ih.step hstep

/-!
## Reading the history
-/

theorem Tells.of_mem {items : List CacheItem} {slots : List String} {deeds : List Deed}
    {stage : Stage} {deed : Deed} (h : Tells items slots deeds stage) (hmem : deed ∈ deeds) :
    (∃ now, deed = .set now items) ∨ deed = .erased slots ∨ ∃ answer, deed = .reported answer := by
  have hset {deeds' : List Deed} (h' : SetOnce items deeds') (hmem' : deed ∈ deeds') :
      ∃ now, deed = .set now items := by
    rcases h' with hnone | ⟨now, hone⟩
    · rw [hnone] at hmem'
      cases hmem'
    · rw [hone, List.mem_singleton] at hmem'
      exact ⟨now, hmem'⟩
  cases stage with
  | opening => exact Or.inl (hset (Or.inl h) hmem)
  | locking c call => exact Or.inl (hset (Or.inl h) hmem)
  | writing c rules call => exact Or.inl (hset (Or.inr h) hmem)
  | releasing c result call => exact Or.inl (hset h hmem)
  | ended e =>
      cases e with
      | crashed message => exact Or.inl (hset h hmem)
      | finished result =>
          rcases h with hnone | ⟨last, earlier, hdeeds, hearlier, hlast⟩
          · exact Or.inl (hset (Or.inl hnone) hmem)
          · rw [hdeeds] at hmem
            rcases List.mem_cons.mp hmem with heq | hrest
            · rw [heq]
              exact Or.inr hlast
            · exact Or.inl (hset hearlier hrest)

namespace Sound

variable {i : Nat} {writer : Writer}

theorem items_eq (h : Sound first w) (hwriter : w.writers[i]? = some writer) {now : Millis}
    {items : List CacheItem} (hmem : ⟨some i, .set now items⟩ ∈ w.history) :
    items = writer.items := by
  rcases (h.tells i writer hwriter).of_mem (mem_deedsIn.mpr hmem) with
    ⟨now', heq⟩ | heq | ⟨answer, heq⟩
  · cases heq
    rfl
  · cases heq
  · cases heq

theorem slots_eq (h : Sound first w) (hwriter : w.writers[i]? = some writer)
    {slots : List String} (hmem : ⟨some i, .erased slots⟩ ∈ w.history) :
    slots = writer.slots := by
  rcases (h.tells i writer hwriter).of_mem (mem_deedsIn.mpr hmem) with
    ⟨now, heq⟩ | heq | ⟨answer, heq⟩
  · cases heq
  · cases heq
    rfl
  · cases heq

theorem exists_writer (h : Sound first w) {deed : Deed} (hmem : ⟨some i, deed⟩ ∈ w.history) :
    ∃ writer, w.writers[i]? = some writer :=
  ⟨_, List.getElem?_eq_getElem (h.known _ hmem i rfl)⟩

end Sound

/-!
## Locks and whose they are
-/

/-- The slot holds a live lock, and the transaction has set it there. -/
def LockedBy (w : World) (i : Nat) (slot : String) : Prop :=
  w.scene.cache.isLocked w.scene.cacheNow slot = true ∧
    ∃ e, standing slot w.history = .holds (some i) e

/-- The transaction has set items at the given time, and nobody has touched the
slot since. -/
def UntouchedSince (w : World) (i : Nat) (now : Millis) (slot : String) : Prop :=
  ∃ newer items older, w.history = newer ++ ⟨some i, .set now items⟩ :: older ∧
    ∀ entry ∈ newer, ¬ entry.deed.Touches slot

/-- A lock is a transaction's own if it has set it, the lock has not expired, and
nobody has touched the slot since. -/
theorem Sound.lockedBy_iff (h : Sound first w) {i : Nat} {writer : Writer} {slot : String}
    (hwriter : w.writers[i]? = some writer) :
    w.LockedBy i slot ↔
      slot ∈ writer.slots ∧
        ∃ now, w.UntouchedSince i now slot ∧ writer.scheme.Lasts now w.scene.cacheNow := by
  constructor
  · rintro ⟨hlocked, e, hstands⟩
    rcases standing_eq_holds_iff.mp hstands with
      ⟨newer, now, items, older, item, hhistory, huntouched, hplaced, he⟩
    have hmem : ⟨some i, .set now items⟩ ∈ w.history := by
      rw [hhistory]
      exact List.mem_append_right _ List.mem_cons_self
    rw [h.items_eq hwriter hmem] at hplaced
    rcases Cache.placed?_eq_some hplaced with ⟨hitem, hitemSlot⟩
    rcases Writer.mem_items.mp hitem with ⟨k, _, _, hlock⟩
    constructor
    · rw [← hitemSlot]
      exact Writer.slot_mem_slots_of_mem_items hitem
    · refine ⟨now, ⟨newer, items, older, hhistory, huntouched⟩, ?_⟩
      rw [← writer.scheme.isLive_lockItem k, hlock, he]
      exact h.mirrors.isLive_of_isLocked hstands hlocked
  · rintro ⟨hslot, now, ⟨newer, items, older, hhistory, huntouched⟩, hlasts⟩
    have hmem : ⟨some i, .set now items⟩ ∈ w.history := by
      rw [hhistory]
      exact List.mem_append_right _ List.mem_cons_self
    rw [h.items_eq hwriter hmem] at hhistory
    rcases Writer.exists_item_of_mem_slots hslot with ⟨item, hitem, hitemSlot⟩
    rcases Cache.exists_placed?_of_mem hitem hitemSlot with ⟨last, hplaced⟩
    have hstands : standing slot w.history = .holds (some i) (Cache.entryOf now last) :=
      standing_eq_holds_iff.mpr
        ⟨newer, now, writer.items, older, last, hhistory, huntouched, hplaced, rfl⟩
    rcases Writer.mem_items.mp (Cache.placed?_eq_some hplaced).1 with ⟨k, _, _, hlock⟩
    refine ⟨?_, _, hstands⟩
    apply h.mirrors.isLocked_of_holds hstands
    · rw [← hlock, LockScheme.isLive_lockItem]
      exact hlasts
    · rw [← hlock]
      exact writer.scheme.isLock_lockItem k

end World
end Simulation
end WriteLatch
