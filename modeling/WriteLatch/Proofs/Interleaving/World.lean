import Mathlib.Logic.Relation
import WriteLatch.Proofs.Interleaving.Moves

/-!
# Interleavings

Any number of transactions share a scene, each under a scheme of locks of its
own.  A step is a move of one of them, or something done to the cache by someone
else, or a quiet change of the scene.  Steps come in any order, so whatever
holds after all of them holds for every order in which transactions can take
turns.  The history of the cache is kept along the way.
-/

namespace WriteLatch
namespace Simulation

structure Writer where
  scheme : LockScheme
  run : Run

namespace Writer

def items (writer : Writer) : List CacheItem :=
  writer.scheme.lockItems writer.run.keys

def slots (writer : Writer) : List String :=
  writer.scheme.lockSlots writer.run.keys

theorem mem_slots {writer : Writer} {slot : String} :
    slot ∈ writer.slots ↔ ∃ k ∈ writer.run.keys, k.isComplete = true ∧ writer.scheme.slot k = slot := by
  simp [slots, LockScheme.lockSlots, and_assoc]

theorem mem_items {writer : Writer} {item : CacheItem} :
    item ∈ writer.items ↔
      ∃ k ∈ writer.run.keys, k.isComplete = true ∧ writer.scheme.lockItem k = item := by
  simp [items, LockScheme.lockItems, and_assoc]

theorem slot_mem_slots_of_mem_items {writer : Writer} {item : CacheItem}
    (h : item ∈ writer.items) : item.slot ∈ writer.slots := by
  rcases mem_items.mp h with ⟨k, hk, hcomplete, hlock⟩
  rw [← hlock]
  exact mem_slots.mpr ⟨k, hk, hcomplete, rfl⟩

theorem exists_item_of_mem_slots {writer : Writer} {slot : String} (h : slot ∈ writer.slots) :
    ∃ item ∈ writer.items, item.slot = slot := by
  rw [slots, ← LockScheme.map_slot_lockItems, List.mem_map] at h
  exact h

end Writer

structure World where
  scene : Scene
  writers : List Writer
  history : List Entry := []

namespace World

/-- The scene in which a writer moves. -/
def sceneOf (w : World) (writer : Writer) : Scene :=
  { w.scene with scheme := writer.scheme }

/-- A writer after its move. -/
def next (w : World) (writer : Writer) : Writer :=
  ⟨writer.scheme, (writer.run.move (w.sceneOf writer)).2.1⟩

/-- The world after a move of the writer at a position. -/
def moved (w : World) (i : Nat) (writer : Writer) : World :=
  { scene := (writer.run.move (w.sceneOf writer)).1
    writers := w.writers.set i (w.next writer)
    history :=
      ((writer.run.deed? (w.sceneOf writer)).map (Entry.mk (some i))).toList ++ w.history }

/-- The world after someone else has set items; one that cannot be stored ends
it. -/
def stored (w : World) (items : List CacheItem) : World :=
  let now := w.scene.cacheNow
  { w with
    scene := { w.scene with cache := w.scene.cache.afterSet now items }
    history := ⟨none, .set now (Cache.storable now items)⟩ :: w.history }

/-- The world after someone else has deleted items. -/
def erased (w : World) (slots : List String) : World :=
  { w with
    scene := { w.scene with cache := w.scene.cache.eraseAll slots }
    history := ⟨none, .erased slots⟩ :: w.history }

/-- No transaction has begun. -/
structure Fresh (w : World) : Prop where
  history : w.history = []
  opening : ∀ writer ∈ w.writers, writer.run.stage = .opening

inductive Step (w : World) : World -> Prop where
  | moved {i : Nat} {writer : Writer} (h : w.writers[i]? = some writer) :
      Step w (w.moved i writer)
  | stored (items : List CacheItem) : Step w (w.stored items)
  | erased (slots : List String) : Step w (w.erased slots)
  | meanwhile {scene : Scene} (h : w.scene.Quiet scene) : Step w { w with scene := scene }

/-- Any number of steps. -/
abbrev Reaches : World -> World -> Prop :=
  Relation.ReflTransGen Step

/-- A step in which nobody else touches the cache, and nothing but a move calls a
collaborator. -/
inductive OwnStep (w : World) : World -> Prop where
  | moved {i : Nat} {writer : Writer} (h : w.writers[i]? = some writer) :
      OwnStep w (w.moved i writer)
  | meanwhile {scene : Scene} (h : w.scene.Quiet scene)
      (hcalls : scene.journal.calls = w.scene.journal.calls) : OwnStep w { w with scene := scene }

theorem OwnStep.step {w w' : World} (h : OwnStep w w') : Step w w' := by
  cases h with
  | moved hwriter => exact Step.moved hwriter
  | meanwhile hquiet hcalls => exact Step.meanwhile hquiet

theorem reaches_of_own {w w' : World} (h : Relation.ReflTransGen OwnStep w w') : Reaches w w' :=
  h.lift id fun _ _ hstep => hstep.step

/-- The world after moves of the writers at some positions, one after another. -/
def turns (w : World) : List Nat -> World
  | [] => w
  | i :: rest =>
      match w.writers[i]? with
      | some writer => (w.moved i writer).turns rest
      | none => w.turns rest

theorem own_turns (w : World) (ids : List Nat) :
    Relation.ReflTransGen OwnStep w (w.turns ids) := by
  induction ids generalizing w with
  | nil => exact Relation.ReflTransGen.refl
  | cons i rest ih =>
      unfold turns
      cases hwriter : w.writers[i]? with
      | none => exact ih w
      | some writer => exact Relation.ReflTransGen.head (OwnStep.moved hwriter) (ih _)

theorem reaches_turns (w : World) (ids : List Nat) : Reaches w (w.turns ids) :=
  reaches_of_own (w.own_turns ids)

/-!
## What a step adds to the history
-/

/-- A step does one deed, or none. -/
inductive Adds (w w' : World) : Prop where
  | nothing (hhistory : w'.history = w.history) (hquiet : w.scene.Quiet w'.scene)
  | deed {mid : Scene} (ctx : Context) (entry : Entry) (hhistory : w'.history = entry :: w.history)
      (hbefore : w.scene.Quiet mid) (hproper : entry.deed.IsProper mid.cacheNow)
      (hafter : (mid.after ctx entry.deed).Quiet w'.scene)

theorem sceneOf_quiet (w : World) (writer : Writer) : w.scene.Quiet (w.sceneOf writer) :=
  Scene.quiet_of_eq rfl rfl (fun _ h => h) rfl rfl

theorem adds_moved (w : World) (i : Nat) (writer : Writer) : w.Adds (w.moved i writer) := by
  have hfollows := (writer.run.moved_move (w.sceneOf writer)).scene
  cases hdeed : writer.run.deed? (w.sceneOf writer) with
  | none =>
      rw [hdeed] at hfollows
      cases hfollows with
      | quietly hquiet =>
          apply Adds.nothing _ ((w.sceneOf_quiet writer).trans hquiet)
          simp [moved, hdeed]
  | some deed =>
      rw [hdeed] at hfollows
      cases hfollows with
      | doing hbefore hproper hafter =>
          apply Adds.deed writer.run.ctx ⟨some i, deed⟩ _
            ((w.sceneOf_quiet writer).trans hbefore) hproper hafter
          simp [moved, hdeed]

theorem Step.adds {w w' : World} (h : Step w w') : w.Adds w' := by
  -- What is done by someone else is never reported, so any context will do.
  have ctx : Context := (Context.root "" {}).1
  cases h with
  | moved hwriter => exact w.adds_moved _ _
  | stored items =>
      apply Adds.deed ctx ⟨none, .set w.scene.cacheNow (Cache.storable w.scene.cacheNow items)⟩ rfl
        w.scene.quiet_refl rfl
      rw [World.stored, Cache.afterSet_eq]
      exact Scene.quiet_refl _
  | erased slots =>
      exact Adds.deed ctx ⟨none, .erased slots⟩ rfl w.scene.quiet_refl trivial
        (Scene.quiet_refl _)
  | meanwhile hquiet => exact Adds.nothing rfl hquiet

/-- What has been done stays done. -/
theorem Adds.history_suffix {w w' : World} (h : w.Adds w') : w.history <:+ w'.history := by
  cases h with
  | nothing hhistory hquiet => exact ⟨[], hhistory.symm⟩
  | deed ctx entry hhistory hbefore hproper hafter => exact ⟨[entry], hhistory.symm⟩

theorem Adds.isOver {w w' : World} (h : w.Adds w') {c : Context}
    (hover : c.isOver w.scene.tokens w.scene.now = true) :
    c.isOver w'.scene.tokens w'.scene.now = true := by
  cases h with
  | nothing hhistory hquiet => exact hquiet.isOver hover
  | @deed mid ctx entry hhistory hbefore hproper hafter =>
      apply hafter.isOver
      rw [Scene.isOver_after]
      exact hbefore.isOver hover

theorem Adds.mirrors {w w' : World} (h : w.Adds w') {first : Cache}
    (hmirrors : Mirrors first w.history w.scene.cache w.scene.cacheNow) :
    Mirrors first w'.history w'.scene.cache w'.scene.cacheNow := by
  cases h with
  | nothing hhistory hquiet =>
      rw [hhistory]
      exact hmirrors.fades hquiet.cache hquiet.cacheNow
  | @deed mid ctx entry hhistory hbefore hproper hafter =>
      rw [hhistory]
      have hmid : Mirrors first w.history mid.cache mid.cacheNow :=
        hmirrors.fades hbefore.cache hbefore.cacheNow
      apply (mirrors_after hmid ctx entry hproper).fades hafter.cache
      rw [← mid.cacheNow_after ctx entry.deed]
      exact hafter.cacheNow

theorem Adds.inOrder {w w' : World} (h : w.Adds w')
    (horder : InOrder w.scene.cacheNow w.history) : InOrder w'.scene.cacheNow w'.history := by
  cases h with
  | nothing hhistory hquiet =>
      rw [hhistory]
      exact horder.later hquiet.cacheNow
  | @deed mid ctx entry hhistory hbefore hproper hafter =>
      rw [hhistory]
      have hmid : InOrder mid.cacheNow w.history := horder.later hbefore.cacheNow
      apply (hmid.cons hproper).later
      rw [← mid.cacheNow_after ctx entry.deed]
      exact hafter.cacheNow

def reports (w : World) : Nat :=
  w.history.countP fun entry => entry.deed.isReport

/-- Every report is counted as a failed release, and nothing else is. -/
theorem Adds.failedReleases {w w' : World} (h : w.Adds w') :
    w'.scene.journal.total .failedReleases + w.reports =
      w.scene.journal.total .failedReleases + w'.reports := by
  cases h with
  | nothing hhistory hquiet => rw [reports, reports, hhistory, hquiet.failedReleases]
  | @deed mid ctx entry hhistory hbefore hproper hafter =>
      rw [reports, reports, hhistory, List.countP_cons, hafter.failedReleases,
        Scene.failedReleases_after hproper, hbefore.failedReleases]
      omega

/-!
## Where a world comes from
-/

/-- The same transaction, maybe at another stage. -/
structure Continues (writer' writer : Writer) : Prop where
  scheme : writer'.scheme = writer.scheme
  ctx : writer'.run.ctx = writer.run.ctx
  keys : writer'.run.keys = writer.run.keys
  values : writer'.run.values = writer.run.values

theorem Continues.slots_eq {writer' writer : Writer} (h : Continues writer' writer) :
    writer'.slots = writer.slots := by
  rw [Writer.slots, Writer.slots, h.scheme, h.keys]

theorem Continues.items_eq {writer' writer : Writer} (h : Continues writer' writer) :
    writer'.items = writer.items := by
  rw [Writer.items, Writer.items, h.scheme, h.keys]

theorem Continues.trans {a b c : Writer} (hab : Continues a b) (hbc : Continues b c) :
    Continues a c :=
  ⟨hab.scheme.trans hbc.scheme, hab.ctx.trans hbc.ctx, hab.keys.trans hbc.keys,
    hab.values.trans hbc.values⟩

theorem continues_next (w : World) (writer : Writer) : Continues (w.next writer) writer := by
  have hmoved := writer.run.moved_move (w.sceneOf writer)
  exact ⟨rfl, hmoved.ctx, hmoved.keys, hmoved.values⟩

theorem getElem?_moved_self {w : World} {i : Nat} {writer : Writer}
    (h : w.writers[i]? = some writer) : (w.moved i writer).writers[i]? = some (w.next writer) := by
  rw [moved, List.getElem?_set_self (List.getElem?_eq_some_iff.mp h).1]

theorem getElem?_moved_of_ne {i j : Nat} (w : World) (writer : Writer) (h : j ≠ i) :
    (w.moved i writer).writers[j]? = w.writers[j]? :=
  List.getElem?_set_ne fun heq => h heq.symm

theorem getElem?_moved {w : World} {i j : Nat} {writer writer' : Writer}
    (h : (w.moved i writer).writers[j]? = some writer') :
    (j = i ∧ writer' = w.next writer) ∨ (j ≠ i ∧ w.writers[j]? = some writer') := by
  rw [moved, List.getElem?_set] at h
  by_cases hij : i = j
  · left
    rw [if_pos hij] at h
    by_cases hlt : i < w.writers.length
    · rw [if_pos hlt, Option.some.injEq] at h
      exact ⟨hij.symm, h.symm⟩
    · rw [if_neg hlt] at h
      cases h
  · right
    rw [if_neg hij] at h
    exact ⟨fun heq => hij heq.symm, h⟩

theorem Step.continues {w w' : World} (h : Step w w') {i : Nat} {writer' : Writer}
    (hwriter' : w'.writers[i]? = some writer') :
    ∃ writer, w.writers[i]? = some writer ∧ Continues writer' writer := by
  cases h with
  | @moved j writer hwriter =>
      rcases getElem?_moved hwriter' with ⟨hij, hnext⟩ | ⟨_, hsame⟩
      · rw [hij, hnext]
        exact ⟨writer, hwriter, w.continues_next writer⟩
      · exact ⟨writer', hsame, ⟨rfl, rfl, rfl, rfl⟩⟩
  | stored items => exact ⟨writer', hwriter', ⟨rfl, rfl, rfl, rfl⟩⟩
  | erased slots => exact ⟨writer', hwriter', ⟨rfl, rfl, rfl, rfl⟩⟩
  | meanwhile hquiet => exact ⟨writer', hwriter', ⟨rfl, rfl, rfl, rfl⟩⟩

theorem Reaches.continues {w w' : World} (h : Reaches w w') {i : Nat} {writer' : Writer}
    (hwriter' : w'.writers[i]? = some writer') :
    ∃ writer, w.writers[i]? = some writer ∧ Continues writer' writer := by
  induction h generalizing writer' with
  | refl => exact ⟨writer', hwriter', ⟨rfl, rfl, rfl, rfl⟩⟩
  | tail hreach hstep ih =>
      rcases hstep.continues hwriter' with ⟨between, hbetween, hlast⟩
      rcases ih hbetween with ⟨writer, hwriter, hfirst⟩
      exact ⟨writer, hwriter, hlast.trans hfirst⟩

/-- Along every run the counter of failed releases grows by as many as reports
have come in addition. -/
theorem Reaches.failedReleases {w w' : World} (h : Reaches w w') :
    w'.scene.journal.total .failedReleases + w.reports =
      w.scene.journal.total .failedReleases + w'.reports := by
  induction h with
  | refl => rfl
  | tail hreach hstep ih =>
      have hlast := hstep.adds.failedReleases
      omega

theorem Reaches.isOver {w w' : World} (h : Reaches w w') {c : Context}
    (hover : c.isOver w.scene.tokens w.scene.now = true) :
    c.isOver w'.scene.tokens w'.scene.now = true := by
  induction h with
  | refl => exact hover
  | tail hreach hstep ih => exact hstep.adds.isOver ih

end World
end Simulation
end WriteLatch
