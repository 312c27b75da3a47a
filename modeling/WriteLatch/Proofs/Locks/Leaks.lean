import WriteLatch.Proofs.Interleaving.Deeds
import WriteLatch.Proofs.Interleaving.Dispatch

/-!
# Locks left behind

A transaction that runs to its end leaves no lock behind without a word.  One
that crashes does: nothing comes after a crash, neither the call that erases the
locks nor a report.  If the store crashes under it, its locks are set by then.
-/

namespace WriteLatch
namespace Simulation
namespace World

/-- A lock of the transaction is still there, and nothing was reported for the
transaction. -/
def LeaksSilently (w : World) (i : Nat) : Prop :=
  (∃ slot, w.LockedBy i slot) ∧ ∀ answer, .reported answer ∉ w.deedsOf i

/-- The transaction has crashed on the way, while a call was under way that is
made after the locks were set. -/
def CrashedHolding (start w : World) (i : Nat) : Prop :=
  ∃ before writer, Reaches start before ∧ before.writers[i]? = some writer ∧
    (writer.run.isPutting = true ∨ writer.run.isErasing = true) ∧
    (∃ message, (before.next writer).run.stage = .ended (.crashed message)) ∧
    Reaches (before.moved i writer) w

/-!
## Crashes
-/

/-- A move into a crash does nothing else, and a call is under way. -/
theorem crashed_of_leads {run : Run} {scene : Scene} {stage : Stage} {deed : Option Deed}
    {message : String} (h : Leads run scene stage deed (.ended (.crashed message))) :
    deed = none ∧ (stage = .ended (.crashed message) ∨ (∃ c call, stage = .locking c call) ∨
      (run.enter stage).isPutting = true ∨ (run.enter stage).isErasing = true) := by
  cases h with
  | rests stage => exact ⟨rfl, Or.inl rfl⟩
  | setCrashed c beats message => exact ⟨rfl, Or.inr (Or.inl ⟨c, _, rfl⟩)⟩
  | putCrashed c rules beats message => exact ⟨rfl, Or.inr (Or.inr (Or.inl rfl))⟩
  | deleteCrashed c result beats message => exact ⟨rfl, Or.inr (Or.inr (Or.inr rfl))⟩

theorem eq_of_leads_ended {run : Run} {scene : Scene} {deed : Option Deed} {stage : Stage}
    {e : Client.TaskEnd} (h : Leads run scene (.ended e) deed stage) : stage = .ended e := by
  cases h with
  | rests stage => rfl

theorem CrashedHolding.tail {start w w' : World} {i : Nat} (h : CrashedHolding start w i)
    (hstep : Step w w') : CrashedHolding start w' i := by
  rcases h with ⟨before, writer, hreach, hwriter, hcall, hcrash, hlater⟩
  exact ⟨before, writer, hreach, hwriter, hcall, hcrash, hlater.tail hstep⟩

/-- A transaction that crashed after its locks were set crashed in the call of
the store, or in the one that erases the locks. -/
theorem crashedHolding_of_crashed {start w : World} {i : Nat} {writer : Writer} {set : Deed}
    {message : String} (hfresh : start.Fresh) (hreach : Reaches start w)
    (hwriter : w.writers[i]? = some writer)
    (hcrashed : writer.run.stage = .ended (.crashed message))
    (hset : set ∈ w.deedsOf i) : CrashedHolding start w i := by
  induction hreach generalizing writer with
  | refl =>
      rw [hfresh.opening writer (List.mem_of_getElem? hwriter)] at hcrashed
      cases hcrashed
  | @tail between w hfirst hstep ih =>
      rcases hstep.continues hwriter with ⟨last, hlast, _⟩
      rcases hstep.own_or_other hlast with hown | ⟨hsame, hdeeds⟩
      · rw [hown, getElem?_moved_self hlast, Option.some.injEq] at hwriter
        have hleads := (last.run.moved_move (between.sceneOf last)).stage
        rw [← hwriter] at hcrashed
        have hnext : (last.run.move (between.sceneOf last)).2.1.stage =
            .ended (.crashed message) := hcrashed
        rw [hnext] at hleads
        rcases crashed_of_leads hleads with ⟨hnone, hstage⟩
        rw [hown, deedsOf_moved_self, hnone] at hset
        rcases hstage with hbefore | ⟨c, call, hlocking⟩ | hcall
        · exact (ih hlast hbefore hset).tail hstep
        · -- The locks were not set while they were still being set.
          have htells := (Reaches.sound hfirst (sound_of_fresh hfresh)).tells i last hlast
          rw [hlocking] at htells
          have hempty : between.deedsOf i = [] := htells
          rw [hempty] at hset
          cases hset
        · refine ⟨between, last, hfirst, hlast, hcall, ⟨message, hcrashed⟩, ?_⟩
          rw [hown]
      · rw [hsame, Option.some.injEq] at hwriter
        rw [hdeeds] at hset
        rw [← hwriter] at hcrashed
        exact (ih hlast hcrashed hset).tail hstep

/-- What has crashed stays crashed. -/
theorem CrashedHolding.crashed {start w : World} {i : Nat} {writer : Writer}
    (h : CrashedHolding start w i) (hwriter : w.writers[i]? = some writer) :
    ∃ message, writer.run.stage = .ended (.crashed message) := by
  rcases h with ⟨before, crashing, _, hbefore, _, ⟨message, hcrash⟩, hlater⟩
  refine ⟨message, ?_⟩
  induction hlater generalizing writer with
  | refl =>
      rw [getElem?_moved_self hbefore, Option.some.injEq] at hwriter
      rw [← hwriter]
      exact hcrash
  | @tail between w hfirst hstep ih =>
      rcases hstep.continues hwriter with ⟨last, hlast, _⟩
      have hended := ih hlast
      rcases hstep.own_or_other hlast with hown | ⟨hsame, _⟩
      · rw [hown, getElem?_moved_self hlast, Option.some.injEq] at hwriter
        have hleads := (last.run.moved_move (between.sceneOf last)).stage
        rw [hended] at hleads
        rw [← hwriter]
        exact eq_of_leads_ended hleads
      · rw [hsame, Option.some.injEq] at hwriter
        rw [← hwriter]
        exact hended

/-!
## When locks are left behind
-/

/-- An ended transaction leaves a lock behind without a word exactly when it
crashed with its locks set, nobody has touched the slot since, and the lock has
not expired. -/
theorem leaksSilently_iff {start w : World} {i : Nat} {writer : Writer} {e : Client.TaskEnd}
    (hfresh : start.Fresh) (hreach : Reaches start w) (hwriter : w.writers[i]? = some writer)
    (hend : writer.run.stage = .ended e) :
    w.LeaksSilently i ↔
      CrashedHolding start w i ∧ ∃ slot ∈ writer.slots, ∃ now,
        w.UntouchedSince i now slot ∧ writer.scheme.Lasts now w.scene.cacheNow := by
  have hsound : Sound start.scene.cache w := hreach.sound (sound_of_fresh hfresh)
  have htells := hsound.tells i writer hwriter
  rw [hend] at htells
  constructor
  · rintro ⟨⟨slot, hlocked⟩, hsilent⟩
    rcases (hsound.lockedBy_iff hwriter).mp hlocked with ⟨hslot, now, huntouched, hlasts⟩
    refine ⟨?_, slot, hslot, now, huntouched, hlasts⟩
    rcases huntouched with ⟨newer, items, older, hhistory, huntouched⟩
    have hset : .set now items ∈ w.deedsOf i := by
      rw [deedsOf, mem_deedsIn, hhistory]
      exact List.mem_append_right _ List.mem_cons_self
    cases e with
    | crashed message => exact crashedHolding_of_crashed hfresh hreach hwriter hend hset
    | finished result =>
        exfalso
        rcases htells with hnone | ⟨last, earlier, hdeeds, _, herased | ⟨answer, hreported⟩⟩
        · rw [hnone] at hset
          cases hset
        · rw [herased] at hdeeds
          have hmem : ⟨some i, .erased writer.slots⟩ ∈ newer := by
            apply mem_newer_of_deedsIn hhistory hdeeds
            intro heq
            cases heq
          exact huntouched _ hmem hslot
        · apply hsilent answer
          rw [hdeeds, hreported]
          exact List.mem_cons_self
  · rintro ⟨hcrashed, slot, hslot, now, huntouched, hlasts⟩
    refine ⟨⟨slot, (hsound.lockedBy_iff hwriter).mpr ⟨hslot, now, huntouched, hlasts⟩⟩, ?_⟩
    rcases hcrashed.crashed hwriter with ⟨message, hmessage⟩
    rw [hend] at hmessage
    cases hmessage
    intro answer hmem
    rcases htells with hnone | ⟨t, hone⟩
    · rw [hnone] at hmem
      cases hmem
    · rw [hone] at hmem
      cases List.mem_singleton.mp hmem

/-- A request for one key.  The store crashes under it. -/
def doomed : World :=
  oneByOne { store := [{ trouble := { crash := some "boom" } }] } [.numbered "Item" 1] [.int 1]

def doomedCrashed : World :=
  doomed.turns [0, 0, 0, 0, 0]

theorem leaksSilently_iff_doomedCrashed :
    doomedCrashed.LeaksSilently 0 ↔
      CrashedHolding doomed doomedCrashed 0 ∧
        ∃ slot ∈ [LockScheme.slot {} (.numbered "Item" 1)], ∃ now,
          doomedCrashed.UntouchedSince 0 now slot ∧
            LockScheme.Lasts {} now doomedCrashed.scene.cacheNow := by
  have hwriter : ∃ writer, doomedCrashed.writers[0]? = some writer ∧
      writer.run.stage = .ended (.crashed "boom") ∧ writer.scheme = ({} : LockScheme) ∧
      writer.slots = [LockScheme.slot {} (.numbered "Item" 1)] :=
    ⟨_, rfl, rfl, rfl, rfl⟩
  rcases hwriter with ⟨writer, hwriter, hend, hscheme, hslots⟩
  have h := leaksSilently_iff (fresh_oneByOne _ _ _) (doomed.reaches_turns _) hwriter hend
  rw [hscheme, hslots] at h
  exact h

/-- The transaction has crashed, its lock is still there, and nobody was told. -/
theorem leaksSilently_doomedCrashed :
    Reaches doomed doomedCrashed ∧
      (∃ writer, doomedCrashed.writers[0]? = some writer ∧
        writer.run.stage = .ended (.crashed "boom") ∧
        writer.run.ctx.isOver doomedCrashed.scene.tokens doomedCrashed.scene.now = false) ∧
      doomedCrashed.LeaksSilently 0 := by
  have hreach : Reaches doomed doomedCrashed := doomed.reaches_turns _
  have hsound : Sound doomed.scene.cache doomedCrashed :=
    hreach.sound (sound_of_fresh (fresh_oneByOne _ _ _))
  have hhistory : doomedCrashed.history =
      [⟨some 0, .set 2000 [LockScheme.lockItem {} (.numbered "Item" 1)]⟩] := rfl
  have hwriter : ∃ writer, doomedCrashed.writers[0]? = some writer ∧
      writer.run.stage = .ended (.crashed "boom") ∧
      writer.run.ctx.isOver doomedCrashed.scene.tokens doomedCrashed.scene.now = false ∧
      writer.scheme = ({} : LockScheme) ∧
      writer.slots = [LockScheme.slot {} (.numbered "Item" 1)] :=
    ⟨_, rfl, rfl, rfl, rfl, rfl⟩
  rcases hwriter with ⟨writer, hwriter, hend, hgoesOn, hscheme, hslots⟩
  refine ⟨hreach, ⟨writer, hwriter, hend, hgoesOn⟩, ⟨LockScheme.slot {} (.numbered "Item" 1), ?_⟩, ?_⟩
  · rw [hsound.lockedBy_iff hwriter, hscheme, hslots]
    refine ⟨List.mem_cons_self, 2000, ⟨[], _, [], hhistory, ?_⟩, Or.inr (by decide)⟩
    intro entry hmem
    cases hmem
  · intro answer hmem
    rw [deedsOf, mem_deedsIn, hhistory] at hmem
    cases List.mem_singleton.mp hmem

end World
end Simulation
end WriteLatch
