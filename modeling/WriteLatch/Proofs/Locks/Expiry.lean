import WriteLatch.Proofs.Interleaving.Deeds
import WriteLatch.Proofs.Interleaving.Dispatch

/-!
# Locks that outlast their time

A client is told how many seconds its locks last, and takes any number.  A
transaction sets its locks once.  When so many seconds have gone by since then,
none of them is left, however the transaction has ended, unless the number is
zero: a lock with no time to last does not expire.
-/

namespace WriteLatch

namespace Config

theorem lasts_lockScheme_iff (config : Config) (since now : Millis) :
    config.lockScheme.Lasts since now ↔
      config.lockSeconds = 0 ∨ now < since + config.lockSeconds * 1000 := by
  have hlifetime : config.lockScheme.lifetime = config.lockSeconds * 1000 := rfl
  rw [LockScheme.Lasts, hlifetime, Nat.mul_eq_zero, or_iff_left (by decide : ¬ 1000 = 0)]

end Config

namespace Simulation
namespace World

/-!
## The time of a setting
-/

/-- A transaction sets its locks at one time only. -/
theorem Tells.eq_of_set {items : List CacheItem} {slots : List String} {deeds : List Deed}
    {stage : Stage} (h : Tells items slots deeds stage) {t t' : Millis}
    {set set' : List CacheItem} (hset : .set t set ∈ deeds) (hset' : .set t' set' ∈ deeds) :
    t = t' := by
  have hsame {deeds' : List Deed} (honce : SetOnce items deeds') (hmem : .set t set ∈ deeds')
      (hmem' : .set t' set' ∈ deeds') : t = t' := by
    rw [honce.eq_of_mem hmem] at hmem'
    cases List.mem_singleton.mp hmem'
    rfl
  cases stage with
  | opening | locking c call => exact hsame (Or.inl h) hset hset'
  | writing c rules call => exact hsame (Or.inr h) hset hset'
  | releasing c result call => exact hsame h hset hset'
  | ended e =>
      cases e with
      | crashed message => exact hsame h hset hset'
      | finished result =>
          rcases h with hnone | ⟨last, earlier, hdeeds, honce, hlast⟩
          · exact hsame (Or.inl hnone) hset hset'
          · -- The last deed was to erase the locks, or to report why not.
            have hearlier {t : Millis} {set : List CacheItem} (hmem : .set t set ∈ deeds) :
                .set t set ∈ earlier := by
              rw [hdeeds] at hmem
              rcases List.mem_cons.mp hmem with heq | hrest
              · rw [← heq] at hlast
                rcases hlast with herased | ⟨answer, hreported⟩
                · cases herased
                · cases hreported
              · exact hrest
            exact hsame honce (hearlier hset) (hearlier hset')

theorem Sound.eq_of_untouchedSince {first : Cache} {w : World} (h : Sound first w) {i : Nat}
    {writer : Writer} (hwriter : w.writers[i]? = some writer) {now t : Millis}
    (hset : ⟨some i, .set now writer.items⟩ ∈ w.history) {slot : String}
    (huntouched : w.UntouchedSince i t slot) : t = now := by
  rcases huntouched with ⟨newer, items, older, hhistory, _⟩
  have hmem : ⟨some i, .set t items⟩ ∈ w.history := by
    rw [hhistory]
    exact List.mem_append_right _ List.mem_cons_self
  exact (h.tells i writer hwriter).eq_of_set (mem_deedsIn.mpr hmem) (mem_deedsIn.mpr hset)

/-!
## When the time is over
-/

/-- When the time that a client lets its locks last is over, a slot is still locked
by the lock that was set in it only if that time is zero, and then until somebody
touches the slot. -/
theorem lockedBy_once_elapsed_iff {config : Config} {limit : Nat} {client : Client}
    (hclient : Client.create config limit = .ok client) {start w : World} (hfresh : start.Fresh)
    (hreach : Reaches start w) {i : Nat} {writer : Writer} (hwriter : w.writers[i]? = some writer)
    (hscheme : writer.scheme = client.config.lockScheme) {now : Millis}
    (hset : ⟨some i, .set now writer.items⟩ ∈ w.history) {slot : String}
    (hslot : slot ∈ writer.slots)
    (helapsed : now + config.lockSeconds * 1000 <= w.scene.cacheNow) :
    w.LockedBy i slot ↔ config.lockSeconds = 0 ∧ w.UntouchedSince i now slot := by
  have hsound : Sound start.scene.cache w := hreach.sound (sound_of_fresh hfresh)
  have hconfig : client.config = config := by rw [(Client.eq_of_create hclient).2]
  rw [hsound.lockedBy_iff hwriter, hscheme, hconfig]
  constructor
  · rintro ⟨_, t, huntouched, hlasts⟩
    have htime := hsound.eq_of_untouchedSince hwriter hset huntouched
    rw [htime] at huntouched hlasts
    rcases (config.lasts_lockScheme_iff now _).mp hlasts with hforever | hbefore
    · exact ⟨hforever, huntouched⟩
    · exact absurd hbefore (Nat.not_lt.mpr helapsed)
  · rintro ⟨hforever, huntouched⟩
    exact ⟨hslot, now, huntouched, (config.lasts_lockScheme_iff now _).mpr (Or.inl hforever)⟩

/-- A client whose locks have no time to last. -/
def unhurried : Client :=
  ⟨{ lockSeconds := 0 }, 500⟩

/-- Its request for one key.  The store crashes under it. -/
def stranded : World :=
  let scene : Scene := { faults := { store := [{ trouble := { crash := some "boom" } }] } }
  dispatched unhurried (scene.newRoot "root").2 (scene.newRoot "root").1 [.numbered "Item" 1]
    [.int 1]

def strandedCrashed : World :=
  stranded.turns [0, 0, 0, 0, 0]

/-- A day goes by. -/
def strandedLater : World :=
  { strandedCrashed with
    scene := { strandedCrashed.scene with cacheNow := strandedCrashed.scene.cacheNow + 86400000 } }

theorem reaches_strandedLater : Reaches stranded strandedLater := by
  refine Relation.ReflTransGen.tail (stranded.reaches_turns _) (Step.meanwhile ?_)
  exact ⟨Nat.le_refl _, Nat.le_add_right _ _, fun _ h => h, Cache.fades_refl _ _, rfl⟩

theorem writer_strandedLater : ∃ writer, strandedLater.writers[0]? = some writer ∧
    writer.scheme = unhurried.config.lockScheme ∧
    writer.run.stage = .ended (.crashed "boom") ∧
    ⟨some 0, .set 2000 writer.items⟩ ∈ strandedLater.history ∧
    unhurried.config.lockScheme.slot (.numbered "Item" 1) ∈ writer.slots := by
  refine ⟨_, rfl, rfl, rfl, ?_, ?_⟩
  · exact List.mem_cons_self
  · exact List.mem_cons_self

theorem untouchedSince_strandedLater : strandedLater.UntouchedSince 0 2000
    (unhurried.config.lockScheme.slot (.numbered "Item" 1)) := by
  refine ⟨[], _, [], rfl, ?_⟩
  intro entry hmem
  cases hmem

theorem lockedBy_once_elapsed_iff_strandedLater :
    ∃ writer, strandedLater.writers[0]? = some writer ∧
      (strandedLater.LockedBy 0 (unhurried.config.lockScheme.slot (.numbered "Item" 1)) ↔
        unhurried.config.lockSeconds = 0 ∧ strandedLater.UntouchedSince 0 2000
          (unhurried.config.lockScheme.slot (.numbered "Item" 1))) := by
  rcases writer_strandedLater with ⟨writer, hwriter, hscheme, _, hset, hslot⟩
  have hclient : Client.create { lockSeconds := 0 } 500 = .ok unhurried := rfl
  exact ⟨writer, hwriter, lockedBy_once_elapsed_iff hclient (fresh_dispatched _ _ _ _ _)
    reaches_strandedLater hwriter hscheme hset hslot (by decide)⟩

/-- The settings were accepted, the time of the lock is over by a day, the
transaction has crashed, and the slot is locked by its lock. -/
theorem lockedBy_strandedLater :
    Client.create { lockSeconds := 0 } 500 = .ok unhurried ∧ Reaches stranded strandedLater ∧
      (∃ writer, strandedLater.writers[0]? = some writer ∧
        writer.scheme = unhurried.config.lockScheme ∧
        writer.run.stage = .ended (.crashed "boom") ∧
        ⟨some 0, .set 2000 writer.items⟩ ∈ strandedLater.history ∧
        unhurried.config.lockScheme.slot (.numbered "Item" 1) ∈ writer.slots) ∧
      2000 + unhurried.config.lockSeconds * 1000 < strandedLater.scene.cacheNow ∧
      strandedLater.LockedBy 0 (unhurried.config.lockScheme.slot (.numbered "Item" 1)) := by
  refine ⟨rfl, reaches_strandedLater, writer_strandedLater, by decide, ?_⟩
  rcases writer_strandedLater with ⟨writer, hwriter, hscheme, _, _, hslot⟩
  have hsound := reaches_strandedLater.sound (sound_of_fresh (fresh_dispatched _ _ _ _ _))
  exact (hsound.lockedBy_iff hwriter).mpr
    ⟨hslot, 2000, untouchedSince_strandedLater, Or.inl (congrArg LockScheme.lifetime hscheme)⟩

end World
end Simulation
end WriteLatch
