import WriteLatch.Proofs.Interleaving.Deeds
import WriteLatch.Proofs.Interleaving.Dispatch

/-!
# Locks are given back

Once its locks are set, a transaction that finishes either erases them or
reports why not.  It erases them unless the cache fails to, or its context is
over before the call to the cache is served: the call that gives the locks back
runs under the context as every call does.
-/

namespace WriteLatch
namespace Simulation

namespace World

/-!
## After the locks were set
-/

section

variable (c : Context) (set : Deed) (slots : List String) (wasOver isOver : Prop)

/-- How things stand with a transaction whose locks were set and whose context
for the cache is the one given.  The context may be over by now, and it may have
been over before the locks could be erased. -/
def SinceSet (deeds : List Deed) : Stage -> Prop
  | .opening => False
  | .locking _ _ => False
  | .writing c' _ _ => c' = c ∧ deeds = [set]
  | .releasing c' _ call => c' = c ∧ deeds = [set] ∧ (wasOver -> call.isServed = false)
  | .ended (.finished _) =>
      (¬ wasOver ∧
        (deeds = [.erased slots, set] ∨
          ∃ causes, deeds = [.reported (.returned (.error causes)), set])) ∨
      (isOver ∧ ∃ cause, deeds = [.reported (.interrupted cause), set])
  | .ended (.crashed _) => deeds = [set]

end

theorem SinceSet.later {c : Context} {set : Deed} {slots : List String}
    {wasOver isOver isOver' : Prop} {deeds : List Deed} {stage : Stage}
    (h : SinceSet c set slots wasOver isOver deeds stage) (hover : isOver -> isOver') :
    SinceSet c set slots wasOver isOver' deeds stage := by
  cases stage with
  | ended e =>
      cases e with
      | finished result =>
          rcases h with hgoesOn | ⟨hisOver, hreported⟩
          · exact Or.inl hgoesOn
          · exact Or.inr ⟨hover hisOver, hreported⟩
      | crashed message => exact h
  | opening | locking c call | writing c rules call | releasing c result call => exact h

theorem sinceSet_of_leads {run : Run} {scene : Scene} {stage stage' : Stage}
    {deed : Option Deed} {deeds : List Deed} {c : Context} {set : Deed} {wasOver : Prop}
    (h : Leads run scene stage deed stage')
    (hover : wasOver -> c.isOver scene.tokens scene.now = true)
    (hsince : SinceSet c set (run.lockSlots scene) wasOver
      (c.isOver scene.tokens scene.now = true) deeds stage) :
    SinceSet c set (run.lockSlots scene) wasOver (c.isOver scene.tokens scene.now = true)
      (deed.toList ++ deeds) stage' := by
  cases h with
  | rests stage => exact hsince
  | refused result | opened hopened | setGoesOn c' call call' | set c' beats now
  | setFailed c' call result | setCrashed c' beats message => exact hsince.elim
  | putGoesOn c' rules rules' call call' => exact hsince
  | put c' rules call result => exact ⟨hsince.1, hsince.2, fun _ => rfl⟩
  | putCrashed c' rules beats message => exact hsince.2
  | deleteStarts result call beats hgoesOn =>
      rcases hsince with ⟨hsame, hdeeds, _⟩
      refine ⟨hsame, hdeeds, ?_⟩
      intro hwasOver
      rw [← hsame, hgoesOn] at hover
      cases hover hwasOver
  | deletePauses c' result beats rest resume => exact ⟨hsince.1, hsince.2.1, fun _ => rfl⟩
  | deleted c' result beats =>
      rcases hsince with ⟨_, hdeeds, hserved⟩
      left
      refine ⟨fun hwasOver => ?_, Or.inl ?_⟩
      · cases hserved hwasOver
      · rw [hdeeds]
        rfl
  | deleteFailed c' result beats causes =>
      rcases hsince with ⟨_, hdeeds, hserved⟩
      left
      refine ⟨fun hwasOver => ?_, Or.inr ⟨causes, ?_⟩⟩
      · cases hserved hwasOver
      · rw [hdeeds]
        rfl
  | @deleteInterrupted c' result call cause hinterrupted =>
      rcases hsince with ⟨hsame, hdeeds, _⟩
      right
      refine ⟨?_, cause, ?_⟩
      · rw [← hsame, Context.isOver]
        rw [Scene.interruption?] at hinterrupted
        rw [hinterrupted]
        rfl
      · rw [hdeeds]
        rfl
  | deleteCrashed c' result beats message => exact hsince.2.1

theorem Reaches.sinceSet {w w' : World} (hreach : Reaches w w') {i : Nat}
    {writer writer' : Writer} {c : Context} {set : Deed} {wasOver : Prop}
    (hover : wasOver -> c.isOver w.scene.tokens w.scene.now = true)
    (hwriter : w.writers[i]? = some writer)
    (hsince : SinceSet c set writer.slots wasOver
      (c.isOver w.scene.tokens w.scene.now = true) (w.deedsOf i) writer.run.stage)
    (hwriter' : w'.writers[i]? = some writer') :
    SinceSet c set writer.slots wasOver
      (c.isOver w'.scene.tokens w'.scene.now = true) (w'.deedsOf i) writer'.run.stage := by
  induction hreach generalizing writer' with
  | refl =>
      rw [hwriter, Option.some.injEq] at hwriter'
      rw [← hwriter']
      exact hsince
  | @tail between w' hfirst hstep ih =>
      rcases hstep.continues hwriter' with ⟨last, hlast, _⟩
      have hlater := ih hlast
      have hisOver : c.isOver between.scene.tokens between.scene.now = true ->
          c.isOver w'.scene.tokens w'.scene.now = true := hstep.adds.isOver
      rcases hstep.own_or_other hlast with hown | ⟨hsame, hdeeds⟩
      · rcases Reaches.continues hfirst hlast with ⟨first, hwriterFirst, hcontinues⟩
        rw [hwriter, Option.some.injEq] at hwriterFirst
        rw [hwriterFirst, ← hcontinues.slots_eq] at hlater ⊢
        rw [hown, getElem?_moved_self hlast, Option.some.injEq] at hwriter'
        have hmoved := last.run.moved_move (between.sceneOf last)
        have hbetween : wasOver -> c.isOver between.scene.tokens between.scene.now = true :=
          fun h => Reaches.isOver hfirst (hover h)
        have hnext := sinceSet_of_leads hmoved.stage hbetween hlater
        rw [← deedsOf_moved_self, ← hown] at hnext
        rw [← hwriter']
        exact hnext.later hisOver
      · rw [hsame, Option.some.injEq] at hwriter'
        rw [hdeeds, ← hwriter']
        exact hlater.later hisOver

/-- The setting of the locks opens what a transaction has done. -/
theorem Sound.sinceSet {first : Cache} {w : World} (h : Sound first w) {i : Nat}
    {writer : Writer} {c : Context} {now : Millis}
    (hwriter : w.writers[i]? = some writer) (hcontext : writer.run.cacheContext? = some c)
    (hset : ⟨some i, .set now writer.items⟩ ∈ w.history) {wasOver isOver : Prop}
    (hnotServed : wasOver -> writer.run.isErasing = false) :
    SinceSet c (.set now writer.items) writer.slots wasOver isOver (w.deedsOf i)
      writer.run.stage := by
  have htells := h.tells i writer hwriter
  rw [← mem_deedsIn, ← deedsOf] at hset
  unfold Run.cacheContext? at hcontext
  unfold Run.isErasing at hnotServed
  cases hstage : writer.run.stage with
  | opening | ended e =>
      rw [hstage] at hcontext
      cases hcontext
  | locking c' call =>
      rw [hstage] at htells
      have hnone : w.deedsOf i = [] := htells
      rw [hnone] at hset
      cases hset
  | writing c' rules call =>
      rw [hstage] at hcontext htells
      cases hcontext
      exact ⟨rfl, SetOnce.eq_of_mem (Or.inr htells) hset⟩
  | releasing c' result call =>
      rw [hstage] at hcontext htells hnotServed
      cases hcontext
      exact ⟨rfl, SetOnce.eq_of_mem htells hset, hnotServed⟩

/-!
## How a transaction finishes
-/

/-- A transaction that finishes after its locks were set has either erased
exactly those locks, once, and then none of them is left, or it has reported
once why not, and then the locks are left to whoever touches them and to their
expiry.  It has to report when its context, or that for the cache, was over
before the call that erases them was served. -/
theorem erased_or_reported_of_finished {start w₁ w₂ : World} {i : Nat}
    {writer₁ writer₂ : Writer} {c : Context} {now : Millis} {result : CallResult}
    (hfresh : start.Fresh) (hreach₁ : Reaches start w₁) (hreach₂ : Reaches w₁ w₂)
    (hwriter₁ : w₁.writers[i]? = some writer₁)
    (hcontext : writer₁.run.cacheContext? = some c)
    (hset : ⟨some i, .set now writer₁.items⟩ ∈ w₁.history)
    (hwriter₂ : w₂.writers[i]? = some writer₂)
    (hend : writer₂.run.stage = .ended (.finished result)) :
    ((w₂.deedsOf i = [.erased writer₁.slots, .set now writer₁.items] ∧
        ∀ slot, ¬ w₂.LockedBy i slot) ∨
      ∃ answer, w₂.deedsOf i = [.reported answer, .set now writer₁.items] ∧
        ((∃ causes, answer = .returned (.error causes)) ∨
          (∃ cause, answer = .interrupted cause) ∧
            c.isOver w₂.scene.tokens w₂.scene.now = true) ∧
        ∀ slot, w₂.LockedBy i slot ↔
          slot ∈ writer₁.slots ∧ w₂.UntouchedSince i now slot ∧
            writer₁.scheme.Lasts now w₂.scene.cacheNow) ∧
    (writer₁.run.ctx.isOver w₁.scene.tokens w₁.scene.now = true ∨
        c.isOver w₁.scene.tokens w₁.scene.now = true ->
      writer₁.run.isErasing = false ->
      ∃ cause, w₂.deedsOf i = [.reported (.interrupted cause), .set now writer₁.items]) := by
  have hsound₁ : Sound start.scene.cache w₁ := hreach₁.sound (sound_of_fresh hfresh)
  have hsound₂ : Sound start.scene.cache w₂ := hreach₂.sound hsound₁
  rcases hreach₂.continues hwriter₂ with ⟨first, hfirst, hcontinues⟩
  rw [hwriter₁, Option.some.injEq] at hfirst
  rw [← hfirst] at hcontinues
  -- The context for the cache is over when that of the transaction is.
  have hwithin : c.Within writer₁.run.ctx :=
    hsound₁.within writer₁ (List.mem_of_getElem? hwriter₁) c hcontext
  have hsince (wasOver : Prop)
      (hover : wasOver -> c.isOver w₁.scene.tokens w₁.scene.now = true)
      (hnotServed : wasOver -> writer₁.run.isErasing = false) :=
    hreach₂.sinceSet hover hwriter₁ (hsound₁.sinceSet hwriter₁ hcontext hset hnotServed) hwriter₂
  rw [hend] at hsince
  have hlocked (answer : CacheAnswer)
      (hdeeds : w₂.deedsOf i = [.reported answer, .set now writer₁.items]) (slot : String) :
      w₂.LockedBy i slot ↔
        slot ∈ writer₁.slots ∧ w₂.UntouchedSince i now slot ∧
          writer₁.scheme.Lasts now w₂.scene.cacheNow := by
    rw [hsound₂.lockedBy_iff hwriter₂, hcontinues.slots_eq, hcontinues.scheme]
    constructor
    · rintro ⟨hslot, t, huntouched, hlasts⟩
      have hsame : t = now := by
        rcases huntouched with ⟨newer, items, older, hhistory, _⟩
        have hmem : .set t items ∈ w₂.deedsOf i := by
          rw [deedsOf, mem_deedsIn, hhistory]
          exact List.mem_append_right _ List.mem_cons_self
        rw [hdeeds] at hmem
        rcases List.mem_cons.mp hmem with heq | hmem
        · cases heq
        · cases List.mem_singleton.mp hmem
          rfl
      rw [hsame] at huntouched hlasts
      exact ⟨hslot, huntouched, hlasts⟩
    · rintro ⟨hslot, huntouched, hlasts⟩
      exact ⟨hslot, now, huntouched, hlasts⟩
  constructor
  · rcases hsince False (fun h => h.elim) (fun h => h.elim) with
      ⟨_, herased | ⟨causes, hreported⟩⟩ | ⟨hover, cause, hreported⟩
    · left
      refine ⟨herased, ?_⟩
      intro slot hlocked
      rcases (hsound₂.lockedBy_iff hwriter₂).mp hlocked with
        ⟨hslot, t, ⟨newer, items, older, hhistory, huntouched⟩, _⟩
      rw [hcontinues.slots_eq] at hslot
      have hmem : ⟨some i, .erased writer₁.slots⟩ ∈ newer := by
        apply mem_newer_of_deedsIn hhistory herased
        intro heq
        cases heq
      exact huntouched _ hmem hslot
    · exact Or.inr ⟨_, hreported, Or.inl ⟨causes, rfl⟩, hlocked _ hreported⟩
    · exact Or.inr ⟨_, hreported, Or.inr ⟨⟨cause, rfl⟩, hover⟩, hlocked _ hreported⟩
  · intro hover hnotServed
    have hcontextOver : c.isOver w₁.scene.tokens w₁.scene.now = true := by
      rcases hover with hctx | hc
      · exact hwithin.isOver hctx
      · exact hc
    rcases hsince True (fun _ => hcontextOver) (fun _ => hnotServed) with
      ⟨hnot, _⟩ | ⟨_, hreported⟩
    · exact absurd trivial hnot
    · exact hreported

/-- A request for one key.  The store is called for it. -/
def alone : World :=
  oneByOne {} [.numbered "Item" 1] [.int 1]

def alonePutting : World :=
  alone.turns [0, 0, 0, 0]

/-- The context is cancelled then. -/
def aloneCancelled : World :=
  { alonePutting with scene := alonePutting.scene.cancel (Context.root "root" {}).1 }

def aloneFinished : World :=
  aloneCancelled.turns [0, 0]

theorem reaches_aloneCancelled : Reaches alone aloneCancelled :=
  Relation.ReflTransGen.tail (alone.reaches_turns _)
    (Step.meanwhile (alonePutting.scene.quiet_cancel (Context.root "root" {}).1))

theorem history_aloneCancelled : aloneCancelled.history =
    [⟨some 0, .set 2000 [LockScheme.lockItem {} (.numbered "Item" 1)]⟩] := rfl

theorem reported_aloneFinished :
    ∃ cause, aloneFinished.deedsOf 0 = [.reported (.interrupted cause),
      .set 2000 [LockScheme.lockItem {} (.numbered "Item" 1)]] := by
  have hwriter₁ : ∃ writer c, aloneCancelled.writers[0]? = some writer ∧
      writer.run.cacheContext? = some c ∧
      writer.items = [LockScheme.lockItem {} (.numbered "Item" 1)] ∧
      writer.run.ctx = (Context.root "root" {}).1 ∧ writer.run.isErasing = false :=
    ⟨_, _, rfl, rfl, rfl, rfl, rfl⟩
  rcases hwriter₁ with ⟨writer₁, c, hwriter₁, hcontext, hitems, hctx, herasing⟩
  have hwriter₂ : ∃ writer result, aloneFinished.writers[0]? = some writer ∧
      writer.run.stage = .ended (.finished result) :=
    ⟨_, _, rfl, rfl⟩
  rcases hwriter₂ with ⟨writer₂, result, hwriter₂, hend⟩
  have hset : ⟨some 0, .set 2000 writer₁.items⟩ ∈ aloneCancelled.history := by
    rw [history_aloneCancelled, hitems]
    exact List.mem_cons_self
  have hover : writer₁.run.ctx.isOver aloneCancelled.scene.tokens aloneCancelled.scene.now = true := by
    rw [hctx]
    rfl
  have h := erased_or_reported_of_finished (fresh_oneByOne _ _ _) reaches_aloneCancelled
    (aloneCancelled.reaches_turns _) hwriter₁ hcontext hset hwriter₂ hend
  rw [hitems] at h
  exact h.2 (Or.inl hover) herasing

/-- The locks were set, and when the transaction is through with its context
cancelled, they have not been deleted and are still there. -/
theorem lockedBy_aloneFinished :
    Reaches alone aloneCancelled ∧ Reaches aloneCancelled aloneFinished ∧
      ⟨some 0, .set 2000 [LockScheme.lockItem {} (.numbered "Item" 1)]⟩ ∈ aloneCancelled.history ∧
      (∃ writer result, aloneFinished.writers[0]? = some writer ∧
        writer.run.stage = .ended (.finished result)) ∧
      (∀ slots, ⟨some 0, .erased slots⟩ ∉ aloneFinished.history) ∧
      aloneFinished.LockedBy 0 (LockScheme.slot {} (.numbered "Item" 1)) := by
  have hreach : Reaches aloneCancelled aloneFinished := aloneCancelled.reaches_turns _
  have hsound : Sound alone.scene.cache aloneFinished :=
    hreach.sound (reaches_aloneCancelled.sound (sound_of_fresh (fresh_oneByOne _ _ _)))
  have hhistory : aloneFinished.history =
      [⟨some 0, .reported (.interrupted .cancelled)⟩,
        ⟨some 0, .set 2000 [LockScheme.lockItem {} (.numbered "Item" 1)]⟩] := rfl
  refine ⟨reaches_aloneCancelled, hreach, ?_, ⟨_, _, rfl, rfl⟩, ?_, ?_⟩
  · rw [history_aloneCancelled]
    exact List.mem_cons_self
  · rw [hhistory]
    simp
  · have hwriter : ∃ writer, aloneFinished.writers[0]? = some writer ∧
        writer.scheme = ({} : LockScheme) ∧
        writer.slots = [LockScheme.slot {} (.numbered "Item" 1)] :=
      ⟨_, rfl, rfl, rfl⟩
    rcases hwriter with ⟨writer, hwriter, hscheme, hslots⟩
    rw [hsound.lockedBy_iff hwriter, hscheme, hslots]
    refine ⟨List.mem_cons_self, 2000,
      ⟨[⟨some 0, .reported (.interrupted .cancelled)⟩], _, [], hhistory, ?_⟩,
      Or.inr (by decide)⟩
    intro entry hmem
    rw [List.mem_singleton.mp hmem]
    exact fun h => h

end World
end Simulation
end WriteLatch
