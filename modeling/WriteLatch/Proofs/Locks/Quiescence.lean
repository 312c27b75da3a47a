import WriteLatch.Proofs.Interleaving.Calls
import WriteLatch.Proofs.Interleaving.Traffic

/-!
# No locks once all is quiet

Transactions with keys in common set the same slots and erase each other's
locks.  Still every lock that one of them has placed goes away with it: as long
as the cache answers, no context ends before its transaction and nothing
crashes, whoever placed the item in a slot has not erased its slots yet.  Who
called and whether anybody still waits makes no difference.
-/

namespace WriteLatch
namespace Simulation

/-- A call of a cache without faults: it has not begun, or is carried out with
the next move. -/
def Progress.IsPlain {ε : Type} : Progress ε -> Prop
  | .notBegun => True
  | .serving beats => beats = []
  | .paused _ _ => False

namespace Stage

/-- The cache has no faults in the calls made so far. -/
def IsPlain : Stage -> Prop
  | .locking _ call => call.IsPlain
  | .releasing _ _ call => call.IsPlain
  | .opening => True
  | .writing _ _ _ => True
  | .ended _ => True

end Stage

namespace World

/-- The cache has no faults, no transaction has crashed, and no context for the
cache has ended under a transaction.  Since such a context ends at the latest
with that of the transaction, neither has that one. -/
structure Calm (w : World) : Prop where
  setting : w.scene.faults.cache.set.beats = []
  deleting : w.scene.faults.cache.delete.beats = []
  inTime : ∀ writer ∈ w.writers, ∀ c, writer.run.cacheContext? = some c ->
    c.isOver w.scene.tokens w.scene.now = false
  uncrashed : ∀ writer ∈ w.writers, ∀ message, writer.run.stage ≠ .ended (.crashed message)

/-- There is an item in the slot, and the transaction has placed it there. -/
def PlacedBy (w : World) (i : Nat) (slot : String) : Prop :=
  ∃ e, w.scene.cache.held? slot = some e ∧ standing slot w.history = .holds (some i) e

/-- A step into a world that is calm, too. -/
def CalmStep (w w' : World) : Prop :=
  w.Step w' ∧ w'.Calm

/-- Nothing had to be reported, and no call of the cache is anything but plain. -/
structure Undisturbed (w : World) : Prop where
  plain : ∀ writer ∈ w.writers, writer.run.stage.IsPlain
  unreported : ∀ entry ∈ w.history, entry.deed.isReport = false

end World

/-!
## Calls of a cache without faults
-/

theorem GoesOn.isPlain {ε : Type} {scene : Scene} {c : Context} {beats : List (Beat ε)}
    {call call' : Progress ε} (h : GoesOn scene c beats call call') (hbeats : beats = [])
    (hplain : call.IsPlain) : call'.IsPlain := by
  cases h with
  | begins hover => exact hbeats
  | @pauses left rest resume hserved =>
      have hnone : left = [] := hplain
      rw [hnone, Scene.serve_nil] at hserved
      rcases hserved with hpaused | hgaveWay
      · cases hpaused
      · cases hgaveWay
  | resumes resume rest hover => exact hplain.elim

theorem Stage.isPlain_ofPhase (phase : Transaction.Phase) : (ofPhase phase).IsPlain := by
  cases phase <;> trivial

theorem isPlain_of_turns {run : Run} {scene : Scene} {stage stage' : Stage} {store : Store}
    (h : Turns run scene stage store stage') (hset : scene.faults.cache.set.beats = [])
    (hdelete : scene.faults.cache.delete.beats = []) (hplain : stage.IsPlain) :
    stage'.IsPlain := by
  cases h with
  | rests stage => exact hplain
  | setGoesOn hcall => exact hcall.isPlain hset hplain
  | deleteGoesOn hcall => exact hcall.isPlain hdelete hplain
  | putGoesOn hrules hcall => trivial
  | opened hanswer => exact Stage.isPlain_ofPhase _
  | setEnded hended => exact Stage.isPlain_ofPhase _
  | putEnded hended => exact Stage.isPlain_ofPhase _
  | deleteEnded hended => exact Stage.isPlain_ofPhase _
  | setCrashed c beats message | putCrashed c rules beats message
  | deleteCrashed c result beats message => trivial

/-- With a plain call, and a context that is not over, nothing is reported. -/
theorem not_isReport_of_deed? {run : Run} {scene : Scene} {deed : Deed}
    (hdeed : run.deed? scene = some deed) (hplain : run.stage.IsPlain)
    (hgoesOn : ∀ c, run.cacheContext? = some c -> c.isOver scene.tokens scene.now = false) :
    deed.isReport = false := by
  unfold Run.deed? at hdeed
  unfold Run.cacheContext? at hgoesOn
  cases hstage : run.stage with
  | opening | ended e | writing c rules call =>
      rw [hstage] at hdeed
      cases hdeed
  | locking c call =>
      rw [hstage] at hdeed hplain
      cases call with
      | notBegun => cases hdeed
      | paused resume rest => cases hdeed
      | serving beats =>
          have hnone : beats = [] := hplain
          rw [hnone] at hdeed
          simp only [Scene.serve_nil] at hdeed
          cases hset : scene.cache.setAll scene.cacheNow (run.lockItems scene) with
          | ok cache =>
              rw [hset] at hdeed
              cases hdeed
              rfl
          | error cache =>
              rw [hset] at hdeed
              cases hdeed
  | releasing c result call =>
      rw [hstage] at hdeed hplain hgoesOn
      have hfree : scene.interruption? c = none := by
        have hover := hgoesOn c rfl
        rw [Context.isOver, Option.isSome_eq_false_iff, Option.isNone_iff_eq_none] at hover
        exact hover
      cases call with
      | paused resume rest => exact hplain.elim
      | notBegun =>
          simp only [hfree] at hdeed
          cases hdeed
      | serving beats =>
          have hnone : beats = [] := hplain
          rw [hnone] at hdeed
          cases hdeed
          rfl

/-!
## The invariant
-/

namespace World

theorem Undisturbed.moved {w : World} (h : w.Undisturbed) (hcalm : w.Calm) {i : Nat}
    {writer : Writer} (hwriter : w.writers[i]? = some writer) :
    (w.moved i writer).Undisturbed := by
  have hmem := List.mem_of_getElem? hwriter
  have hplain := h.plain writer hmem
  constructor
  · intro other hother
    rcases List.mem_or_eq_of_mem_set hother with hold | hnext
    · exact h.plain other hold
    · have hturns := writer.run.turns_move (w.sceneOf writer)
      rw [hnext]
      exact isPlain_of_turns hturns hcalm.setting hcalm.deleting hplain
  · intro entry hentry
    rcases List.mem_append.mp hentry with hnew | hold
    · rw [Option.mem_toList, Option.map_eq_some_iff] at hnew
      rcases hnew with ⟨deed, hdeed, heq⟩
      rw [← heq]
      exact not_isReport_of_deed? hdeed hplain (hcalm.inTime writer hmem)
    · exact h.unreported entry hold

theorem Undisturbed.step {w w' : World} (h : w.Undisturbed) (hcalm : w.Calm) (hstep : Step w w') :
    w'.Undisturbed := by
  have hforeign (deed : Deed) (hdeed : deed.isReport = false) :
      ∀ entry ∈ ⟨none, deed⟩ :: w.history, entry.deed.isReport = false := by
    intro entry hmem
    rcases List.mem_cons.mp hmem with heq | hold
    · rw [heq]
      exact hdeed
    · exact h.unreported entry hold
  cases hstep with
  | moved hwriter => exact h.moved hcalm hwriter
  | stored items => exact ⟨h.plain, hforeign _ rfl⟩
  | erased slots => exact ⟨h.plain, hforeign _ rfl⟩
  | meanwhile hquiet => exact ⟨h.plain, h.unreported⟩

/-- What is kept by calm steps, and by transactions that come in addition. -/
structure Quiescent (first : Cache) (w : World) : Prop where
  sound : Sound first w
  undisturbed : w.Undisturbed
  calm : w.Calm

theorem quiescent_of_fresh {w : World} (h : w.Fresh) (hcalm : w.Calm) :
    Quiescent w.scene.cache w := by
  refine ⟨sound_of_fresh h, ⟨?_, ?_⟩, hcalm⟩
  · intro writer hmem
    rw [h.opening writer hmem]
    trivial
  · rw [h.history]
    intro entry hmem
    cases hmem

theorem Quiescent.step {first : Cache} {w w' : World} (h : Quiescent first w)
    (hstep : CalmStep w w') : Quiescent first w' :=
  ⟨h.sound.step hstep.1, h.undisturbed.step h.calm hstep.1, hstep.2⟩

theorem Quiescent.started {first : Cache} {t : Traffic} {writers : List Writer}
    (h : Quiescent first t.world) (hincoming : ∀ writer ∈ writers, writer.Incoming) :
    Quiescent first (t.started writers).world := by
  have hopening {writer : Writer} (hnew : writer ∈ writers) := (hincoming writer hnew).opening
  refine ⟨h.sound.started hincoming, ⟨?_, h.undisturbed.unreported⟩,
    ⟨h.calm.setting, h.calm.deleting, ?_, ?_⟩⟩
  · intro writer hmem
    rcases List.mem_append.mp hmem with hold | hnew
    · exact h.undisturbed.plain writer hold
    · rw [hopening hnew]
      trivial
  · intro writer hmem c hc
    rcases List.mem_append.mp hmem with hold | hnew
    · exact h.calm.inTime writer hold c hc
    · rw [Run.cacheContext?, hopening hnew] at hc
      cases hc
  · intro writer hmem message hcrashed
    rcases List.mem_append.mp hmem with hold | hnew
    · exact h.calm.uncrashed writer hold message hcrashed
    · rw [hopening hnew] at hcrashed
      cases hcrashed

end World

/-!
## Who has placed a lock has not finished
-/

namespace World

/-- Whoever has placed an item is still between setting its locks and erasing
them. -/
theorem Quiescent.unfinished_of_placedBy {first : Cache} {w : World}
    (hquiescent : Quiescent first w) {i : Nat} {slot : String} (hplaced : w.PlacedBy i slot) :
    ∃ writer now, w.writers[i]? = some writer ∧ writer.run.end? = none ∧
      w.deedsOf i = [.set now writer.items] := by
  have h := hquiescent.sound
  rcases hplaced with ⟨e, _, hstands⟩
  rcases standing_eq_holds_iff.mp hstands with
    ⟨newer, now, items, older, item, hhistory, huntouched, hitem, _⟩
  have hmem : ⟨some i, .set now items⟩ ∈ w.history := by
    rw [hhistory]
    exact List.mem_append_right _ List.mem_cons_self
  rcases h.exists_writer hmem with ⟨writer, hwriter⟩
  have hitems := h.items_eq hwriter hmem
  have hdone : .set now writer.items ∈ w.deedsOf i := by
    rw [← hitems]
    exact mem_deedsIn.mpr hmem
  have htells := h.tells i writer hwriter
  refine ⟨writer, now, hwriter, ?_⟩
  cases hstage : writer.run.stage with
  | opening | locking c call =>
      rw [hstage] at htells
      have hnone : w.deedsOf i = [] := htells
      rw [hnone] at hdone
      cases hdone
  | writing c rules call =>
      rw [hstage] at htells
      refine ⟨?_, SetOnce.eq_of_mem (Or.inr htells) hdone⟩
      rw [Run.end?, hstage]
  | releasing c result call =>
      rw [hstage] at htells
      refine ⟨?_, SetOnce.eq_of_mem htells hdone⟩
      rw [Run.end?, hstage]
  | ended e =>
      exfalso
      cases e with
      | crashed message =>
          exact hquiescent.calm.uncrashed writer (List.mem_of_getElem? hwriter) message hstage
      | finished result =>
          rw [hstage] at htells
          rcases htells with hnone | ⟨last, earlier, hdeeds, _, hlast⟩
          · rw [hnone] at hdone
            cases hdone
          · rcases hlast with herased | ⟨answer, hreported⟩
            · -- It has erased its slots since, and this is one of them.
              have hnewer : ⟨some i, last⟩ ∈ newer := by
                apply mem_newer_of_deedsIn hhistory hdeeds
                intro heq
                rw [herased] at heq
                cases heq
              rw [herased] at hnewer
              apply huntouched _ hnewer
              rcases Cache.placed?_eq_some hitem with ⟨hmemItem, hslot⟩
              rw [hitems] at hmemItem
              rw [← hslot]
              exact Writer.slot_mem_slots_of_mem_items hmemItem
            · have hentry : ⟨some i, last⟩ ∈ w.history := by
                rw [← mem_deedsIn, ← deedsOf, hdeeds]
                exact List.mem_cons_self
              have hunreported := hquiescent.undisturbed.unreported _ hentry
              rw [hreported] at hunreported
              cases hunreported

end World

namespace Traffic

/-- Whatever clients call and however their transactions take turns, every lock
that one of the transactions has placed was placed by one that has set its locks
and not yet erased them.  When all have ended, none of their locks is left. -/
theorem unfinished_of_placedBy_and_none_left {start t : Traffic} (hfresh : start.world.Fresh)
    (hcalm : start.world.Calm) (hreach : Reaches World.CalmStep start t) :
    (∀ i slot, t.world.PlacedBy i slot ->
      ∃ writer now, t.world.writers[i]? = some writer ∧ writer.run.end? = none ∧
        t.world.deedsOf i = [.set now writer.items]) ∧
    ((∀ writer ∈ t.world.writers, writer.run.end?.isSome = true) ->
      ∀ i slot, ¬ t.world.PlacedBy i slot) := by
  have hquiescent : World.Quiescent start.world.scene.cache t.world :=
    hreach.induct (World.quiescent_of_fresh hfresh hcalm)
      (fun _ _ h hincoming => h.started hincoming) (fun _ _ h hstep => h.step hstep)
  constructor
  · intro i slot hplaced
    exact hquiescent.unfinished_of_placedBy hplaced
  · intro hended i slot hplaced
    rcases hquiescent.unfinished_of_placedBy hplaced with ⟨writer, now, hwriter, hunfinished, _⟩
    have hend := hended writer (List.mem_of_getElem? hwriter)
    rw [hunfinished] at hend
    cases hend

end Traffic

namespace World

def isCalm (w : World) : Bool :=
  w.scene.faults.cache.set.beats.isEmpty && w.scene.faults.cache.delete.beats.isEmpty &&
    w.writers.all fun writer =>
      (writer.run.cacheContext?.all fun c => !c.isOver w.scene.tokens w.scene.now) &&
        match writer.run.stage with
        | .ended (.crashed _) => false
        | _ => true

theorem calm_of_isCalm {w : World} (h : w.isCalm = true) : w.Calm := by
  simp only [isCalm, Bool.and_eq_true, List.isEmpty_iff, List.all_eq_true] at h
  rcases h with ⟨⟨hsetting, hdeleting⟩, hwriters⟩
  refine ⟨hsetting, hdeleting, ?_, ?_⟩
  · intro writer hmem c hc
    have hover := (hwriters writer hmem).1
    rw [hc] at hover
    simpa using hover
  · intro writer hmem message hcrashed
    have hgoesOn := (hwriters writer hmem).2
    rw [hcrashed] at hgoesOn
    cases hgoesOn

end World

namespace Traffic

theorem reaches_calmTurns {t : Traffic} {ids : List Nat}
    (h : t.world.staysIn World.isCalm ids = true) :
    Reaches World.CalmStep t { t with world := t.world.turns ids } :=
  reaches_turns (fun _ _ _ hwriter _ hnext =>
    ⟨World.Step.moved hwriter, World.calm_of_isCalm hnext⟩) h

/-- A client writes two keys in two pieces. -/
def oneCalls : Traffic :=
  idle.started (idle.writersOf ⟨{}, 1⟩ (Context.root "root" {}).1
    [.numbered "Item" 1, .numbered "Item" 2] [.int 1, .int 2])

/-- Another one writes one of the keys, too. -/
def bothCall : Traffic :=
  oneCalls.started [Writer.single {} (Context.root "root" {}).1 (.numbered "Item" 1) (.int 3)]

/-- The locks of the key have been set twice and erased once, and the first
caller has left. -/
def oneLeaves : Traffic :=
  { world := bothCall.world.turns [0, 0, 0, 2, 2, 2, 2, 0, 0, 0, 0], waiting := [⟨2, 3⟩] }

def bothWritten : Traffic :=
  { oneLeaves with world := oneLeaves.world.turns [1, 1, 1, 1, 1, 1, 1, 2, 2, 2] }

theorem reaches_bothWritten : Reaches World.CalmStep idle bothWritten := by
  have hone : Step World.CalmStep idle oneCalls :=
    Step.calledForMany ⟨{}, 1⟩ (Context.root "root" {}).1 rfl
  have hboth : Step World.CalmStep oneCalls bothCall :=
    Step.calledForOne ⟨{}, 1⟩ (Context.root "root" {}).1 rfl
  have hturns : bothCall.world.staysIn World.isCalm [0, 0, 0, 2, 2, 2, 2, 0, 0, 0, 0] = true := rfl
  have hleft : Step World.CalmStep { bothCall with world := oneLeaves.world } oneLeaves :=
    Step.left ⟨0, 2⟩
  have hrest : oneLeaves.world.staysIn World.isCalm [1, 1, 1, 1, 1, 1, 1, 2, 2, 2] = true := rfl
  have hfirst : Reaches World.CalmStep idle bothCall :=
    (Relation.ReflTransGen.single hone).tail hboth
  exact ((hfirst.trans (reaches_calmTurns hturns)).tail hleft).trans (reaches_calmTurns hrest)

theorem none_left_bothWritten :
    Reaches World.CalmStep idle bothWritten ∧ bothWritten.world.history ≠ [] ∧
      ∀ i slot, ¬ bothWritten.world.PlacedBy i slot := by
  have hfresh : idle.world.Fresh := by
    constructor
    · rfl
    · intro writer hmem
      cases hmem
  have hended : ∀ writer ∈ bothWritten.world.writers, writer.run.end?.isSome = true := by
    have hall : (bothWritten.world.writers.all fun writer => writer.run.end?.isSome) = true := rfl
    exact List.all_eq_true.mp hall
  refine ⟨reaches_bothWritten, ?_, ?_⟩
  · intro hnone
    cases hnone
  · exact (unfinished_of_placedBy_and_none_left hfresh (World.calm_of_isCalm rfl)
      reaches_bothWritten).2 hended

end Traffic
end Simulation
end WriteLatch
