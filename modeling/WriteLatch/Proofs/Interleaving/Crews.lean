import Mathlib.Logic.Relation
import WriteLatch.Proofs.Interleaving.Moves
import WriteLatch.Simulation.Session

/-!
# Crews

Transactions share a scene and take turns in it.  Some of them stand on the
tasks of a schedule, others have no task.  Whatever a schedule does, and whoever
waits for it, comes down to moves of single transactions; in between the scene
is tended: the clock goes on, turns begin, contexts are let go of and ends are
noted.  Tending touches neither the collaborators nor what is told of them.
-/

namespace WriteLatch

/-- What an event tells the reporter. -/
def Event.report? : Event -> Option Report
  | .reported report => some report
  | _ => none

/-- Neither a call nor a report is noted, and no failed release is counted. -/
structure Journal.Tended (before after : Journal) : Prop where
  calls : after.calls = before.calls
  reports : after.reports = before.reports
  events : after.events.filterMap Event.report? = before.events.filterMap Event.report?
  failedReleases : after.total .failedReleases = before.total .failedReleases
  reportedErrors : after.total .reportedErrors = before.total .reportedErrors

namespace Journal

theorem tended_refl (j : Journal) : Tended j j :=
  ⟨rfl, rfl, rfl, rfl, rfl⟩

theorem Tended.trans {a b c : Journal} (hab : Tended a b) (hbc : Tended b c) : Tended a c :=
  ⟨hbc.calls.trans hab.calls, hbc.reports.trans hab.reports, hbc.events.trans hab.events,
    hbc.failedReleases.trans hab.failedReleases, hbc.reportedErrors.trans hab.reportedErrors⟩

theorem tended_event (j : Journal) {e : Event} (h : e.report? = none) : Tended j (j.event e) := by
  refine ⟨rfl, rfl, ?_, rfl, rfl⟩
  rw [event, List.filterMap_append, List.filterMap_cons, h, List.filterMap_nil, List.append_nil]

theorem tended_count (j : Journal) {c : Counter} (n : Nat) (hreleases : c ≠ .failedReleases)
    (herrors : c ≠ .reportedErrors) : Tended j (j.count c n) := by
  refine ⟨rfl, rfl, rfl, ?_, ?_⟩
  · rw [total_count, if_neg (Ne.symm hreleases)]
  · rw [total_count, if_neg (Ne.symm herrors)]

end Journal

namespace Simulation

/-- Between two moves only the clock, the turn, what is known of contexts that are
held or were reached, and the journal change. -/
structure Scene.Tended (before after : Scene) : Prop where
  same : after = { before with
    now := after.now, allowance := after.allowance, lineage := after.lineage,
    reached := after.reached, journal := after.journal }
  now : before.now <= after.now
  journal : before.journal.Tended after.journal

namespace Scene

theorem tended_refl (scene : Scene) : Tended scene scene :=
  ⟨rfl, Nat.le_refl _, scene.journal.tended_refl⟩

theorem tended_of_journal {scene : Scene} {journal : Journal}
    (h : scene.journal.Tended journal) : Tended scene { scene with journal := journal } :=
  ⟨rfl, Nat.le_refl _, h⟩

theorem Tended.trans {a b c : Scene} (hab : Tended a b) (hbc : Tended b c) : Tended a c := by
  refine ⟨?_, Nat.le_trans hab.now hbc.now, hab.journal.trans hbc.journal⟩
  rw [hbc.same, hab.same]

section Fields

variable {before after : Scene} (h : Tended before after)
include h

theorem Tended.cacheNow : after.cacheNow = before.cacheNow := by rw [h.same]

theorem Tended.tokens : after.tokens = before.tokens := by rw [h.same]

theorem Tended.contexts : after.contexts = before.contexts := by rw [h.same]

theorem Tended.cache : after.cache = before.cache := by rw [h.same]

theorem Tended.store : after.store = before.store := by rw [h.same]

theorem Tended.scheme : after.scheme = before.scheme := by rw [h.same]

theorem Tended.faults : after.faults = before.faults := by rw [h.same]

theorem Tended.reporting : after.reporting = before.reporting := by rw [h.same]

theorem Tended.quiet : before.Quiet after where
  now := h.now
  cacheNow := Nat.le_of_eq h.cacheNow.symm
  cancelled := by
    rw [h.tokens]
    exact fun _ hmem => hmem
  cache := by
    rw [h.cache]
    exact before.cache.fades_refl _
  failedReleases := h.journal.failedReleases

end Fields

variable (scene : Scene)

theorem tended_newTurn : Tended scene scene.newTurn :=
  ⟨rfl, Nat.le_refl _, scene.journal.tended_refl⟩

theorem tended_spend (n : Nat) : Tended scene (scene.spend n) :=
  ⟨rfl, Nat.le_refl _, scene.journal.tended_refl⟩

theorem tended_letGo (c : Context) : Tended scene (scene.letGo c) :=
  ⟨rfl, Nat.le_refl _, scene.journal.tended_refl⟩

end Scene

/-!
## Crews
-/

/-- Transactions that share a scene. -/
structure Crew where
  scene : Scene
  runs : List Run

namespace Crew

inductive Goes (crew : Crew) : Crew -> Prop where
  | moved {i : Nat} {run : Run} (h : crew.runs[i]? = some run) :
      Goes crew ⟨(run.move crew.scene).1, crew.runs.set i (run.move crew.scene).2.1⟩
  | tended {scene : Scene} (h : crew.scene.Tended scene) : Goes crew { crew with scene := scene }

abbrev Reaches : Crew -> Crew -> Prop :=
  Relation.ReflTransGen Goes

/-- Some moves of one transaction, one after another. -/
theorem reaches_advanceFor (fuel : Nat) (scene : Scene) {runs : List Run} {i : Nat} {run : Run}
    (h : runs[i]? = some run) :
    Reaches ⟨scene, runs⟩
      ⟨(Run.advanceFor fuel run scene).1, runs.set i (Run.advanceFor fuel run scene).2.1⟩ := by
  induction fuel generalizing scene runs run with
  | zero =>
      rcases List.getElem?_eq_some_iff.mp h with ⟨hlt, hget⟩
      rw [Run.advanceFor, ← hget, List.set_getElem_self]
  | succ fuel ih =>
      have hstep : Goes ⟨scene, runs⟩ ⟨(run.move scene).1, runs.set i (run.move scene).2.1⟩ :=
        Goes.moved h
      unfold Run.advanceFor
      generalize run.move scene = moved at hstep
      rcases moved with ⟨scene', run', pace⟩
      cases pace with
      | waits | givesWay => exact Relation.ReflTransGen.single hstep
      | goesOn =>
          have hnext : (runs.set i run')[i]? = some run' :=
            List.getElem?_set_self (List.getElem?_eq_some_iff.mp h).1
          have hrest := ih scene' hnext
          rw [List.set_set] at hrest
          exact Relation.ReflTransGen.head hstep hrest

theorem reaches_poll (scene : Scene) {runs : List Run} {i : Nat} {run : Run}
    (h : runs[i]? = some run) :
    Reaches ⟨scene, runs⟩ ⟨(run.poll scene).1, runs.set i (run.poll scene).2.1⟩ :=
  reaches_advanceFor 8 scene h

theorem Reaches.length_runs {crew crew' : Crew} (h : Reaches crew crew') :
    crew'.runs.length = crew.runs.length := by
  induction h with
  | refl => rfl
  | tail hreach hstep ih =>
      cases hstep with
      | moved hrun => exact List.length_set.trans ih
      | tended htended => exact ih

/-- What is kept by the moves of a transaction and by whatever else happens to the
scene holds of it for ever. -/
theorem Reaches.forall_runs {p : Scene -> Run -> Prop} {q : Nat -> Prop}
    (hown : ∀ {scene : Scene} {run : Run}, p scene run ->
      p (run.move scene).1 (run.move scene).2.1)
    (hother : ∀ {scene : Scene} {run : Run} (other : Run), p scene run ->
      p (other.move scene).1 run)
    (htended : ∀ {scene scene' : Scene} {run : Run}, scene.Tended scene' -> p scene run ->
      p scene' run)
    {crew crew' : Crew} (h : Reaches crew crew')
    (hfirst : ∀ i run, crew.runs[i]? = some run -> q i -> p crew.scene run) :
    ∀ i run, crew'.runs[i]? = some run -> q i -> p crew'.scene run := by
  induction h with
  | refl => exact hfirst
  | tail hreach hstep ih =>
      intro j run' hrun' hq
      cases hstep with
      | @moved i run hrun =>
          by_cases hij : i = j
          · rw [hij] at hrun hrun'
            rw [List.getElem?_set_self (List.getElem?_eq_some_iff.mp hrun).1,
              Option.some.injEq] at hrun'
            rw [← hrun']
            exact hown (ih j run hrun hq)
          · rw [List.getElem?_set_ne hij] at hrun'
            exact hother run (ih j run' hrun' hq)
      | tended hscene => exact htended hscene (ih j run' hrun' hq)

end Crew

/-!
## What a schedule does
-/

namespace Schedule

/-- The transactions on the tasks of a schedule, and some outside that have none. -/
def crew (s : Schedule) (outside : List Run) : Crew :=
  ⟨s.scene, s.tasks.map Task.run ++ outside⟩

/-- What leads from one schedule to the other are moves of its transactions, and
the scene has been tended. -/
def Advances (s s' : Schedule) : Prop :=
  ∀ outside, Crew.Reaches (s.crew outside) (s'.crew outside)

theorem advances_refl (s : Schedule) : Advances s s :=
  fun _ => Relation.ReflTransGen.refl

theorem Advances.trans {a b c : Schedule} (hab : Advances a b) (hbc : Advances b c) :
    Advances a c :=
  fun outside => (hab outside).trans (hbc outside)

theorem advances_of_tended {s s' : Schedule} (htasks : s'.tasks = s.tasks)
    (hscene : s.scene.Tended s'.scene) : Advances s s' := by
  intro outside
  have hcrew : s'.crew outside = { s.crew outside with scene := s'.scene } := by
    rw [crew, crew, htasks]
  rw [hcrew]
  exact Relation.ReflTransGen.single (Crew.Goes.tended hscene)

theorem Advances.length_tasks {s s' : Schedule} (h : Advances s s') :
    s'.tasks.length = s.tasks.length := by
  have hlength := (h []).length_runs
  rw [crew, crew, List.append_nil, List.append_nil, List.length_map, List.length_map] at hlength
  exact hlength

/-- The tasks stay as they are, and nothing is noted. -/
structure Rests (s s' : Schedule) : Prop where
  tasks : s'.tasks = s.tasks
  scene : s.scene.Tended s'.scene
  journal : s'.scene.journal = s.scene.journal

theorem Rests.trans {a b c : Schedule} (hab : Rests a b) (hbc : Rests b c) : Rests a c :=
  ⟨hbc.tasks.trans hab.tasks, hab.scene.trans hbc.scene, hbc.journal.trans hab.journal⟩

theorem Rests.advances {s s' : Schedule} (h : Rests s s') : Advances s s' :=
  advances_of_tended h.tasks h.scene

section Tending

variable (s : Schedule)

theorem rests_refl : Rests s s :=
  ⟨rfl, s.scene.tended_refl, rfl⟩

theorem rests_wake (ids : List Nat) : Rests s (s.wake ids) :=
  ⟨rfl, s.scene.tended_refl, rfl⟩

theorem rests_wakeReached (running : Option Nat) : Rests s (s.wakeReached running) := by
  unfold wakeReached
  cases s.scene.reached with
  | nil => exact s.rests_refl
  | cons token rest => exact ⟨rfl, ⟨rfl, Nat.le_refl _, s.scene.journal.tended_refl⟩, rfl⟩

theorem rests_newTurn : Rests s s.newTurn :=
  ⟨rfl, s.scene.tended_newTurn, rfl⟩

theorem rests_spend (n : Nat) : Rests s (s.spend n) :=
  ⟨rfl, s.scene.tended_spend n, rfl⟩

theorem rests_jumpTo (instant : Millis) : Rests s (s.jumpTo instant) :=
  ⟨rfl, ⟨rfl, Nat.le_max_left _ _, s.scene.journal.tended_refl⟩, rfl⟩

theorem rests_letGo (c : Context) : Rests s { s with scene := s.scene.letGo c } :=
  ⟨rfl, s.scene.tended_letGo c, rfl⟩

theorem rests_release (c : Context) : Rests s (s.release c) := by
  unfold release
  split
  · exact s.rests_refl
  · exact s.rests_letGo c

theorem advances_wakeReached (running : Option Nat) : Advances s (s.wakeReached running) :=
  (s.rests_wakeReached running).advances

theorem advances_newTurn : Advances s s.newTurn :=
  s.rests_newTurn.advances

theorem advances_spend (n : Nat) : Advances s (s.spend n) :=
  (s.rests_spend n).advances

theorem advances_release (c : Context) : Advances s (s.release c) :=
  (s.rests_release c).advances

/-- The end of a task is counted, but not as a failed release. -/
theorem advances_recordEnd (purpose : Purpose) (e : Client.TaskEnd) :
    Advances s { s with scene := recordEnd s.scene purpose e } := by
  have hpiece (offset : Nat) (f : CallFailure) :
      Advances s { s with scene := recordEnd s.scene (.piece offset) (.finished (.error f)) } := by
    have hcounted := s.scene.journal.tended_count (c := .failedPieces) 1 (by decide) (by decide)
    exact advances_of_tended rfl (Scene.tended_of_journal
      (hcounted.trans (Journal.tended_event _ (e := .pieceFailed offset f.message) rfl)))
  cases purpose with
  | single => exact s.advances_refl
  | piece offset =>
      cases e with
      | crashed message => exact s.advances_refl
      | finished result =>
          cases result with
          | ok keys => exact s.advances_refl
          | error f => exact hpiece offset f

/-- The schedule after one of its tasks has gone on until it stopped. -/
def polled (id : Nat) (task : Task) : Schedule :=
  { s with
    scene := (task.run.poll s.scene.newTurn).1
    tasks := s.tasks.set id { task with run := (task.run.poll s.scene.newTurn).2.1 } }

/-- What the turn of a task can do: nothing if there is no such task or it has ended,
else the task goes on, and if that was to its end the end is recorded. -/
inductive Turn (id : Nat) : Schedule -> Prop where
  | nobody (h : s.tasks[id]? = none) : Turn id s
  | idle {task : Task} (htask : s.tasks[id]? = some task) (hended : task.hasEnded = true) :
      Turn id s
  | goesOn {task : Task} {after : Schedule} (htask : s.tasks[id]? = some task)
      (hgoesOn : task.hasEnded = false) (hend : (task.run.poll s.scene.newTurn).2.1.end? = none)
      (hafter : Rests (s.polled id task) after) : Turn id after
  | ended {task : Task} {e : Client.TaskEnd} {between after : Schedule}
      (htask : s.tasks[id]? = some task) (hgoesOn : task.hasEnded = false)
      (hend : (task.run.poll s.scene.newTurn).2.1.end? = some e)
      (hbetween : Rests (s.polled id task) between)
      (hafter : Rests { between with scene := recordEnd between.scene task.purpose e } after) :
      Turn id after

theorem turn_takeTurn (id : Nat) : s.Turn id (s.takeTurn id) := by
  unfold takeTurn
  cases htask : s.tasks[id]? with
  | none => exact Turn.nobody htask
  | some task =>
      dsimp only
      cases hended : task.hasEnded with
      | true => exact Turn.idle htask hended
      | false =>
          have hgoesOn := @Turn.goesOn s id task
          have hends := @Turn.ended s id task
          have hwoken := (s.polled id task).rests_wakeReached (some id)
          unfold polled at hgoesOn hends hwoken
          rw [if_neg Bool.false_ne_true]
          generalize task.run.poll s.scene.newTurn = polled at hgoesOn hends hwoken ⊢
          rcases polled with ⟨scene, run, pace⟩
          dsimp only at hgoesOn hends hwoken ⊢
          generalize wakeReached _ (some id) = woken at hwoken ⊢
          cases hend : run.end? with
          | some e => exact hends htask hended hend hwoken (rests_release _ run.ctx)
          | none =>
              have hcalled (between : Schedule) (h : Rests woken between) : Rests woken
                  (if run.isCalledOff between.scene.tokens then between.wake [id]
                    else between) := by
                split
                · exact h.trans (between.rests_wake [id])
                · exact h
              refine hgoesOn htask hended hend (hwoken.trans ?_)
              cases pace with
              | goesOn | waits => exact hcalled woken woken.rests_refl
              | givesWay => exact hcalled _ ⟨rfl, woken.scene.tended_refl, rfl⟩

end Tending

theorem advances_poll {s : Schedule} {id : Nat} {task : Task} (h : s.tasks[id]? = some task) :
    Advances s { s with
      scene := (task.run.poll s.scene).1
      tasks := s.tasks.set id { task with run := (task.run.poll s.scene).2.1 } } := by
  intro outside
  have hlt : id < (s.tasks.map Task.run).length := by
    rw [List.length_map]
    exact (List.getElem?_eq_some_iff.mp h).1
  have hrun : (s.tasks.map Task.run ++ outside)[id]? = some task.run := by
    rw [List.getElem?_append_left hlt, List.getElem?_map, h, Option.map_some]
  have hpolled := Crew.reaches_poll s.scene hrun
  rw [List.set_append_left _ _ hlt] at hpolled
  simp only [crew, List.map_set]
  exact hpolled

/-- A turn is some moves of one transaction. -/
theorem advances_takeTurn (s : Schedule) (id : Nat) : Advances s (s.takeTurn id) := by
  have hpolled {task : Task} (htask : s.tasks[id]? = some task) :
      Advances s (s.polled id task) :=
    s.advances_newTurn.trans (advances_poll (s := s.newTurn) htask)
  have hturn := s.turn_takeTurn id
  generalize s.takeTurn id = after at hturn ⊢
  cases hturn with
  | nobody | idle => exact s.advances_refl
  | goesOn htask hgoesOn hend hafter => exact (hpolled htask).trans hafter.advances
  | @ended task e between _ htask hgoesOn hend hbetween hafter =>
      exact ((hpolled htask).trans hbetween.advances).trans
        ((between.advances_recordEnd task.purpose e).trans hafter.advances)

/-!
## Rounds and waits
-/

theorem rests_lookAtTasks (span : Span) (giveUp : Option Millis) (counted : Nat)
    (s : Schedule) : Rests s (lookAtTasks span giveUp counted s).1 := by
  unfold lookAtTasks
  split
  · exact s.rests_refl
  · have hcounted := s.rests_spend (s.endedIn span - counted)
    dsimp only
    generalize s.spend (s.endedIn span - counted) = s' at hcounted
    cases s'.ends? span with
    | some ends => exact hcounted
    | none =>
        dsimp only
        split
        · exact hcounted.trans (s'.rests_spend 1)
        · exact hcounted

theorem rests_lookAtClock (stop : Millis) (state : Unit) (s : Schedule) :
    Rests s (lookAtClock stop state s).1 := by
  unfold lookAtClock
  split
  · exact s.rests_refl
  · split
    · exact s.rests_spend 1
    · exact s.rests_refl

section Induct

variable {R : Schedule -> Schedule -> Prop} (htrans : ∀ {a b c}, R a b -> R b c -> R a c)
  (hrests : ∀ {s s'}, Rests s s' -> R s s') (hturn : ∀ s id, R s (s.takeTurn id))
include htrans hrests hturn

theorem takeTurns_induct (fuel : Nat) (s : Schedule) : R s (takeTurns fuel s) := by
  induction fuel generalizing s with
  | zero => exact hrests s.rests_refl
  | succ fuel ih =>
      unfold takeTurns
      cases s.ready with
      | nil => exact hrests s.rests_refl
      | cons id rest =>
          have hready : Rests s { s with ready := rest } := ⟨rfl, s.scene.tended_refl, rfl⟩
          exact htrans (htrans (hrests hready) (hturn _ id)) (ih _)

theorem round_induct (s : Schedule) : R s s.round := by
  have hturns := takeTurns_induct (R := R) htrans hrests hturn Fairness.roundSize s
  have hdeferred : Rests (takeTurns Fairness.roundSize s)
      (takeTurns Fairness.roundSize s).wakeDeferred := ⟨rfl, Scene.tended_refl _, rfl⟩
  exact htrans hturns (hrests (hdeferred.trans (rests_newTurn _)))

theorem goOn_induct {s s' : Schedule} {alarm : Option Millis} (h : s.goOn? alarm = some s') :
    R s s' := by
  unfold goOn? at h
  split at h
  · rcases Option.map_eq_some_iff.mp h with ⟨instant, _, hjump⟩
    rw [← hjump]
    exact hrests (s.rests_jumpTo instant)
  · cases h
    exact round_induct (R := R) htrans hrests hturn s

/-- A wait does no more than rounds and jumps, and what its looks do. -/
theorem waitFor_induct {σ α : Type} {look : σ -> Schedule -> Schedule × σ × Look α}
    {Q : σ -> Schedule -> σ -> Schedule -> Prop} (hrefl : ∀ state s, Q state s state s)
    (hjoins : ∀ {x a y b z c}, Q x a y b -> Q y b z c -> Q x a z c)
    (hkeeps : ∀ state {s s'}, R s s' -> Q state s state s')
    (hlook : ∀ state s, Q state s (look state s).2.1 (look state s).1) (fuel : Nat) (state : σ)
    (s : Schedule) : Q state s (waitFor look fuel state s).2.1 (waitFor look fuel state s).1 := by
  induction fuel generalizing state s with
  | zero => exact hrefl state s
  | succ fuel ih =>
      have hlooked := hlook state s
      unfold waitFor
      generalize look state s = looked at hlooked
      rcases looked with ⟨between, state', stands⟩
      rcases stands with a | _ | alarm
      · exact hlooked
      · have hround := hkeeps state' (round_induct (R := R) htrans hrests hturn between)
        exact hjoins (hjoins hlooked hround) (ih state' _)
      · dsimp only
        cases hgoOn : between.goOn? alarm with
        | none => exact hlooked
        | some s' =>
            have hnext := hkeeps state' (goOn_induct (R := R) htrans hrests hturn hgoOn)
            exact hjoins (hjoins hlooked hnext) (ih state' s')

theorem waiting_induct {σ α : Type} {look : σ -> Schedule -> Schedule × σ × Look α}
    (hlook : ∀ state s, R s (look state s).1) (fuel : Nat) (state : σ) (s : Schedule) :
    R s (waitFor look fuel state s).1 :=
  waitFor_induct (R := R) htrans hrests hturn (Q := fun _ s _ s' => R s s')
    (fun _ s => hrests s.rests_refl) htrans (fun _ _ _ h => h) hlook fuel state s

/-- Waiting for tasks to end is turns of the tasks. -/
theorem await_induct (s : Schedule) (span : Span) (giveUp : Option Millis) :
    R s (s.await span giveUp).1 := by
  unfold await
  exact waiting_induct (R := R) htrans hrests hturn
    (fun counted s' => hrests (rests_lookAtTasks span giveUp counted s')) _ 0 s

theorem wait_induct (s : Schedule) (duration : Millis) : R s (s.wait duration) := by
  unfold wait
  exact waiting_induct (R := R) htrans hrests hturn
    (fun state s' => hrests (rests_lookAtClock _ state s')) _ () s

end Induct

theorem advances_round (s : Schedule) : Advances s s.round :=
  round_induct (R := Advances) Advances.trans Rests.advances advances_takeTurn s

theorem advances_await (s : Schedule) (span : Span) (giveUp : Option Millis) :
    Advances s (s.await span giveUp).1 :=
  await_induct (R := Advances) Advances.trans Rests.advances advances_takeTurn s span giveUp

theorem advances_wait (s : Schedule) (duration : Millis) : Advances s (s.wait duration) :=
  wait_induct (R := Advances) Advances.trans Rests.advances advances_takeTurn s duration

/-!
## A transaction without a task
-/

/-- A transaction outside has moved, and so have those on the tasks. -/
def AdvancesWith (run : Run) (s : Schedule) (run' : Run) (s' : Schedule) : Prop :=
  ∀ outside, Crew.Reaches (s.crew (run :: outside)) (s'.crew (run' :: outside))

theorem advancesWith_pollOutside (run : Run) (s : Schedule) :
    AdvancesWith run s (s.pollOutside run).2.1 (s.pollOutside run).1 := by
  intro outside
  have hplace : (s.tasks.map Task.run ++ run :: outside)[(s.tasks.map Task.run).length]? =
      some run := by
    rw [List.getElem?_append_right (Nat.le_refl _), Nat.sub_self, List.getElem?_cons_zero]
  have hpolled := Crew.reaches_poll s.scene hplace
  rw [List.set_append_right _ _ (Nat.le_refl _), Nat.sub_self, List.set_cons_zero] at hpolled
  unfold pollOutside
  generalize run.poll s.scene = polled at hpolled ⊢
  rcases polled with ⟨scene, run', pace⟩
  exact hpolled.trans (advances_wakeReached { s with scene := scene } none (run' :: outside))

theorem advancesWith_lookAtRun (giveUp : Option Millis) (run : Run) (s : Schedule) :
    AdvancesWith run s (lookAtRun giveUp run s).2.1 (lookAtRun giveUp run s).1 := by
  have hpolled := advancesWith_pollOutside run s
  unfold lookAtRun
  generalize s.pollOutside run = polled at hpolled ⊢
  rcases polled with ⟨s', run', pace⟩
  dsimp only at hpolled ⊢
  cases run'.end? with
  | some e => exact hpolled
  | none =>
      dsimp only
      split
      · exact fun outside => (hpolled outside).trans (s'.advances_spend 1 _)
      · split <;> exact hpolled

/-- Whoever waits for a transaction without a task lets it move, and those on the
tasks with it. -/
theorem exists_advancesWith_awaitOutside (s : Schedule) (run : Run) (giveUp : Option Millis) :
    ∃ run', AdvancesWith run s run' (s.awaitOutside run giveUp).1 := by
  have hwaited : AdvancesWith run s
      (waitFor (lookAtRun giveUp) (s.patience [run]) run s).2.1
      (waitFor (lookAtRun giveUp) (s.patience [run]) run s).1 :=
    waitFor_induct (R := Advances) (Q := AdvancesWith) Advances.trans Rests.advances
      advances_takeTurn (fun _ _ _ => Relation.ReflTransGen.refl)
      (fun hab hbc outside => (hab outside).trans (hbc outside))
      (fun run _ _ h outside => h (run :: outside)) (advancesWith_lookAtRun giveUp) _ run s
  unfold awaitOutside
  generalize waitFor (lookAtRun giveUp) (s.patience [run]) run s = waited at hwaited ⊢
  rcases waited with ⟨s', run', e⟩
  refine ⟨run', ?_⟩
  dsimp only at hwaited ⊢
  split
  · rename_i c _ _
    exact fun outside => (hwaited outside).trans ((s'.rests_letGo c).advances _)
  · exact hwaited

end Schedule

/-!
## Writes
-/

namespace Session

theorem tended_recordMisfits (scene : Scene) (outcomes : List (Span × CallResult)) :
    scene.Tended (recordMisfits scene outcomes) := by
  unfold recordMisfits
  induction outcomes generalizing scene with
  | nil => exact scene.tended_refl
  | cons outcome rest ih =>
      rw [List.foldl_cons]
      cases Batch.misfit? outcome.1 outcome.2 with
      | none => exact ih scene
      | some n =>
          have hevent := scene.journal.tended_event
            (e := .wrongLength outcome.1.start outcome.1.size n) rfl
          exact (Scene.tended_of_journal hevent).trans (ih _)

/-- What is noted and counted when the tasks of a request are started. -/
theorem tended_counted (scene : Scene) (traceId : String) (n m : Nat) :
    scene.Tended (((scene.event (.writing traceId n m)).count .keys n).count .pieces m) := by
  have hevent := scene.journal.tended_event (e := .writing traceId n m) rfl
  have hkeys := Journal.tended_count (scene.journal.event (.writing traceId n m)) (c := .keys) n
    (by decide) (by decide)
  exact Scene.tended_of_journal
    ((hevent.trans hkeys).trans (Journal.tended_count _ m (by decide) (by decide)))

theorem tended_finishMany (s : Session) (spans : List Span) (ends : List Client.TaskEnd) :
    s.scene.Tended (s.finishMany spans ends).1.scene :=
  (tended_recordMisfits s.scene _).trans
    (Scene.tended_of_journal (Journal.tended_event _ rfl))

/-- What happens between the start of the tasks of a request and its end. -/
theorem advances_writeMany {s : Session} {ctx : Context} {keys : List Key} {values : List Value}
    {giveUp : Option Millis} (hcheck : Request.check keys values = .ok ())
    (hkeys : keys.isEmpty = false) :
    Schedule.Advances
      (s.startMany (s.client.bounded s.scene.now ctx) (s.client.pieces keys values)
        keys.length).1.schedule
      (s.writeMany ctx keys values giveUp).1.schedule := by
  unfold writeMany
  simp only [hcheck, hkeys, Bool.false_eq_true, if_false]
  generalize s.startMany _ (s.client.pieces keys values) keys.length = started
  rcases started with ⟨s', span⟩
  have hawait := s'.schedule.advances_await span (s.giveUpAt giveUp)
  generalize s'.schedule.await span (s.giveUpAt giveUp) = awaited at hawait ⊢
  rcases awaited with ⟨schedule, ends⟩
  cases ends with
  | none => exact hawait
  | some ends =>
      exact hawait.trans (Schedule.advances_of_tended rfl (tended_finishMany ⟨s'.client, schedule⟩
        ((s.client.pieces keys values).map Client.Piece.span) ends))

/-- The same for a request for one key. -/
theorem advances_writeOne {s : Session} {ctx : Context} {key : Key} {value : Value}
    {giveUp : Option Millis} (hcheck : Request.check [key] [value] = .ok ()) :
    Schedule.Advances
      (s.schedule.spawn [⟨.single,
        { ctx := s.client.bounded s.scene.now ctx, keys := [key], values := [value] }⟩])
      (s.writeOne ctx key value giveUp).1.schedule := by
  unfold writeOne
  simp only [hcheck]
  generalize s.schedule.spawn _ = spawned
  have hawait := spawned.advances_await (s.schedule.nextSpan 1) (s.giveUpAt giveUp)
  generalize spawned.await _ (s.giveUpAt giveUp) = awaited at hawait ⊢
  rcases awaited with ⟨schedule, ends⟩
  split
  · rename_i e _
    have hrecorded : Schedule.Advances schedule
        { schedule with scene := recordMisfits schedule.scene [(Client.single, e.result)] } :=
      Schedule.advances_of_tended rfl (tended_recordMisfits _ _)
    exact hawait.trans hrecorded
  · exact hawait

end Session
end Simulation
end WriteLatch
