import WriteLatch.Proofs.Interleaving.Notes
import WriteLatch.Simulation.Schedule

/-!
# Schedules alike but for their notes

A schedule looks at the transactions of its tasks and not at what the tasks are
for, and it reads no notes.  So schedules that differ in nothing else wake the
same tasks, take the same turns and come to the same ends.
-/

namespace WriteLatch
namespace Simulation
namespace Schedule

def runs (s : Schedule) : List Run :=
  s.tasks.map Task.run

/-- The schedules differ at most in what is only noted and in what the tasks are
for. -/
structure Matches (s s' : Schedule) : Prop where
  scene : s.scene.Matches s'.scene
  runs : s'.runs = s.runs
  ready : s'.ready = s.ready
  deferred : s'.deferred = s.deferred

theorem matches_refl (s : Schedule) : s.Matches s :=
  ⟨s.scene.matches_refl, rfl, rfl, rfl⟩

/-!
## What is read of tasks
-/

section Runs

variable (s : Schedule)

theorem positions_eq (p : Run -> Bool) :
    s.positions (fun task => p task.run) =
      (s.runs.zipIdx.filter fun run => p run.1).map Prod.snd := by
  rw [positions, runs, List.zipIdx_map, List.filter_map, List.map_map]
  rfl

theorem waitersOn_eq (token : Nat) :
    s.waitersOn token =
      ((s.runs.zipIdx.filter fun run => run.1.waitsOn token).mergeSort
        fun a b => a.1.begun <= b.1.begun).map Prod.snd := by
  have hsort := List.map_mergeSort (f := Prod.map Task.run id)
    (r := fun a b => a.1.run.begun <= b.1.run.begun) (s := fun a b => a.1.begun <= b.1.begun)
    (l := s.tasks.zipIdx.filter fun task => task.1.run.waitsOn token) fun _ _ _ _ => rfl
  have hpositions := congrArg (List.map Prod.snd) hsort
  rw [List.map_map] at hpositions
  rw [runs, List.zipIdx_map, List.filter_map]
  exact hpositions

theorem any_hasEnded_eq (id : Nat) :
    (s.tasks[id]?.any fun task => !task.hasEnded) =
      s.runs[id]?.any fun run => !run.end?.isSome := by
  rw [runs, List.getElem?_map, Option.any_map]
  rfl

theorem holds_eq (c : Context) :
    s.holds c = ((s.scene.contexts.any fun named => named.2.token == c.token) ||
      s.runs.any fun run => !run.end?.isSome && run.ctx.token == c.token) := by
  rw [holds, runs, List.any_map]
  rfl

theorem nextWake?_eq : s.nextWake? = (s.runs.filterMap Run.wakeTime?).min? := by
  rw [nextWake?, runs, List.filterMap_map]
  rfl

theorem endedIn_eq (span : Span) :
    s.endedIn span = (span.slice s.runs).countP fun run => run.end?.isSome := by
  rw [endedIn, runs, Span.slice, Span.slice, ← List.map_drop, ← List.map_take, List.countP_map]
  rfl

theorem ends?_eq (span : Span) : s.ends? span = (span.slice s.runs).mapM Run.end? := by
  rw [ends?, runs, Span.slice, Span.slice, ← List.map_drop, ← List.map_take, List.mapM_map]
  rfl

end Runs

/-!
## Waking
-/

namespace Matches

variable {s s' : Schedule}

theorem wake (h : s.Matches s') (ids : List Nat) : (s.wake ids).Matches (s'.wake ids) := by
  refine ⟨h.scene, h.runs, ?_, h.deferred⟩
  unfold Schedule.wake
  rw [h.ready]

theorem wakeReached (h : s.Matches s') (running : Option Nat) :
    (s.wakeReached running).Matches (s'.wakeReached running) := by
  have hwaiters : s'.waitersOn = s.waitersOn := by
    funext token
    rw [waitersOn_eq, waitersOn_eq, h.runs]
  unfold Schedule.wakeReached
  rw [h.scene.reached, hwaiters]
  cases s.scene.reached with
  | nil => exact h
  | cons token reached =>
      have hwoken : Matches { s with scene := { s.scene with reached := [] } }
          { s' with scene := { s'.scene with reached := [] } } :=
        ⟨h.scene.woken, h.runs, h.ready, h.deferred⟩
      exact hwoken.wake _

theorem wakeDeferred (h : s.Matches s') : s.wakeDeferred.Matches s'.wakeDeferred := by
  have hended (id : Nat) : (s'.tasks[id]?.any fun task => !task.hasEnded) =
      s.tasks[id]?.any fun task => !task.hasEnded := by
    rw [any_hasEnded_eq, any_hasEnded_eq, h.runs]
  have hcleared : Matches { s with deferred := [] } { s' with deferred := [] } :=
    ⟨h.scene, h.runs, h.ready, rfl⟩
  unfold Schedule.wakeDeferred
  simp only [h.deferred, hended]
  exact hcleared.wake _

theorem release (h : s.Matches s') (c : Context) : (s.release c).Matches (s'.release c) := by
  have hholds : s'.holds c = s.holds c := by
    rw [holds_eq, holds_eq, h.scene.contexts, h.runs]
  unfold Schedule.release
  rw [hholds]
  split
  · exact h
  · exact ⟨h.scene.letGo c, h.runs, h.ready, h.deferred⟩

theorem newTurn (h : s.Matches s') : s.newTurn.Matches s'.newTurn :=
  ⟨h.scene.newTurn, h.runs, h.ready, h.deferred⟩

theorem spend (h : s.Matches s') (n : Nat) : (s.spend n).Matches (s'.spend n) :=
  ⟨h.scene.spend n, h.runs, h.ready, h.deferred⟩

theorem jumpTo (h : s.Matches s') (instant : Millis) :
    (s.jumpTo instant).Matches (s'.jumpTo instant) := by
  have hdue : (s'.positions fun task => task.isDue (max s'.scene.now instant)) =
      s.positions fun task => task.isDue (max s.scene.now instant) := by
    have hs := s.positions_eq fun run => Task.isDue ⟨.single, run⟩ (max s.scene.now instant)
    have hs' := s'.positions_eq fun run => Task.isDue ⟨.single, run⟩ (max s.scene.now instant)
    rw [h.runs] at hs'
    rw [h.scene.now]
    exact hs'.trans hs.symm
  have hlater : Matches { s with scene := { s.scene with now := max s.scene.now instant } }
      { s' with scene := { s'.scene with now := max s'.scene.now instant } } :=
    ⟨h.scene.later instant, h.runs, h.ready, h.deferred⟩
  change Matches _ (Schedule.newTurn (Schedule.wake _
    (s'.positions fun task => task.isDue (max s'.scene.now instant))))
  rw [hdue]
  exact (hlater.wake _).newTurn

end Matches

/-!
## Turns
-/

variable {s s' : Schedule}

/-- Only a write of many keys records the end of a task. -/
theorem matches_recordEnd (scene : Scene) (purpose : Purpose) (e : Client.TaskEnd) :
    scene.Matches (recordEnd scene purpose e) := by
  unfold recordEnd
  split
  · exact (scene.matches_count _ _).trans (Scene.matches_event _ rfl)
  · exact scene.matches_refl

theorem Matches.recorded (h : s.Matches s') (purpose purpose' : Purpose) (e : Client.TaskEnd) :
    Matches { s with scene := recordEnd s.scene purpose e }
      { s' with scene := recordEnd s'.scene purpose' e } :=
  ⟨((matches_recordEnd s.scene purpose e).symm.trans h.scene).trans
      (matches_recordEnd s'.scene purpose' e), h.runs, h.ready, h.deferred⟩

/-- A task that has called off its own call stands in the queue again. -/
theorem Matches.calledOff (h : s.Matches s') (run : Run) (id : Nat) :
    Matches (if run.isCalledOff s.scene.tokens then s.wake [id] else s)
      (if run.isCalledOff s'.scene.tokens then s'.wake [id] else s') := by
  rw [h.scene.tokens]
  split
  · exact h.wake [id]
  · exact h

theorem Matches.run_eq (h : s.Matches s') (id : Nat) :
    s'.tasks[id]?.map Task.run = s.tasks[id]?.map Task.run := by
  have hat : s'.runs[id]? = s.runs[id]? := congrArg (fun all => all[id]?) h.runs
  rw [Schedule.runs, Schedule.runs, List.getElem?_map, List.getElem?_map] at hat
  exact hat

theorem matches_takeTurn (h : s.Matches s') (id : Nat) :
    (s.takeTurn id).Matches (s'.takeTurn id) := by
  have hrun := h.run_eq id
  unfold takeTurn
  cases htask : s.tasks[id]? with
  | none =>
      rw [htask, Option.map_none, Option.map_eq_none_iff] at hrun
      rw [hrun]
      exact h
  | some task =>
      rw [htask, Option.map_some, Option.map_eq_some_iff] at hrun
      -- The two tasks may be for something else, but their transaction is the same.
      rcases hrun with ⟨task', htask', hsame⟩
      have hended : task'.hasEnded = task.hasEnded := by
        rw [Task.hasEnded, Task.hasEnded, hsame]
      rw [htask']
      dsimp only
      rw [hended, hsame]
      split
      · exact h
      · rcases (task.run.matches_advanceFor 8 h.scene.newTurn).exists_eq with
          ⟨scene, scene', ⟨run, pace⟩, hpoll, hpoll', hscene⟩
        rw [Run.poll, Run.poll, hpoll, hpoll']
        dsimp only
        have hmoved : Matches
            { s with scene := scene, tasks := s.tasks.set id { task with run := run } }
            { s' with scene := scene', tasks := s'.tasks.set id { task' with run := run } } := by
          refine ⟨hscene, ?_, h.ready, h.deferred⟩
          have hruns := h.runs
          simp only [runs, List.map_set] at hruns ⊢
          rw [hruns]
        have hwoken := hmoved.wakeReached (some id)
        generalize wakeReached _ (some id) = woken at hwoken ⊢
        generalize wakeReached _ (some id) = woken' at hwoken ⊢
        cases run.end? with
        | some e => exact (hwoken.recorded task.purpose task'.purpose e).release run.ctx
        | none =>
            cases pace with
            | goesOn | waits => exact hwoken.calledOff run id
            | givesWay =>
                have hdeferred : Matches { woken with deferred := id :: woken.deferred }
                    { woken' with deferred := id :: woken'.deferred } :=
                  ⟨hwoken.scene, hwoken.runs, hwoken.ready,
                    congrArg (id :: ·) hwoken.deferred⟩
                exact hdeferred.calledOff run id

theorem matches_takeTurns (fuel : Nat) (h : s.Matches s') :
    (takeTurns fuel s).Matches (takeTurns fuel s') := by
  induction fuel generalizing s s' with
  | zero => exact h
  | succ fuel ih =>
      unfold takeTurns
      rw [h.ready]
      cases s.ready with
      | nil => exact h
      | cons id rest =>
          have hnext : Matches { s with ready := rest } { s' with ready := rest } :=
            ⟨h.scene, h.runs, rfl, h.deferred⟩
          exact ih (matches_takeTurn hnext id)

theorem matches_round (h : s.Matches s') : s.round.Matches s'.round :=
  (matches_takeTurns _ h).wakeDeferred.newTurn

theorem matches_goOn? (h : s.Matches s') (alarm : Option Millis) :
    (s.goOn? alarm = none ∧ s'.goOn? alarm = none) ∨
      ∃ next next', s.goOn? alarm = some next ∧ s'.goOn? alarm = some next' ∧
        next.Matches next' := by
  have hwake : s'.nextWake? = s.nextWake? := by
    rw [nextWake?_eq, nextWake?_eq, h.runs]
  unfold goOn?
  rw [h.ready, h.deferred, hwake]
  split
  · cases s.nextWake?.merge min alarm with
    | none => exact Or.inl ⟨rfl, rfl⟩
    | some instant => exact Or.inr ⟨_, _, rfl, rfl, h.jumpTo instant⟩
  · exact Or.inr ⟨_, _, rfl, rfl, matches_round h⟩

/-!
## Waiting
-/

theorem matches_waitFor {σ α : Type} {look : σ -> Schedule -> Schedule × σ × Look α}
    (hlook : ∀ state {s s' : Schedule}, s.Matches s' ->
      Echoes Matches (look state s) (look state s'))
    (fuel : Nat) (state : σ) (h : s.Matches s') :
    Echoes Matches (waitFor look fuel state s) (waitFor look fuel state s') := by
  induction fuel generalizing state s s' with
  | zero => exact ⟨h, rfl⟩
  | succ fuel ih =>
      rcases (hlook state h).exists_eq with
        ⟨next, next', ⟨state', stands⟩, hlooked, hlooked', hnext⟩
      unfold waitFor
      rw [hlooked, hlooked']
      rcases stands with a | _ | alarm
      · exact ⟨hnext, rfl⟩
      · exact ih state' (matches_round hnext)
      · dsimp only
        rcases matches_goOn? hnext alarm with ⟨hgoOn, hgoOn'⟩ | ⟨last, last', hgoOn, hgoOn', hlast⟩
        · rw [hgoOn, hgoOn']
          exact ⟨hnext, rfl⟩
        · rw [hgoOn, hgoOn']
          exact ih state' hlast

theorem matches_lookAtTasks (span : Span) (giveUp : Option Millis) (counted : Nat)
    (h : s.Matches s') :
    Echoes Matches (lookAtTasks span giveUp counted s) (lookAtTasks span giveUp counted s') := by
  have hended : s'.endedIn span = s.endedIn span := by
    rw [endedIn_eq, endedIn_eq, h.runs]
  unfold lookAtTasks
  rw [h.scene.allowance, hended]
  split
  · exact ⟨h, rfl⟩
  · have hcounted := h.spend (s.endedIn span - counted)
    generalize s.endedIn span = ended at hcounted ⊢
    dsimp only
    generalize s.spend (ended - counted) = between at hcounted ⊢
    generalize s'.spend (ended - counted) = between' at hcounted ⊢
    have hends : between'.ends? span = between.ends? span := by
      rw [ends?_eq, ends?_eq, hcounted.runs]
    have hcome : between'.hasCome = between.hasCome := by
      funext instant
      rw [hasCome, hasCome, hcounted.scene.now]
    rw [hends, hcome]
    cases between.ends? span with
    | some ends => exact ⟨hcounted, rfl⟩
    | none =>
        dsimp only
        split
        · exact ⟨hcounted.spend 1, rfl⟩
        · exact ⟨hcounted, rfl⟩

/-- Who waits for tasks waits as long and is told the same. -/
theorem matches_await (h : s.Matches s') (span : Span) (giveUp : Option Millis) :
    Echoes Matches (s.await span giveUp) (s'.await span giveUp) := by
  have hpatience : s'.patience [] = s.patience [] := by
    have hruns : s'.tasks.map Task.run = s.tasks.map Task.run := h.runs
    rw [patience, patience, hruns, h.scene.faults]
  have hwait := matches_waitFor (fun counted _ _ h => matches_lookAtTasks span giveUp counted h)
    (s.patience []) 0 h
  unfold await
  rw [hpatience]
  exact hwait.map fun waited => waited.2.join

end Schedule
end Simulation
end WriteLatch
