import WriteLatch.Proofs.Protocol.Lapses

/-!
# Turns of transactions that come too late

A transaction that comes too late ends in its first turn and does not pause.  So
nobody joins the queue of the tasks, and whoever waits for them is answered when
all who stand in it have taken their turns.
-/

namespace WriteLatch
namespace Simulation

namespace Schedule

/-- Tasks that are still to take their only turn: those at the positions of a span
came too late, all others have ended, and who has not ended stands in a queue. -/
structure Winds (span : Span) (k : Nat) (ctx : Context) (first : Interruption) (start : Scene)
    (count : Nat) (queue : List Nat) (s : Schedule) : Prop where
  lapsed : (s.crew []).Lapsed span k ctx first
  quits : (s.crew []).Quits span start count
  deferred : s.deferred = []
  queued : ∀ i task, s.tasks[i]? = some task -> task.hasEnded = false -> i ∈ queue

theorem getElem?_crew {s : Schedule} {i : Nat} {task : Task} (h : s.tasks[i]? = some task) :
    (s.crew []).runs[i]? = some task.run := by
  rw [crew, List.append_nil, List.getElem?_map, h, Option.map_some]

section Turns

variable {span : Span} {k : Nat} {ctx : Context} {first : Interruption} {start : Scene}
  {count : Nat} {queue : List Nat} {s s' : Schedule}

/-- The tasks are as they were. -/
theorem Winds.later (h : s.Winds span k ctx first start count queue) (hadvances : s.Advances s')
    (htasks : s'.tasks = s.tasks) (hdeferred : s'.deferred = s.deferred) :
    s'.Winds span k ctx first start count queue where
  lapsed := h.lapsed.reaches (hadvances [])
  quits := h.quits.reaches h.lapsed (hadvances [])
  deferred := hdeferred.trans h.deferred
  queued := htasks ▸ h.queued

theorem Winds.mem_span (h : s.Winds span k ctx first start count queue) {i : Nat} {task : Task}
    (htask : s.tasks[i]? = some task) (hgoesOn : task.hasEnded = false) :
    span.start <= i ∧ i < span.stop := by
  by_contra houtside
  have hended := h.quits.others i task.run (getElem?_crew htask) (by omega)
  rw [Task.hasEnded, hended] at hgoesOn
  cases hgoesOn

/-- No task pauses. -/
theorem waiting?_eq_none (hlapsed : (s.crew []).Lapsed span k ctx first)
    (hquits : (s.crew []).Quits span start count) :
    ∀ task ∈ s.tasks, task.run.waiting? = none := by
  intro task hmem
  rcases List.mem_iff_getElem?.mp hmem with ⟨i, htask⟩
  by_cases hspan : span.start <= i ∧ i < span.stop
  · rcases hlapsed.runs i task.run (getElem?_crew htask) hspan.1 hspan.2 with ⟨_, hshut⟩
    rw [Run.waiting?]
    generalize task.run.stage = stage at hshut ⊢
    cases hshut <;> rfl
  · have hended := hquits.others i task.run (getElem?_crew htask) (by omega)
    rcases Option.isSome_iff_exists.mp hended with ⟨e, he⟩
    rw [Run.waiting?, Run.stage_of_end? he]

/-- What a change of a schedule keeps that only touches its scene. -/
structure Keeps (s s' : Schedule) : Prop where
  tasks : s'.tasks = s.tasks
  ready : s'.ready = s.ready
  deferred : s'.deferred = s.deferred

theorem keeps_wakeReached (h : ∀ task ∈ s.tasks, task.run.waiting? = none)
    (running : Option Nat) : Keeps s (s.wakeReached running) := by
  have hnobody (token : Nat) : s.waitersOn token = [] := by
    have hnone : (s.tasks.zipIdx.filter fun task => task.1.run.waitsOn token) = [] := by
      rw [List.filter_eq_nil_iff]
      intro task hmem
      rw [Run.waitsOn, h task.1 (List.fst_mem_of_mem_zipIdx hmem)]
      exact Bool.false_ne_true
    rw [waitersOn, hnone, List.mergeSort_nil, List.map_nil]
  unfold wakeReached
  cases s.scene.reached with
  | nil => exact ⟨rfl, rfl, rfl⟩
  | cons token rest =>
      have hwoken : (token :: rest).flatMap s.waitersOn = [] :=
        List.flatMap_eq_nil_iff.mpr fun t _ => hnobody t
      dsimp only
      rw [hwoken]
      exact ⟨rfl, List.append_nil _, rfl⟩

theorem keeps_release (s : Schedule) (c : Context) : Keeps s (s.release c) := by
  unfold release
  split <;> exact ⟨rfl, rfl, rfl⟩

/-- A task whose turn it is ends, and none is put into a queue. -/
structure TurnTaken (s : Schedule) (id : Nat) (s' : Schedule) : Prop where
  ready : s'.ready = s.ready
  deferred : s'.deferred = s.deferred
  goesOn : ∀ i task, s'.tasks[i]? = some task -> task.hasEnded = false ->
    i ≠ id ∧ s.tasks[i]? = some task

theorem turnTaken_of_hasEnded {id : Nat}
    (h : ∀ task, s.tasks[id]? = some task -> task.hasEnded = true) : TurnTaken s id s := by
  refine ⟨rfl, rfl, ?_⟩
  intro i task htask hgoesOn
  refine ⟨?_, htask⟩
  intro hid
  rw [hid] at htask
  rw [h task htask] at hgoesOn
  cases hgoesOn

theorem turnTaken_of_set {id : Nat} {task : Task} (h : task.hasEnded = true)
    (htasks : s'.tasks = s.tasks.set id task) (hready : s'.ready = s.ready)
    (hdeferred : s'.deferred = s.deferred) : TurnTaken s id s' := by
  refine ⟨hready, hdeferred, ?_⟩
  intro i task' htask' hgoesOn
  rw [htasks] at htask'
  by_cases hid : id = i
  · have hlt := (List.getElem?_eq_some_iff.mp htask').1
    rw [List.length_set] at hlt
    rw [hid, List.getElem?_set_self hlt, Option.some.injEq] at htask'
    rw [← htask', h] at hgoesOn
    cases hgoesOn
  · rw [List.getElem?_set_ne hid] at htask'
    exact ⟨fun heq => hid heq.symm, htask'⟩

theorem Winds.turnTaken (h : s.Winds span k ctx first start count queue) (id : Nat) :
    TurnTaken s id (s.takeTurn id) := by
  unfold takeTurn
  cases htask : s.tasks[id]? with
  | none =>
      apply turnTaken_of_hasEnded
      intro task hsome
      cases htask.symm.trans hsome
  | some task =>
      dsimp only
      cases hended : task.hasEnded with
      | true =>
          apply turnTaken_of_hasEnded
          intro task' hsome
          cases htask.symm.trans hsome
          exact hended
      | false =>
          rcases h.mem_span htask hended with ⟨hstart, hstop⟩
          have hadvances := s.advances_newTurn.trans (advances_poll (s := s.newTurn) htask)
          have hlapsed := h.lapsed.reaches (s.advances_newTurn [])
          rcases hlapsed.runs id task.run (getElem?_crew (s := s.newTurn) htask) hstart hstop with
            ⟨hctx, hshut⟩
          have hpolled : (task.run.poll s.scene.newTurn).2.1.end?.isSome = true :=
            Run.ended_advanceFor hctx hlapsed.scene hshut
              (Nat.lt_of_le_of_lt task.run.stage.movesLeft_le (by decide))
          have hscene : s.newTurn.scene = s.scene.newTurn := rfl
          rw [hscene] at hadvances
          generalize task.run.poll s.scene.newTurn = polled at hadvances hpolled
          rcases polled with ⟨scene, run, pace⟩
          rcases Option.isSome_iff_exists.mp hpolled with ⟨e, he⟩
          have hwaiting := waiting?_eq_none (h.lapsed.reaches (hadvances []))
            (h.quits.reaches h.lapsed (hadvances []))
          have hkeeps : Keeps _ (wakeReached { s with
              scene := scene, tasks := s.tasks.set id { task with run := run } } (some id)) :=
            keeps_wakeReached hwaiting (some id)
          dsimp only at he ⊢
          rw [he, if_neg Bool.false_ne_true]
          dsimp only
          generalize wakeReached _ (some id) = woken at hkeeps ⊢
          have hreleased := keeps_release
            { woken with scene := recordEnd woken.scene task.purpose e } run.ctx
          have hended : Task.hasEnded { task with run := run } = true :=
            Option.isSome_iff_exists.mpr ⟨e, he⟩
          exact turnTaken_of_set hended (hreleased.tasks.trans hkeeps.tasks)
            (hreleased.ready.trans hkeeps.ready) (hreleased.deferred.trans hkeeps.deferred)

theorem Winds.takeTurn {id : Nat} (h : s.Winds span k ctx first start count (id :: queue)) :
    (s.takeTurn id).Winds span k ctx first start count queue where
  lapsed := h.lapsed.reaches (s.advances_takeTurn id [])
  quits := h.quits.reaches h.lapsed (s.advances_takeTurn id [])
  deferred := (h.turnTaken id).deferred.trans h.deferred
  queued := by
    intro i task htask hgoesOn
    rcases (h.turnTaken id).goesOn i task htask hgoesOn with ⟨hid, hold⟩
    rcases List.mem_cons.mp (h.queued i task hold hgoesOn) with heq | hmem
    · exact absurd heq hid
    · exact hmem

theorem Winds.takeTurns (h : s.Winds span k ctx first start count s.ready) (fuel : Nat) :
    (takeTurns fuel s).Winds span k ctx first start count (s.ready.drop fuel) ∧
      (takeTurns fuel s).ready = s.ready.drop fuel := by
  induction fuel generalizing s with
  | zero => exact ⟨h, rfl⟩
  | succ fuel ih =>
      unfold Schedule.takeTurns
      cases hready : s.ready with
      | nil =>
          rw [hready] at h
          exact ⟨h, hready⟩
      | cons id rest =>
          have hpopped : Winds span k ctx first start count (id :: rest) { s with ready := rest } :=
            (hready ▸ h).later (advances_of_tended rfl s.scene.tended_refl) rfl rfl
          have hrest := (hpopped.turnTaken id).ready
          have htaken := hpopped.takeTurn
          dsimp only at hrest htaken ⊢
          generalize Schedule.takeTurn _ id = taken at hrest htaken ⊢
          rw [← hrest] at htaken
          rw [List.drop_succ_cons, ← hrest]
          exact ih htaken

/-- In a round some of those in the queue end, and nobody joins it. -/
theorem Winds.round (h : s.Winds span k ctx first start count s.ready) :
    s.round.Winds span k ctx first start count s.round.ready ∧
      s.round.ready = s.ready.drop Fairness.roundSize ∧ s.round.scene.allowance ≠ 0 := by
  rcases h.takeTurns Fairness.roundSize with ⟨hturns, hready⟩
  have hround : s.round.ready = s.ready.drop Fairness.roundSize := by
    have hnobody : (Schedule.takeTurns Fairness.roundSize s).deferred = [] := hturns.deferred
    rw [Schedule.round, newTurn, wakeDeferred, hnobody]
    exact (List.append_nil _).trans hready
  refine ⟨?_, hround, Nat.succ_ne_zero _⟩
  rw [hround]
  exact ⟨h.lapsed.reaches (s.advances_round []), h.quits.reaches h.lapsed (s.advances_round []),
    rfl, hturns.queued⟩

theorem Winds.exists_ends? (h : s.Winds span k ctx first start count []) :
    ∃ ends, s.ends? span = some ends := by
  apply exists_mapM_eq_some
  intro task hmem
  rcases List.mem_iff_getElem?.mp (List.mem_of_mem_drop (List.mem_of_mem_take hmem)) with
    ⟨i, htask⟩
  cases hended : task.hasEnded with
  | true => exact hended
  | false => cases h.queued i task htask hended

section Waits

variable {σ α : Type} {look : σ -> Schedule -> Schedule × σ × Look α} {fuel : Nat}
  {state state' : σ}

end Waits

theorem Winds.spend (h : s.Winds span k ctx first start count s.ready) (n : Nat) :
    (s.spend n).Winds span k ctx first start count s.ready :=
  h.later (s.advances_spend n) rfl rfl

end Turns

end Schedule
end Simulation

end WriteLatch
