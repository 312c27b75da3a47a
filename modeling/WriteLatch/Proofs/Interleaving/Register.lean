import WriteLatch.Proofs.Interleaving.Crews
import WriteLatch.Proofs.Interleaving.Works

/-!
# A register of tasks

A register says of every task what it is for and how it has ended, and beside the
tasks what has been counted of those for pieces.  Whatever a schedule does, tasks
are started in it or one of them ends, and pieces are counted just then.
-/

namespace WriteLatch

/-- The transaction came to an error. -/
def Client.TaskEnd.isError : TaskEnd -> Bool
  | .finished (.error _) => true
  | .finished (.ok _) => false
  | .crashed _ => false

namespace Simulation

/-!
## What is counted
-/

def Purpose.isPiece : Purpose -> Bool
  | .piece _ => true
  | .single => false

theorem countP_isPiece (pieces : List Client.Piece) :
    (pieces.map fun piece => Purpose.piece piece.span.start).countP Purpose.isPiece =
      pieces.length := by
  rw [List.countP_map]
  exact congrFun List.countP_true _

/-- Whether a task is one for a piece and has come to an error. -/
def Task.hasFailed (task : Task) : Bool :=
  task.purpose.isPiece && task.run.end?.any Client.TaskEnd.isError

/-- What tasks there are and how they have ended, and what the counters say of the
pieces among them. -/
@[ext]
structure Register where
  tasks : List (Purpose × Option Client.TaskEnd) := []
  pieces : Nat := 0
  failedPieces : Nat := 0

namespace Register

def hasFailed (task : Purpose × Option Client.TaskEnd) : Bool :=
  task.1.isPiece && task.2.any Client.TaskEnd.isError

/-- Tasks are started, or one of them ends in whatever way. -/
inductive Step (r : Register) : Register -> Prop where
  | started (purposes : List Purpose) : Step r
      { r with
        tasks := r.tasks ++ purposes.map fun purpose => (purpose, none)
        pieces := r.pieces + purposes.countP Purpose.isPiece }
  | ended {i : Nat} {purpose : Purpose} (h : r.tasks[i]? = some (purpose, none))
      (e : Client.TaskEnd) : Step r
      { r with
        tasks := r.tasks.set i (purpose, some e)
        failedPieces := r.failedPieces + if hasFailed (purpose, some e) then 1 else 0 }

abbrev Reaches : Register -> Register -> Prop :=
  Relation.ReflTransGen Step

/-- The counters say how many tasks there are for pieces, and how many of them have
come to an error. -/
structure IsBalanced (r : Register) : Prop where
  pieces : r.pieces = (r.tasks.map Prod.fst).countP Purpose.isPiece
  failedPieces : r.failedPieces = r.tasks.countP hasFailed

theorem countP_set_of_not {α : Type} {p : α -> Bool} {xs : List α} {i : Nat} {x y : α}
    (hx : xs[i]? = some x) (hp : p x = false) :
    (xs.set i y).countP p = xs.countP p + if p y then 1 else 0 := by
  rcases List.getElem?_eq_some_iff.mp hx with ⟨hlt, hget⟩
  rw [List.countP_set hlt, hget, hp]
  rfl

variable {r r' : Register}

theorem map_fst_started (purposes : List Purpose) :
    (purposes.map fun purpose => (purpose, (none : Option Client.TaskEnd))).map Prod.fst =
      purposes := by
  rw [List.map_map]
  exact List.map_id purposes

/-- A task that ends keeps its purpose. -/
theorem map_fst_set {i : Nat} {purpose : Purpose} (h : r.tasks[i]? = some (purpose, none))
    (e : Client.TaskEnd) :
    (r.tasks.set i (purpose, some e)).map Prod.fst = r.tasks.map Prod.fst := by
  rcases List.getElem?_eq_some_iff.mp h with ⟨hlt, hget⟩
  have hbound : i < (r.tasks.map Prod.fst).length := by rwa [List.length_map]
  have hpurpose : purpose = (r.tasks.map Prod.fst)[i] := by
    rw [List.getElem_map, hget]
  rw [List.map_set]
  dsimp only
  rw [hpurpose, List.set_getElem_self]

theorem Step.isBalanced (h : Step r r') (hr : r.IsBalanced) : r'.IsBalanced := by
  cases h with
  | started purposes =>
      have hfailed : (purposes.map fun purpose =>
          (purpose, (none : Option Client.TaskEnd))).countP hasFailed = 0 := by
        rw [List.countP_map, List.countP_eq_zero]
        intro purpose _
        cases purpose <;> exact Bool.false_ne_true
      constructor
      · dsimp only
        rw [List.map_append, map_fst_started, List.countP_append, hr.pieces]
      · rw [List.countP_append, hfailed, hr.failedPieces, Nat.add_zero]
  | ended h e =>
      have hnot : ∀ purpose, hasFailed (purpose, none) = false := by
        intro purpose
        cases purpose <;> rfl
      constructor
      · dsimp only
        rw [map_fst_set h e, hr.pieces]
      · dsimp only
        rw [countP_set_of_not h (hnot _), hr.failedPieces]

theorem Reaches.isBalanced (h : Reaches r r') (hr : r.IsBalanced) : r'.IsBalanced := by
  induction h with
  | refl => exact hr
  | tail hreach hstep ih => exact hstep.isBalanced ih

theorem Reaches.purposes (h : Reaches r r') : r.tasks.map Prod.fst <+: r'.tasks.map Prod.fst := by
  induction h with
  | refl => exact List.prefix_refl _
  | tail hreach hstep ih =>
      cases hstep with
      | started purposes =>
          dsimp only
          rw [List.map_append]
          exact ih.trans (List.prefix_append _ _)
      | ended h e =>
          dsimp only
          rw [map_fst_set h e]
          exact ih

/-- No task ends twice. -/
theorem Reaches.getElem?_ended (h : Reaches r r') {i : Nat} {purpose : Purpose}
    {e : Client.TaskEnd} (hended : r.tasks[i]? = some (purpose, some e)) :
    r'.tasks[i]? = some (purpose, some e) := by
  induction h with
  | refl => exact hended
  | tail hreach hstep ih =>
      cases hstep with
      | started purposes =>
          rw [List.getElem?_append_left (List.getElem?_eq_some_iff.mp ih).1]
          exact ih
      | @ended j purpose' hj e' =>
          by_cases hij : j = i
          · rw [hij, ih] at hj
            cases hj
          · dsimp only
            rw [List.getElem?_set_ne hij]
            exact ih

/-- Tasks that have all ended stay as they are. -/
theorem Reaches.take_eq (h : Reaches r r') (hended : ∀ task ∈ r.tasks, task.2.isSome = true) :
    r'.tasks.take r.tasks.length = r.tasks := by
  apply List.ext_getElem?
  intro i
  by_cases hi : i < r.tasks.length
  · have hget : r.tasks[i]? = some r.tasks[i] := List.getElem?_eq_getElem hi
    rcases hentry : r.tasks[i] with ⟨purpose, end?⟩
    have hsome := hended _ (List.getElem_mem hi)
    rw [hentry] at hget hsome
    rcases Option.isSome_iff_exists.mp hsome with ⟨e, he⟩
    dsimp only at he
    rw [he] at hget
    rw [List.getElem?_take_of_lt hi, h.getElem?_ended hget, hget]
  · rw [List.getElem?_eq_none (Nat.le_of_not_lt hi), List.getElem?_eq_none]
    rw [List.length_take]
    omega

/-- Among tasks that are all for pieces those count that have come to an error. -/
theorem countP_hasFailed {tasks : List (Purpose × Option Client.TaskEnd)}
    {ends : List Client.TaskEnd} (hpieces : ∀ task ∈ tasks, task.1.isPiece = true)
    (hends : tasks.map Prod.snd = ends.map some) :
    tasks.countP hasFailed = ends.countP Client.TaskEnd.isError := by
  have hsame : ∀ task ∈ tasks, (hasFailed task = true ↔
      task.2.any Client.TaskEnd.isError = true) := by
    intro task hmem
    rw [hasFailed, hpieces task hmem, Bool.true_and]
  calc tasks.countP hasFailed
      = tasks.countP (fun task => task.2.any Client.TaskEnd.isError) := List.countP_congr hsame
    _ = (tasks.map Prod.snd).countP (fun e => e.any Client.TaskEnd.isError) := by
        rw [List.countP_map]
        rfl
    _ = ends.countP Client.TaskEnd.isError := by
        rw [hends, List.countP_map]
        rfl

end Register

/-!
## Schedules
-/

namespace Run

theorem countsNoPiece_move (run : Run) (scene : Scene) :
    scene.journal.CountsNoPiece (run.move scene).1.journal := by
  apply move_induct (R := fun a b => a.journal.CountsNoPiece b.journal)
  · exact Scene.Works.journal
  · exact Journal.CountsNoPiece.trans
  · intro scene name
    apply Journal.countsNoPiece_of_counters
    unfold Scene.cancelNamed
    cases scene.contexts.lookup name <;> rfl
  · exact fun _ _ => Journal.countsNoPiece_of_counters rfl

/-- A transaction does not count its piece. -/
theorem countsNoPiece_poll (run : Run) (scene : Scene) :
    scene.journal.CountsNoPiece (run.poll scene).1.journal := by
  have hadvanceFor (fuel : Nat) : ∀ (run : Run) (scene : Scene),
      scene.journal.CountsNoPiece (advanceFor fuel run scene).1.journal := by
    induction fuel with
    | zero => exact fun _ _ => Journal.countsNoPiece_of_counters rfl
    | succ fuel ih =>
        intro run scene
        have hmove := run.countsNoPiece_move scene
        unfold advanceFor
        generalize run.move scene = moved at hmove
        rcases moved with ⟨scene', run', pace⟩
        cases pace with
        | waits | givesWay => exact hmove
        | goesOn => exact hmove.trans (ih run' scene')
  exact hadvanceFor 8 run scene

end Run

namespace Schedule

def register (s : Schedule) : Register where
  tasks := s.tasks.map fun task => (task.purpose, task.run.end?)
  pieces := s.scene.journal.total .pieces
  failedPieces := s.scene.journal.total .failedPieces

/-- Tasks are started and end, and are counted as in a register. -/
def Proceeds (s s' : Schedule) : Prop :=
  Register.Reaches s.register s'.register

theorem register_eq {s s' : Schedule}
    (htasks : s'.tasks.map (fun task => (task.purpose, task.run.end?)) =
      s.tasks.map fun task => (task.purpose, task.run.end?))
    (hjournal : s.scene.journal.CountsNoPiece s'.scene.journal) : s'.register = s.register := by
  rw [register, register, htasks, hjournal.pieces, hjournal.failedPieces]

theorem Rests.register_eq {s s' : Schedule} (h : Rests s s') : s'.register = s.register := by
  rw [register, register, h.tasks, h.journal]

theorem proceeds_of_eq {s s' : Schedule} (h : s'.register = s.register) : Proceeds s s' := by
  rw [Proceeds, h]

theorem Proceeds.trans {a b c : Schedule} (hab : Proceeds a b) (hbc : Proceeds b c) :
    Proceeds a c :=
  Relation.ReflTransGen.trans hab hbc

theorem Rests.proceeds {s s' : Schedule} (h : Rests s s') : Proceeds s s' :=
  proceeds_of_eq h.register_eq

/-- The end of a task is counted if it is one for a piece and ends with an error. -/
theorem register_recordEnd (s : Schedule) (purpose : Purpose) (e : Client.TaskEnd) :
    register { s with scene := recordEnd s.scene purpose e } =
      { s.register with failedPieces := s.register.failedPieces +
          if Register.hasFailed (purpose, some e) then 1 else 0 } := by
  cases purpose with
  | single => rfl
  | piece offset =>
      cases e with
      | crashed message => rfl
      | finished result =>
          cases result with
          | ok keys => rfl
          | error f =>
              have htotal (c : Counter) :
                  (s.scene.journal.count .failedPieces 1).total c =
                    if c = .failedPieces then s.scene.journal.total c + 1
                    else s.scene.journal.total c := s.scene.journal.total_count _ c 1
              have hpieces := htotal .pieces
              have hfailed := htotal .failedPieces
              rw [if_neg (by decide)] at hpieces
              rw [if_pos rfl] at hfailed
              rw [register, register]
              congr 1

theorem getElem?_register {s : Schedule} {id : Nat} {task : Task}
    (htask : s.tasks[id]? = some task) (hgoesOn : task.hasEnded = false) :
    s.register.tasks[id]? = some (task.purpose, none) := by
  have hend : task.run.end? = none := by
    rw [Task.hasEnded, Option.isSome_eq_false_iff, Option.isNone_iff_eq_none] at hgoesOn
    exact hgoesOn
  rw [register, List.getElem?_map, htask, Option.map_some, hend]

theorem register_polled (s : Schedule) (id : Nat) (task : Task) :
    (s.polled id task).register = { s.register with
      tasks := s.register.tasks.set id
        (task.purpose, (task.run.poll s.scene.newTurn).2.1.end?) } := by
  have hpolled := task.run.countsNoPiece_poll s.scene.newTurn
  have hpieces : (s.polled id task).scene.journal.total .pieces =
      s.scene.journal.total .pieces := hpolled.pieces
  have hfailed : (s.polled id task).scene.journal.total .failedPieces =
      s.scene.journal.total .failedPieces := hpolled.failedPieces
  rw [register, register, hpieces, hfailed, polled, List.map_set]

/-- In a turn at most one task ends, and that is counted then. -/
theorem proceeds_takeTurn (s : Schedule) (id : Nat) : Proceeds s (s.takeTurn id) := by
  have hturn := s.turn_takeTurn id
  generalize s.takeTurn id = after at hturn ⊢
  cases hturn with
  | nobody | idle => exact proceeds_of_eq rfl
  | @goesOn task _ htask hgoesOn hend hafter =>
      have hentry := getElem?_register htask hgoesOn
      rcases List.getElem?_eq_some_iff.mp hentry with ⟨hlt, hget⟩
      apply proceeds_of_eq
      rw [hafter.register_eq, register_polled, hend, ← hget, List.set_getElem_self]
  | @ended task e between _ htask hgoesOn hend hbetween hafter =>
      have hentry := getElem?_register htask hgoesOn
      have hstep := Register.Step.ended hentry e
      rw [Proceeds, hafter.register_eq, register_recordEnd, hbetween.register_eq, register_polled,
        hend]
      exact Relation.ReflTransGen.single hstep

theorem proceeds_await (s : Schedule) (span : Span) (giveUp : Option Millis) :
    Proceeds s (s.await span giveUp).1 :=
  await_induct (R := Proceeds) Proceeds.trans Rests.proceeds proceeds_takeTurn s span giveUp

theorem proceeds_wait (s : Schedule) (duration : Millis) : Proceeds s (s.wait duration) :=
  wait_induct (R := Proceeds) Proceeds.trans Rests.proceeds proceeds_takeTurn s duration

/-- A transaction without a task is not counted. -/
theorem proceeds_lookAtRun (giveUp : Option Millis) (run : Run) (s : Schedule) :
    Proceeds s (lookAtRun giveUp run s).1 := by
  have hpolled : (s.pollOutside run).1.register = s.register := by
    have hcounts := run.countsNoPiece_poll s.scene
    unfold pollOutside
    generalize run.poll s.scene = polled at hcounts ⊢
    rcases polled with ⟨scene, run', pace⟩
    have hmoved : register { s with scene := scene } = s.register := register_eq rfl hcounts
    exact (rests_wakeReached { s with scene := scene } none).register_eq.trans hmoved
  apply proceeds_of_eq
  unfold lookAtRun
  generalize s.pollOutside run = polled at hpolled ⊢
  rcases polled with ⟨s', run', pace⟩
  dsimp only at hpolled ⊢
  cases run'.end? with
  | some e => exact hpolled
  | none =>
      dsimp only
      split
      · exact (s'.rests_spend 1).register_eq.trans hpolled
      · split <;> exact hpolled

theorem proceeds_awaitOutside (s : Schedule) (run : Run) (giveUp : Option Millis) :
    Proceeds s (s.awaitOutside run giveUp).1 := by
  have hwaited : Proceeds s (waitFor (lookAtRun giveUp) (s.patience [run]) run s).1 :=
    waiting_induct (R := Proceeds) Proceeds.trans Rests.proceeds proceeds_takeTurn
      (proceeds_lookAtRun giveUp) _ run s
  unfold awaitOutside
  generalize waitFor (lookAtRun giveUp) (s.patience [run]) run s = waited at hwaited ⊢
  rcases waited with ⟨s', run', e⟩
  dsimp only at hwaited ⊢
  split
  · exact hwaited.trans (s'.rests_letGo _).proceeds
  · exact hwaited

end Schedule

end Simulation
end WriteLatch
