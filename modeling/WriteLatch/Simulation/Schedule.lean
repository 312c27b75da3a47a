import WriteLatch.Simulation.Run

/-!
# Scheduling tasks

Transactions run on tasks, one at a time, on a clock that moves only when no
task can go on.  Tasks that can go on stand in a queue and take turns; a turn
ends when the task pauses or gives way.  A paused task is woken when its pause
or the deadline of its call comes, or when its call is cancelled.  The calls
that one token's cancellation has ended are woken in the order in which they
began.

Beside the tasks stands who waits for some of them.  It is looked at before the
first turn, after every round of turns, and when the clock has moved.  Tasks
that gave way stand in the queue again after the round, the last one first.
-/

namespace WriteLatch
namespace Simulation

inductive Purpose where
  /-- A piece of a request, by the position of its first key. -/
  | piece (offset : Nat)
  | single
  deriving DecidableEq, Repr

structure Task where
  purpose : Purpose
  run : Run

structure Schedule where
  scene : Scene
  tasks : List Task := []
  /-- The positions of the tasks that can go on. -/
  ready : List Nat := []
  /-- The positions of the tasks that gave way in this round, the last one
  first. -/
  deferred : List Nat := []

namespace Run

/-- When a paused transaction is woken at the latest. -/
def wakeTime? (run : Run) : Option Millis :=
  run.waiting?.map fun w => w.1.limit w.2

/-- Whether the call of a paused transaction has been cancelled. -/
def isCalledOff (run : Run) (tokens : Tokens) : Bool :=
  match run.waiting? with
  | some w => tokens.isCancelled w.1.token
  | none => false

def waitsOn (run : Run) (token : Nat) : Bool :=
  match run.waiting? with
  | some w => w.1.token.number == token
  | none => false

end Run

namespace Task

def hasEnded (task : Task) : Bool :=
  task.run.end?.isSome

def isDue (task : Task) (now : Millis) : Bool :=
  match task.run.wakeTime? with
  | some t => t <= now
  | none => false

end Task

namespace Schedule

/-! ## Waking -/

def wake (s : Schedule) (ids : List Nat) : Schedule :=
  { s with ready := s.ready ++ ids.filter fun id => !s.ready.contains id }

/-- The tasks with the property, by position. -/
def positions (s : Schedule) (p : Task -> Bool) : List Nat :=
  (s.tasks.zipIdx.filter fun task => p task.1).map Prod.snd

/-- The tasks whose calls wait on a token, the one begun first first. -/
def waitersOn (s : Schedule) (token : Nat) : List Nat :=
  let waiters := s.tasks.zipIdx.filter fun task => task.1.run.waitsOn token
  (waiters.mergeSort fun a b => a.1.run.begun <= b.1.run.begun).map Prod.snd

/-- Wakes the tasks whose calls cancellations have reached. A task that runs is
passed over. -/
def wakeReached (s : Schedule) (running : Option Nat) : Schedule :=
  match s.scene.reached with
  | [] => s
  | reached =>
      let woken := reached.flatMap s.waitersOn
      { s with scene := { s.scene with reached := [] } }.wake
        (woken.filter fun id => running != some id)

/-- Wakes the tasks that gave way. -/
def wakeDeferred (s : Schedule) : Schedule :=
  let woken := s.deferred.filter fun id => s.tasks[id]?.any fun task => !task.hasEnded
  { s with deferred := [] }.wake woken

/-- Changes the scene and wakes what the change has cancelled. -/
def onScene (s : Schedule) (change : Scene -> Scene) : Schedule :=
  { s with scene := change s.scene }.wakeReached none

/-! ## Tasks -/

/-- The positions that so many more tasks take. -/
def nextSpan (s : Schedule) (count : Nat) : Span :=
  ⟨s.tasks.length, s.tasks.length + count⟩

/-- Adds tasks, which can go on in the order in which they are given. -/
def spawn (s : Schedule) (tasks : List Task) : Schedule :=
  { s with
    tasks := s.tasks ++ tasks
    ready := s.ready ++ (List.range tasks.length).map (s.tasks.length + ·) }

def holds (s : Schedule) (c : Context) : Bool :=
  (s.scene.contexts.any fun named => named.2.token == c.token) ||
    s.tasks.any fun task => !task.hasEnded && task.run.ctx.token == c.token

/-- Lets go of a context unless it is held elsewhere. -/
def release (s : Schedule) (c : Context) : Schedule :=
  if s.holds c then s else { s with scene := s.scene.letGo c }

/-- What is recorded when a task ends. -/
def recordEnd (scene : Scene) : Purpose -> Client.TaskEnd -> Scene
  | .piece offset, .finished (.error f) =>
      (scene.count .failedPieces 1).event (.pieceFailed offset f.message)
  | _, _ => scene

/-- The turn of one task.  Others that are woken in it stand in the queue before
the task itself, which stands there if it has called off its own call, even where
it also gave way. -/
def takeTurn (s : Schedule) (id : Nat) : Schedule :=
  match s.tasks[id]? with
  | none => s
  | some task =>
      if task.hasEnded then s
      else
        let (scene, run, pace) := task.run.poll s.scene.newTurn
        let s := { s with scene := scene, tasks := s.tasks.set id { task with run := run } }
        let s := s.wakeReached (some id)
        match run.end?, pace with
        | some e, _ => { s with scene := recordEnd s.scene task.purpose e }.release run.ctx
        | none, pace =>
            let s := match pace with
              | .givesWay => { s with deferred := id :: s.deferred }
              | _ => s
            if run.isCalledOff s.scene.tokens then s.wake [id] else s

/-- Turns until the queue is empty or the round is over. -/
def takeTurns : Nat -> Schedule -> Schedule
  | 0, s => s
  | fuel + 1, s =>
      match s.ready with
      | [] => s
      | id :: rest => takeTurns fuel ({ s with ready := rest }.takeTurn id)

def newTurn (s : Schedule) : Schedule :=
  { s with scene := s.scene.newTurn }

def round (s : Schedule) : Schedule :=
  (takeTurns Fairness.roundSize s).wakeDeferred.newTurn

/-! ## The clock -/

def nextWake? (s : Schedule) : Option Millis :=
  (s.tasks.filterMap fun task => task.run.wakeTime?).min?

/-- Sets the clock forward to an instant and wakes the tasks due by then. -/
def jumpTo (s : Schedule) (instant : Millis) : Schedule :=
  let s := { s with scene := { s.scene with now := max s.scene.now instant } }
  (s.wake (s.positions fun task => task.isDue s.scene.now)).newTurn

/-- A round, or when no task can go on a jump, if there is anywhere to jump. -/
def goOn? (s : Schedule) (alarm : Option Millis) : Option Schedule :=
  match s.ready, s.deferred with
  | [], [] => (s.nextWake?.merge min alarm).map s.jumpTo
  | _, _ => some s.round

/-! ## Waiting -/

/-- How a wait stands. -/
inductive Look (α : Type) where
  | over (a : α)
  | givesWay
  /-- It may be over at once at the instant given. -/
  | waits (alarm : Option Millis)

/-- Waits by looking again and again.  What is looked after changes with it. -/
def waitFor {σ α : Type} (look : σ -> Schedule -> Schedule × σ × Look α) :
    Nat -> σ -> Schedule -> Schedule × σ × Option α
  | 0, state, s => (s, state, none)
  | fuel + 1, state, s =>
      match look state s with
      | (s, state, .over a) => (s, state, some a)
      | (s, state, .givesWay) => waitFor look fuel state s.round
      | (s, state, .waits alarm) =>
          match s.goOn? alarm with
          | some s => waitFor look fuel state s
          | none => (s, state, none)

/-- A bound on the looks of a wait: how often tasks can be let go on before all
have ended, with room for the jumps between and for those who gave way. -/
def patience (s : Schedule) (others : List Run) : Nat :=
  let beatsLeft (run : Run) : Nat :=
    match run.stage with
    | .locking _ (.paused _ beats) => beats.length
    | .writing _ _ (.paused _ beats) => beats.length
    | .releasing _ _ (.paused _ beats) => beats.length
    | _ => 0
  let perRun := 4 * s.scene.faults.store.length + 16
  4 * ((others ++ s.tasks.map Task.run).map fun run => beatsLeft run + perRun).foldr (· + ·) 0 + 16

def spend (s : Schedule) (n : Nat) : Schedule :=
  { s with scene := s.scene.spend n }

/-- Whether an instant has come. -/
def hasCome (s : Schedule) (instant : Millis) : Bool :=
  instant <= s.scene.now

/-- A wait until an instant. -/
def lookAtClock (stop : Millis) (_ : Unit) (s : Schedule) : Schedule × Unit × Look Unit :=
  if s.scene.allowance = 0 then (s, (), .givesWay)
  else if s.hasCome stop then (s.spend 1, (), .over ())
  else (s, (), .waits (some stop))

def wait (s : Schedule) (duration : Millis) : Schedule :=
  (waitFor (lookAtClock (Clock.pauseEnd s.scene.now duration)) (s.patience []) () s).1

/-! ## Waiting for tasks -/

/-- The ends of the tasks in a span, once all of them have ended. -/
def ends? (s : Schedule) (span : Span) : Option (List Client.TaskEnd) :=
  (span.slice s.tasks).mapM fun task => task.run.end?

def endedIn (s : Schedule) (span : Span) : Nat :=
  (span.slice s.tasks).countP Task.hasEnded

/-- A wait for the tasks in a span to end, but not past the instant at which the
caller gives up; `none` stands for that.  Every end is counted once. -/
def lookAtTasks (span : Span) (giveUp : Option Millis) (counted : Nat) (s : Schedule) :
    Schedule × Nat × Look (Option (List Client.TaskEnd)) :=
  if s.scene.allowance = 0 then (s, counted, .givesWay)
  else
    let ended := s.endedIn span
    let s := s.spend (ended - counted)
    match s.ends? span with
    | some ends => (s, ended, .over (some ends))
    | none =>
        if giveUp.any s.hasCome then (s.spend 1, ended, .over none)
        else (s, ended, .waits giveUp)

def await (s : Schedule) (span : Span) (giveUp : Option Millis) :
    Schedule × Option (List Client.TaskEnd) :=
  let (s, _, ends) := waitFor (lookAtTasks span giveUp) (s.patience []) 0 s
  (s, ends.join)

/-! ## A transaction without a task -/

/-- Lets a transaction that has no task go on, with the tasks it woke. -/
def pollOutside (s : Schedule) (run : Run) : Schedule × Run × Pace :=
  let (scene, run, pace) := run.poll s.scene
  ({ s with scene := scene }.wakeReached none, run, pace)

/-- A wait for a transaction that has no task.  The caller does not give up with
nothing left of the allowance, unless the transaction has just used it up. -/
def lookAtRun (giveUp : Option Millis) (run : Run) (s : Schedule) :
    Schedule × Run × Look (Option Client.TaskEnd) :=
  let usedUp := s.scene.allowance == 0
  let (s, run, pace) := s.pollOutside run
  match run.end? with
  | some e => (s, run, .over (some e))
  | none =>
      if giveUp.any s.hasCome && !usedUp then (s.spend 1, run, .over none)
      else if pace == .givesWay || run.isCalledOff s.scene.tokens then (s, run, .givesWay)
      else (s, run, .waits (run.wakeTime?.merge min giveUp))

/-- Waits for a transaction that has no task; given up, it is dropped where it
stands. -/
def awaitOutside (s : Schedule) (run : Run) (giveUp : Option Millis) :
    Schedule × Option Client.TaskEnd :=
  let (s, run, e) := waitFor (lookAtRun giveUp) (s.patience [run]) run s
  match e.join, run.cacheContext? with
  | none, some c => ({ s with scene := s.scene.letGo c }, none)
  | e, _ => (s, e)

end Schedule
end Simulation
end WriteLatch
