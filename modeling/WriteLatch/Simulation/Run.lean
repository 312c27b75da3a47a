import WriteLatch.Client
import WriteLatch.Simulation.Scene

/-!
# A transaction in a scene

A transaction advances in small moves: a call begins, is served up to its next
pause, or is interrupted.  Between two pauses nothing looks at the context
again, so a call that ends its own context and returns without a pause has
still returned.  A turn that has used up its allowance gives way where the next
wait would begin, before a call or in the middle of one.
-/

namespace WriteLatch
namespace Simulation

/-- How far the call that is due has come. -/
inductive Progress (ε : Type) where
  | notBegun
  | serving (beats : List (Beat ε))
  | paused (resume : Millis) (beats : List (Beat ε))

inductive Stage where
  | opening
  | locking (c : Context) (call : Progress (List String))
  /-- The rules that apply to a call of the store are taken when it begins. -/
  | writing (c : Context) (rules : List StoreRule) (call : Progress Failure)
  | releasing (c : Context) (result : CallResult) (call : Progress (List String))
  | ended (e : Client.TaskEnd)

namespace Stage

/-- The stage in which the call of a phase has not begun. -/
def ofPhase : Transaction.Phase -> Stage
  | .opening => .opening
  | .locking c => .locking c .notBegun
  | .writing c => .writing c [] .notBegun
  | .releasing c result => .releasing c result .notBegun
  | .finished result => .ended (.finished result)

end Stage

structure Run where
  ctx : Context
  keys : List Key
  values : List Value
  stage : Stage := .opening
  /-- How many calls had begun in the scene before the one that is due. -/
  begun : Nat := 0

/-- Whether a transaction goes on at once after a move, waits, or gives way and
wants to go on. -/
inductive Pace where
  | goesOn
  | waits
  | givesWay
  deriving DecidableEq, Repr

namespace Run

def enter (run : Run) (stage : Stage) : Run :=
  { run with stage := stage }

def inPhase (run : Run) (phase : Transaction.Phase) : Run :=
  run.enter (.ofPhase phase)

def crashed (run : Run) (message : String) : Run :=
  run.enter (.ended (.crashed message))

def end? (run : Run) : Option Client.TaskEnd :=
  match run.stage with
  | .ended e => some e
  | _ => none

/-- The context under which the call that is due is made, and when a pause of
that call ends. -/
def waiting? (run : Run) : Option (Context × Millis) :=
  match run.stage with
  | .locking c (.paused resume _) => some (c, resume)
  | .writing _ _ (.paused resume _) => some (run.ctx, resume)
  | .releasing c _ (.paused resume _) => some (c, resume)
  | _ => none

/-- The context for the cache, while there is one. -/
def cacheContext? (run : Run) : Option Context :=
  match run.stage with
  | .locking c _ => some c
  | .writing c _ _ => some c
  | .releasing c _ _ => some c
  | _ => none

/-! ## Moves -/

def begin (run : Run) (scene : Scene) (stage : Stage) : Scene × Run :=
  ({ scene with begun := scene.begun + 1 }, { run with stage := stage, begun := scene.begun })

def openContext (run : Run) (scene : Scene) : Scene × Run :=
  let scene := scene.call .newContext
  let rule := scene.faults.cache.context
  let scene := (rule.cancel.map scene.cancelNamed).getD scene
  match rule.fail with
  | some causes => (scene, run.inPhase (Transaction.opened (.error causes)))
  | none =>
      let (c, scene) := scene.deriveFrom run.ctx
      let c := (rule.timeout.map (c.withTimeout scene.now)).getD c
      (scene, run.inPhase (Transaction.opened (.ok c)))

def lockItems (run : Run) (scene : Scene) : List CacheItem :=
  scene.scheme.lockItems run.keys

def lockSlots (run : Run) (scene : Scene) : List String :=
  scene.scheme.lockSlots run.keys

/-- The locks are set, or cannot be represented in the time of the cache. -/
def setLocks (run : Run) (scene : Scene) (c : Context) : Scene × Run :=
  match scene.cache.setAll scene.cacheNow (run.lockItems scene) with
  | .ok cache =>
      ({ scene with cache := cache }.event (.locksSet (run.lockItems scene).length),
        run.inPhase (Transaction.locked c (.returned (.ok ()))))
  | .error cache => ({ scene with cache := cache }, run.crashed Cache.overflowMessage)

def storeAnswered (run : Run) (scene : Scene) (c : Context) (result : CallResult) :
    Scene × Run :=
  (scene.event (.storeAnswered run.keys.length result.isOk),
    run.inPhase (Transaction.written c (.returned result)))

def putEntities (run : Run) (scene : Scene) (c : Context) (rules : List StoreRule) :
    Scene × Run :=
  let (result, store) := scene.store.putAll run.keys run.values
  run.storeAnswered { scene with store := store } c (answerAfter rules run.keys result)

def releaseAnswered (run : Run) (scene : Scene) (result : CallResult) (answer : CacheAnswer) :
    Scene × Run :=
  let run := run.inPhase (Transaction.released result answer)
  match Transaction.releaseCauses? answer with
  | some causes => ((scene.count .failedReleases 1).report run.ctx causes, run)
  | none => (scene, run)

def deleteLocks (run : Run) (scene : Scene) (result : CallResult) : Scene × Run :=
  run.releaseAnswered { scene with cache := scene.cache.eraseAll (run.lockSlots scene) } result
    (.returned (.ok ()))

/-- One move of a transaction. -/
def advance (run : Run) (scene : Scene) : Scene × Run × Pace :=
  let goOn (moved : Scene × Run) : Scene × Run × Pace := (moved.1, moved.2, .goesOn)
  match run.stage with
  | .ended _ => (scene, run, .waits)
  | .opening => goOn (run.openContext scene)
  | .locking c .notBegun =>
      match scene.interruption? c with
      | some i => goOn (scene, run.inPhase (Transaction.locked c (.interrupted i)))
      | none =>
          if scene.allowance = 0 then (scene, run, .givesWay)
          else
            goOn (run.begin (scene.call (.set (run.lockItems scene)))
              (.locking c (.serving scene.faults.cache.set.beats)))
  | .locking c (.serving beats) =>
      match scene.serve beats with
      | (scene, .paused resume rest) =>
          (scene, run.enter (.locking c (.paused resume rest)), .waits)
      | (scene, .gaveWay resume rest) =>
          (scene, run.enter (.locking c (.paused resume rest)), .givesWay)
      | (scene, .crashed message) => goOn (scene, run.crashed message)
      | (scene, .failed causes) =>
          goOn (scene, run.inPhase (Transaction.locked c (.returned (.error causes))))
      | (scene, .completed) => goOn (run.setLocks scene c)
  | .locking c (.paused resume rest) =>
      match scene.interruption? c with
      | some i => goOn (scene.noteInterruption i, run.inPhase (Transaction.locked c (.interrupted i)))
      | none =>
          if resume <= scene.now then goOn (scene.spend 1, run.enter (.locking c (.serving rest)))
          else (scene, run, .waits)
  | .writing c _ .notBegun =>
      match scene.interruption? run.ctx with
      | some i => goOn (scene, run.inPhase (Transaction.written c (.interrupted i)))
      | none =>
          if scene.allowance = 0 then (scene, run, .givesWay)
          else
            let (locked, scene) := scene.lookForLocks run.keys
            goOn (run.begin (scene.call (.put run.keys locked))
              (.writing c (scene.faults.storeRules run.keys)
                (.serving (scene.faults.storeBeats run.keys))))
  | .writing c rules (.serving beats) =>
      match scene.serve beats with
      | (scene, .paused resume rest) =>
          (scene, run.enter (.writing c rules (.paused resume rest)), .waits)
      | (scene, .gaveWay resume rest) =>
          (scene, run.enter (.writing c rules (.paused resume rest)), .givesWay)
      | (scene, .crashed message) => goOn (scene, run.crashed message)
      | (scene, .failed f) =>
          goOn (run.storeAnswered scene c (Transaction.wholesale f))
      | (scene, .completed) => goOn (run.putEntities scene c rules)
  | .writing c rules (.paused resume rest) =>
      match scene.interruption? run.ctx with
      | some i => goOn (scene.noteInterruption i, run.inPhase (Transaction.written c (.interrupted i)))
      | none =>
          if resume <= scene.now then goOn (scene.spend 1, run.enter (.writing c rules (.serving rest)))
          else (scene, run, .waits)
  | .releasing c result .notBegun =>
      match scene.interruption? c with
      | some i => goOn (run.releaseAnswered scene result (.interrupted i))
      | none =>
          if scene.allowance = 0 then (scene, run, .givesWay)
          else
            goOn (run.begin (scene.call (.delete (run.lockSlots scene)))
              (.releasing c result (.serving scene.faults.cache.delete.beats)))
  | .releasing c result (.serving beats) =>
      match scene.serve beats with
      | (scene, .paused resume rest) =>
          (scene, run.enter (.releasing c result (.paused resume rest)), .waits)
      | (scene, .gaveWay resume rest) =>
          (scene, run.enter (.releasing c result (.paused resume rest)), .givesWay)
      | (scene, .crashed message) => goOn (scene, run.crashed message)
      | (scene, .failed causes) =>
          goOn (run.releaseAnswered scene result (.returned (.error causes)))
      | (scene, .completed) => goOn (run.deleteLocks scene result)
  | .releasing c result (.paused resume rest) =>
      match scene.interruption? c with
      | some i => goOn (run.releaseAnswered (scene.noteInterruption i) result (.interrupted i))
      | none =>
          if resume <= scene.now then goOn (scene.spend 1, run.enter (.releasing c result (.serving rest)))
          else (scene, run, .waits)

/-- One move, after whose end the context for the cache is held no more. -/
def move (run : Run) (scene : Scene) : Scene × Run × Pace :=
  match run.advance scene with
  | (scene, next, pace) =>
      match next.end?, run.cacheContext? with
      | some _, some c => (scene.letGo c, next, pace)
      | _, _ => (scene, next, pace)

def advanceFor : Nat -> Run -> Scene -> Scene × Run × Pace
  | 0, run, scene => (scene, run, .waits)
  | fuel + 1, run, scene =>
      match run.move scene with
      | (scene, run, .goesOn) => advanceFor fuel run scene
      | stopped => stopped

/-- Advances until a pause or the end; from one pause to the next there are
never more than eight moves. -/
def poll (run : Run) (scene : Scene) : Scene × Run × Pace :=
  advanceFor 8 run scene

end Run
end Simulation
end WriteLatch
