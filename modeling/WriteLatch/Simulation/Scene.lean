import WriteLatch.Cache
import WriteLatch.Fairness
import WriteLatch.Journal
import WriteLatch.Simulation.Faults
import WriteLatch.Simulation.Lineage
import WriteLatch.Store
import WriteLatch.Transaction

/-!
# The scene of a simulation

What the transactions of a simulation share: the clock, the contexts with their
tokens, the cache and the store with their faults, and the journal.  The cache
goes by a clock of its own, which was started more than a second ago and moves
only when it is told to.

Whose turn it is may go on through so many waits that are over at once and then
gives way.
-/

namespace WriteLatch
namespace Simulation

/-- Where failures reported aside end up. -/
inductive Reporting where
  | recorded
  | traced
  deriving DecidableEq, Repr

structure Scene where
  now : Millis := 0
  cacheNow : Millis := 2000
  tokens : Tokens := {}
  lineage : Lineage := []
  /-- The tokens that cancellations have reached and whose calls are still to be
  woken, in order. -/
  reached : List Nat := []
  contexts : Association String Context := []
  /-- The number of calls begun so far. -/
  begun : Nat := 0
  /-- How many more waits may be over at once in this turn. -/
  allowance : Nat := Fairness.allowance
  cache : Cache := {}
  store : Store := {}
  scheme : LockScheme := {}
  faults : Faults := {}
  reporting : Reporting := .recorded
  journal : Journal := {}

namespace Scene

def call (scene : Scene) (c : CollaboratorCall) : Scene :=
  { scene with journal := scene.journal.call c }

def event (scene : Scene) (e : Event) : Scene :=
  { scene with journal := scene.journal.event e }

def count (scene : Scene) (c : Counter) (n : Nat) : Scene :=
  { scene with journal := scene.journal.count c n }

def report (scene : Scene) (c : Context) (causes : List String) : Scene :=
  let report : Report := ⟨c.tenant, c.traceId, causeText causes⟩
  match scene.reporting with
  | .recorded => { scene with journal := scene.journal.report report }
  | .traced => (scene.count .reportedErrors 1).event (.reported report)

/-! ## Contexts -/

def newRoot (scene : Scene) (traceId : String) : Context × Scene :=
  let (c, tokens) := Context.root traceId scene.tokens
  (c, { scene with tokens := tokens, lineage := scene.lineage.found c.token.number })

def deriveFrom (scene : Scene) (parent : Context) : Context × Scene :=
  let (c, tokens) := parent.child scene.tokens
  (c, { scene with
    tokens := tokens
    lineage := scene.lineage.derive parent.token.number c.token.number })

/-- Lets go of a context that is held nowhere any more. -/
def letGo (scene : Scene) (c : Context) : Scene :=
  { scene with lineage := scene.lineage.letGo c.token.number }

def cancel (scene : Scene) (c : Context) : Scene :=
  let (reached, lineage) := scene.lineage.cancel c.token.number
  { scene with
    tokens := scene.tokens.cancel c.token
    lineage := lineage
    reached := scene.reached ++ reached }

/-- Cancels the context of that name, if there is one. -/
def cancelNamed (scene : Scene) (name : String) : Scene :=
  match scene.contexts.lookup name with
  | some c => scene.cancel c
  | none => scene

def interruption? (scene : Scene) (c : Context) : Option Interruption :=
  c.interruption? scene.tokens scene.now

/-! ## Turns -/

def newTurn (scene : Scene) : Scene :=
  { scene with allowance := Fairness.allowance }

def spend (scene : Scene) (n : Nat) : Scene :=
  { scene with allowance := scene.allowance - n }

/-- An interruption by the deadline is a wait that is over. -/
def noteInterruption (scene : Scene) : Interruption -> Scene
  | .cancelled => scene
  | .deadlineExceeded => scene.spend 1

/-! ## Locks -/

/-- Looks whether a key is locked, as a reader would. -/
def lookForLock (scene : Scene) (k : Key) : Bool × Scene :=
  let slot := scene.scheme.slot k
  (scene.cache.isLocked scene.cacheNow slot,
    { scene with cache := scene.cache.afterRead scene.cacheNow slot })

def lookForLocks (scene : Scene) : List Key -> List Bool × Scene
  | [] => ([], scene)
  | k :: keys =>
      let (locked, scene) := scene.lookForLock k
      let (rest, scene) := scene.lookForLocks keys
      (locked :: rest, scene)

end Scene

/-! ## Serving a call -/

inductive Served (ε : Type) where
  | paused (resume : Millis) (rest : List (Beat ε))
  /-- A pause that has to give way before it can begin. -/
  | gaveWay (resume : Millis) (rest : List (Beat ε))
  | crashed (message : String)
  | failed (e : ε)
  | completed

namespace Scene

/-- Everything that happens until the next pause. -/
def serve {ε : Type} (scene : Scene) : List (Beat ε) -> Scene × Served ε
  | [] => (scene, .completed)
  | .cancel name :: rest => (scene.cancelNamed name).serve rest
  | .pause duration :: rest =>
      if scene.allowance = 0 then (scene, .gaveWay (Clock.pauseEnd scene.now duration) rest)
      else if duration = 0 then (scene.spend 1).serve rest
      else (scene, .paused (Clock.pauseEnd scene.now duration) rest)
  | .crash message :: _ => (scene, .crashed message)
  | .fail e :: _ => (scene, .failed e)

theorem serve_nil {ε : Type} (scene : Scene) :
    scene.serve ([] : List (Beat ε)) = (scene, .completed) := rfl

end Scene
end Simulation
end WriteLatch
