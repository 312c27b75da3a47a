import WriteLatch.Simulation.Schedule

/-!
# Sessions

A session is a client at work in a scene, step by step: writes, looks at the
store and the cache, changes of the faults, and the passing of time.  Every
step leaves a page of the journal behind.  Who waits for a write may give up
before it is done.  What runs on tasks of its own then goes on; a transaction
without a task is dropped where it stands, locks and all.
-/

namespace WriteLatch
namespace Simulation

structure Session where
  client : Client
  schedule : Schedule

inductive Step where
  | writeMany (ctx : String) (keys : List Key) (values : List Value) (giveUp : Option Millis)
  | writeOne (ctx : String) (key : Key) (value : Value) (giveUp : Option Millis)
  /-- A transaction alone: no check, no pieces, no task. -/
  | transact (ctx : String) (keys : List Key) (values : List Value) (giveUp : Option Millis)
  | storePut (keys : List Key) (values : List Value)
  | storeGet (key : Key)
  | storeInfo
  | cacheSet (items : List CacheItem)
  | cacheDelete (slots : List String)
  | cacheGet (slot : String)
  | cacheLocked (slot : String)
  | keyLocked (key : Key)
  | cacheInfo
  | cacheWait
  | storeRules (rules : List StoreRule)
  | cacheRules (rules : CacheRules)
  | context (name : String) (traceId tenant : Option String) (timeout : Option Millis)
      (parent : Option String)
  | cancel (ctx : String)
  | advance (duration : Millis)
  | clientInfo

inductive Outcome where
  | nothing
  | written (result : Except WriteFailure (List Key))
  | slot (slot : Slot)
  | called (result : CallResult)
  | crashed
  | abandoned
  | value (v : Option Value)
  | item (item : Option CacheItem)
  | flag (b : Bool)
  | storeInfo (size : Nat) (callSizes : List Nat) (limit : Nat)
  | cacheInfo (size : Nat)
  | clientInfo (batchSize : Nat) (config : Config)

structure Page where
  outcome : Outcome
  calls : List CollaboratorCall
  reports : List Report
  events : List Event
  entities : Nat
  cached : Nat
  now : Millis

namespace Session

def rootName : String :=
  "root"

/-- A client over a store that announces the given limit. -/
def create (config : Config) (store : Store) (announced : Nat) (reporting : Reporting) :
    Except ConfigDefect Session := do
  let client <- Client.create config announced
  let scene : Scene :=
    { store := store
      scheme := config.lockScheme
      reporting := reporting }
  let (root, scene) := scene.newRoot rootName
  pure ⟨client, { scene := { scene with contexts := [(rootName, root)] } }⟩

def scene (s : Session) : Scene :=
  s.schedule.scene

def withScene (s : Session) (scene : Scene) : Session :=
  { s with schedule := { s.schedule with scene := scene } }

/-- The context of that name. -/
def contextNamed (s : Session) (name : String) : Context :=
  (s.scene.contexts.lookup name).getD ⟨rootName, none, ⟨[0]⟩, none⟩

def giveUpAt (s : Session) (giveUp : Option Millis) : Option Millis :=
  giveUp.map fun duration => s.scene.now + duration

/-! ## Writes -/

/-- Records the answers of the wrong length, piece by piece. -/
def recordMisfits (scene : Scene) (outcomes : List (Span × CallResult)) : Scene :=
  outcomes.foldl
    (fun scene outcome =>
      match Batch.misfit? outcome.1 outcome.2 with
      | some n => scene.event (.wrongLength outcome.1.start outcome.1.size n)
      | none => scene)
    scene

/-- Starts a task for every piece. -/
def startMany (s : Session) (ctx : Context) (pieces : List Client.Piece) (count : Nat) :
    Session × Span :=
  let scene := s.scene.event (.writing ctx.traceId count pieces.length)
  let scene := (scene.count .keys count).count .pieces pieces.length
  let s := s.withScene scene
  let tasks := pieces.map fun piece =>
    Task.mk (.piece piece.span.start) { ctx := ctx, keys := piece.keys, values := piece.values }
  ({ s with schedule := s.schedule.spawn tasks }, s.schedule.nextSpan pieces.length)

def finishMany (s : Session) (spans : List Span) (ends : List Client.TaskEnd) :
    Session × Outcome :=
  let scene := recordMisfits s.scene (spans.zip (ends.map Client.TaskEnd.result))
  let result := Client.merged spans ends
  (s.withScene (scene.event (.written result.isOk)), .written result)

def writeMany (s : Session) (ctx : Context) (keys : List Key) (values : List Value)
    (giveUp : Option Millis) : Session × Outcome :=
  match Request.check keys values with
  | .error d => (s, .written (.error (.invalid d)))
  | .ok () =>
      if keys.isEmpty then (s, .written (.ok []))
      else
        let stop := s.giveUpAt giveUp
        let pieces := s.client.pieces keys values
        let (s, span) := s.startMany (s.client.bounded s.scene.now ctx) pieces keys.length
        let (schedule, ends) := s.schedule.await span stop
        let s := { s with schedule := schedule }
        match ends with
        | some ends => s.finishMany (pieces.map Client.Piece.span) ends
        | none => (s, .abandoned)

def writeOne (s : Session) (ctx : Context) (key : Key) (value : Value)
    (giveUp : Option Millis) : Session × Outcome :=
  match Request.check [key] [value] with
  | .error d => (s, .slot (.error (.invalid d)))
  | .ok () =>
      let stop := s.giveUpAt giveUp
      let run : Run :=
        { ctx := s.client.bounded s.scene.now ctx, keys := [key], values := [value] }
      let span := s.schedule.nextSpan 1
      let (schedule, ends) := (s.schedule.spawn [⟨.single, run⟩]).await span stop
      let s := { s with schedule := schedule }
      match ends with
      | some [e] =>
          (s.withScene (recordMisfits s.scene [(Client.single, e.result)]),
            .slot (Client.outcome e))
      | _ => (s, .abandoned)

def transact (s : Session) (ctx : Context) (keys : List Key) (values : List Value)
    (giveUp : Option Millis) : Session × Outcome :=
  let run : Run := { ctx := ctx, keys := keys, values := values }
  let (schedule, e) := s.schedule.awaitOutside run (s.giveUpAt giveUp)
  let s := { s with schedule := schedule }
  match e with
  | some (.finished result) => (s, .called result)
  | some (.crashed _) => (s, .crashed)
  | none => (s, .abandoned)

/-! ## Other steps -/

/-- Adds a named context; one that had the name before is let go of. -/
def addContext (s : Session) (name : String) (traceId tenant : Option String)
    (timeout : Option Millis) (parent : Option Context) : Session :=
  let before := s.scene.contexts.lookup name
  let (c, scene) :=
    match parent with
    | some p => s.scene.deriveFrom p
    | none => s.scene.newRoot rootName
  let c := { c with traceId := traceId.getD c.traceId }
  let c := (tenant.map c.withTenant).getD c
  let c := (timeout.map (c.withTimeout scene.now)).getD c
  let s := s.withScene { scene with contexts := scene.contexts.put name c }
  { s with schedule := (before.map s.schedule.release).getD s.schedule }

/-- The time after which an item with the shortest lifetime is gone. -/
def cachePause : Millis :=
  1

def take (s : Session) : Step -> Session × Outcome
  | .writeMany ctx keys values giveUp => s.writeMany (s.contextNamed ctx) keys values giveUp
  | .writeOne ctx key value giveUp => s.writeOne (s.contextNamed ctx) key value giveUp
  | .transact ctx keys values giveUp => s.transact (s.contextNamed ctx) keys values giveUp
  | .storePut keys values =>
      let (result, store) := s.scene.store.putAll keys values
      (s.withScene { s.scene with store := store }, .called result)
  | .storeGet key => (s, .value (s.scene.store.find? key))
  | .storeInfo =>
      (s, .storeInfo s.scene.store.size s.scene.store.callSizes s.scene.store.limit)
  | .cacheSet items =>
      match s.scene.cache.setAll s.scene.cacheNow items with
      | .ok cache => (s.withScene { s.scene with cache := cache }, .nothing)
      | .error cache => (s.withScene { s.scene with cache := cache }, .crashed)
  | .cacheDelete slots =>
      (s.withScene { s.scene with cache := s.scene.cache.eraseAll slots }, .nothing)
  | .cacheGet slot =>
      let now := s.scene.cacheNow
      (s.withScene { s.scene with cache := s.scene.cache.afterRead now slot },
        .item (s.scene.cache.find? now slot))
  | .cacheLocked slot =>
      let now := s.scene.cacheNow
      (s.withScene { s.scene with cache := s.scene.cache.afterRead now slot },
        .flag (s.scene.cache.isLocked now slot))
  | .keyLocked key =>
      let (locked, scene) := s.scene.lookForLock key
      (s.withScene scene, .flag locked)
  | .cacheInfo => (s, .cacheInfo s.scene.cache.size)
  | .cacheWait =>
      (s.withScene { s.scene with cacheNow := s.scene.cacheNow + cachePause }, .nothing)
  | .storeRules rules =>
      (s.withScene { s.scene with faults := { s.scene.faults with store := rules } }, .nothing)
  | .cacheRules rules =>
      (s.withScene { s.scene with faults := { s.scene.faults with cache := rules } }, .nothing)
  | .context name traceId tenant timeout parent =>
      (s.addContext name traceId tenant timeout (parent.map s.contextNamed), .nothing)
  | .cancel ctx =>
      ({ s with schedule := s.schedule.onScene fun scene => scene.cancelNamed ctx }, .nothing)
  | .advance duration =>
      ({ s with schedule := s.schedule.wait duration }, .nothing)
  | .clientInfo => (s, .clientInfo s.client.batchSize s.client.config)

/-- Takes a step and turns the page. -/
def step (s : Session) (st : Step) : Session × Page :=
  let (s, outcome) := s.take st
  let scene := s.scene
  let page : Page :=
    { outcome := outcome
      calls := scene.journal.calls
      reports := scene.journal.reports
      events := scene.journal.events
      entities := scene.store.size
      cached := scene.cache.size
      now := scene.now }
  (s.withScene { scene with journal := scene.journal.nextPage }, page)

def steps (s : Session) : List Step -> Session × List Page
  | [] => (s, [])
  | st :: rest =>
      let (s, page) := s.step st
      let (s, pages) := s.steps rest
      (s, page :: pages)

def counters (s : Session) : Association Counter Nat :=
  s.scene.journal.counters

end Session
end Simulation
end WriteLatch
