import WriteLatch.Proofs.Interleaving.Schedules
import WriteLatch.Proofs.Interleaving.Traffic

/-!
# Sessions are traffic

Whatever a client does in a session is traffic: its writes start transactions
and wait for them, and what runs on tasks goes on when the client has given up.
Only a transaction without a task is none, for it is dropped where it stands.
So what is kept by every step of traffic holds after any steps of a client.
-/

namespace WriteLatch
namespace Simulation
namespace Session

/-- From one session to the other there is only traffic. -/
structure Flows (s s' : Session) : Prop where
  client : s'.client = s.client
  scheme : s'.scene.scheme = s.scene.scheme
  reaches : ∀ history waiting, ∃ history' waiting',
    Traffic.Reaches World.Step ⟨s.schedule.world history, waiting⟩
      ⟨s'.schedule.world history', waiting'⟩

theorem flows_refl (s : Session) : Flows s s :=
  ⟨rfl, rfl, fun history waiting => ⟨history, waiting, Relation.ReflTransGen.refl⟩⟩

theorem Flows.trans {a b c : Session} (hab : Flows a b) (hbc : Flows b c) : Flows a c := by
  refine ⟨hbc.client.trans hab.client, hbc.scheme.trans hab.scheme, ?_⟩
  intro history waiting
  rcases hab.reaches history waiting with ⟨history', waiting', hfirst⟩
  rcases hbc.reaches history' waiting' with ⟨history'', waiting'', hlast⟩
  exact ⟨history'', waiting'', hfirst.trans hlast⟩

theorem flows_of_unfolds {s s' : Session} (hclient : s'.client = s.client)
    (h : Schedule.Unfolds s.schedule s'.schedule) : Flows s s' := by
  refine ⟨hclient, h.scheme, ?_⟩
  intro history waiting
  rcases h.reaches history with ⟨history', hreach⟩
  exact ⟨history', waiting, Traffic.reaches_of_world hreach⟩

/-- The scene has changed, and no transaction has moved. -/
theorem flows_of_quiet {s : Session} {scene : Scene} (hscheme : scene.scheme = s.scene.scheme)
    (hquiet : s.scene.Quiet scene) : Flows s (s.withScene scene) := by
  refine ⟨rfl, hscheme, ?_⟩
  intro history waiting
  have hworld : (s.withScene scene).schedule.world history =
      { s.schedule.world history with scene := scene } := by
    have hschemes : (s.withScene scene).schedule.scene.scheme = s.schedule.scene.scheme := hscheme
    rw [Schedule.world, Schedule.world, hschemes]
    rfl
  refine ⟨history, waiting, Traffic.reaches_of_world (Relation.ReflTransGen.single ?_)⟩
  rw [hworld]
  exact World.Step.meanwhile hquiet

/-!
## Writes
-/

/-- The transactions that are started are those of a call. -/
theorem world_spawn (schedule : Schedule) (history : List Entry) (waiting : List Span)
    (tasks : List Task) :
    ⟨(schedule.spawn tasks).world history,
      waiting ++ [⟨schedule.tasks.length, schedule.tasks.length + tasks.length⟩]⟩ =
      Traffic.started ⟨schedule.world history, waiting⟩
        (tasks.map fun task => ⟨schedule.scene.scheme, task.run⟩) := by
  simp only [Schedule.spawn, Schedule.world, Traffic.started, Traffic.nextSpan, List.map_append,
    List.length_map]

theorem flows_spawn {s : Session} {tasks : List Task}
    (h : ∀ t : Traffic, t.world.scene = s.scene ->
      Traffic.Step World.Step t (t.started (tasks.map fun task => ⟨s.scene.scheme, task.run⟩))) :
    Flows s { s with schedule := s.schedule.spawn tasks } := by
  refine ⟨rfl, rfl, ?_⟩
  intro history waiting
  refine ⟨history, waiting ++ [⟨s.schedule.tasks.length, s.schedule.tasks.length + tasks.length⟩],
    Relation.ReflTransGen.single ?_⟩
  rw [world_spawn]
  exact h _ rfl

theorem flows_startMany {s : Session} (hscheme : s.scene.scheme = s.client.config.lockScheme)
    (ctx : Context) {keys : List Key} {values : List Value}
    (hcheck : Request.check keys values = .ok ()) :
    Flows s (s.startMany (s.client.bounded s.scene.now ctx) (s.client.pieces keys values)
      keys.length).1 := by
  have hcounted := tended_counted s.scene (s.client.bounded s.scene.now ctx).traceId keys.length
    (s.client.pieces keys values).length
  apply (flows_of_quiet hcounted.scheme hcounted.quiet).trans
  unfold startMany
  dsimp only
  apply flows_spawn
  intro t ht
  have hcalled : Traffic.Step World.Step t
      (t.started (t.writersOf s.client ctx keys values)) :=
    Traffic.Step.calledForMany s.client ctx hcheck
  rw [Traffic.writersOf, ht, ← hscheme] at hcalled
  rw [List.map_map]
  exact hcalled

theorem client_writeMany (s : Session) (ctx : Context) (keys : List Key) (values : List Value)
    (giveUp : Option Millis) : (s.writeMany ctx keys values giveUp).1.client = s.client := by
  unfold writeMany
  cases Request.check keys values with
  | error d => rfl
  | ok u =>
      dsimp only
      split
      · rfl
      · split <;> rfl

theorem client_writeOne (s : Session) (ctx : Context) (key : Key) (value : Value)
    (giveUp : Option Millis) : (s.writeOne ctx key value giveUp).1.client = s.client := by
  unfold writeOne
  cases Request.check [key] [value] with
  | error d => rfl
  | ok u =>
      dsimp only
      split <;> rfl

/-- A write of many keys, whether the client waits for its end or not. -/
theorem flows_writeMany {s : Session} (hscheme : s.scene.scheme = s.client.config.lockScheme)
    (ctx : Context) (keys : List Key) (values : List Value) (giveUp : Option Millis) :
    Flows s (s.writeMany ctx keys values giveUp).1 := by
  cases hcheck : Request.check keys values with
  | error d =>
      rw [writeMany, hcheck]
      exact s.flows_refl
  | ok u =>
      cases hkeys : keys.isEmpty with
      | true =>
          rw [writeMany, hcheck, hkeys]
          exact s.flows_refl
      | false =>
          have hstart := flows_startMany hscheme ctx hcheck
          have hclient := s.client_writeMany ctx keys values giveUp
          exact hstart.trans
            (flows_of_unfolds (hclient.trans hstart.client.symm)
              (advances_writeMany hcheck hkeys).unfolds)

theorem flows_writeOne {s : Session} (hscheme : s.scene.scheme = s.client.config.lockScheme)
    (ctx : Context) (key : Key) (value : Value) (giveUp : Option Millis) :
    Flows s (s.writeOne ctx key value giveUp).1 := by
  cases hcheck : Request.check [key] [value] with
  | error d =>
      rw [writeOne, hcheck]
      exact s.flows_refl
  | ok u =>
      have hspawn : Flows s { s with schedule := s.schedule.spawn [⟨.single,
          { ctx := s.client.bounded s.scene.now ctx, keys := [key], values := [value] }⟩] } := by
        apply flows_spawn
        intro t ht
        have hcalled : Traffic.Step World.Step t (t.started [Writer.single
            s.client.config.lockScheme (s.client.bounded t.world.scene.now ctx) key value]) :=
          Traffic.Step.calledForOne s.client ctx hcheck
        rw [ht, ← hscheme] at hcalled
        exact hcalled
      exact hspawn.trans
        (flows_of_unfolds (s.client_writeOne ctx key value giveUp)
          (advances_writeOne hcheck).unfolds)

/-!
## Other steps
-/

theorem flows_addContext (s : Session) (name : String) (traceId tenant : Option String)
    (timeout : Option Millis) (parent : Option Context) :
    Flows s (s.addContext name traceId tenant timeout parent) := by
  have hderived : ∀ derived : Context × Scene,
      derived.2.scheme = s.scene.scheme -> s.scene.Quiet derived.2 ->
        ∀ c, Flows s (s.withScene
          { derived.2 with contexts := derived.2.contexts.put name c }) := by
    intro derived hscheme hquiet c
    have hnamed : s.scene.Quiet
        { derived.2 with contexts := derived.2.contexts.put name c } :=
      hquiet.trans (Scene.quiet_of_eq rfl rfl (fun _ h => h) rfl rfl)
    exact flows_of_quiet hscheme hnamed
  have hreleased (s' : Session) (h : Flows s s') (before : Option Context) :
      Flows s { s' with schedule := (before.map s'.schedule.release).getD s'.schedule } := by
    cases before with
    | none => exact h
    | some c => exact h.trans (flows_of_unfolds rfl (s'.schedule.advances_release c).unfolds)
  unfold addContext
  cases parent with
  | none =>
      have hroot : s.scene.Quiet (s.scene.newRoot rootName).2 :=
        Scene.quiet_of_eq rfl rfl (fun _ h => h) rfl rfl
      exact hreleased _ (hderived (s.scene.newRoot rootName) rfl hroot _) _
  | some p =>
      exact hreleased _ (hderived (s.scene.deriveFrom p) rfl (s.scene.quiet_deriveFrom p) _) _

/-- Items are set or deleted past the transactions. -/
theorem flows_of_world_step {s : Session} {cache : Cache}
    (h : ∀ w : World, w.scene = s.scene -> ∃ history,
      w.Step { w with scene := { w.scene with cache := cache }, history := history }) :
    Flows s (s.withScene { s.scene with cache := cache }) := by
  refine ⟨rfl, rfl, ?_⟩
  intro history waiting
  rcases h (s.schedule.world history) rfl with ⟨history', hstep⟩
  exact ⟨history', waiting, Relation.ReflTransGen.single (Traffic.Step.within hstep)⟩

theorem flows_cacheSet (s : Session) (items : List CacheItem) :
    Flows s (s.withScene
      { s.scene with cache := s.scene.cache.afterSet s.scene.cacheNow items }) := by
  apply flows_of_world_step
  intro w hw
  rw [← hw]
  exact ⟨_, World.Step.stored items⟩

theorem flows_cacheDelete (s : Session) (slots : List String) :
    Flows s (s.withScene { s.scene with cache := s.scene.cache.eraseAll slots }) := by
  apply flows_of_world_step
  intro w hw
  rw [← hw]
  exact ⟨_, World.Step.erased slots⟩

theorem flows_afterRead (s : Session) (slot : String) :
    Flows s (s.withScene
      { s.scene with cache := s.scene.cache.afterRead s.scene.cacheNow slot }) :=
  flows_of_quiet rfl ⟨Nat.le_refl _, Nat.le_refl _, fun _ h => h,
    s.scene.cache.fades_afterRead s.scene.cacheNow slot, rfl⟩

/-- All steps but a transaction without a task. -/
theorem flows_take {s : Session} (hscheme : s.scene.scheme = s.client.config.lockScheme)
    {st : Step} (hst : ∀ ctx keys values giveUp, st ≠ .transact ctx keys values giveUp) :
    Flows s (s.take st).1 := by
  have hsame (scene : Scene) (hschemes : scene.scheme = s.scene.scheme)
      (hnow : scene.now = s.scene.now) (hcacheNow : scene.cacheNow = s.scene.cacheNow)
      (htokens : scene.tokens = s.scene.tokens) (hcache : scene.cache = s.scene.cache)
      (hjournal : scene.journal = s.scene.journal) : Flows s (s.withScene scene) := by
    apply flows_of_quiet hschemes
    apply Scene.quiet_of_eq hnow hcacheNow _ hcache (congrArg Journal.counters hjournal)
    intro t hmem
    rw [htokens]
    exact hmem
  cases st with
  | transact ctx keys values giveUp => exact absurd rfl (hst ctx keys values giveUp)
  | writeMany ctx keys values giveUp => exact flows_writeMany hscheme _ keys values giveUp
  | writeOne ctx key value giveUp => exact flows_writeOne hscheme _ key value giveUp
  | storePut keys values => exact hsame _ rfl rfl rfl rfl rfl rfl
  | storeGet key | storeInfo | cacheInfo | clientInfo => exact s.flows_refl
  | cacheSet items =>
      have hset := s.flows_cacheSet items
      unfold Cache.afterSet at hset
      unfold take
      dsimp only
      cases hall : s.scene.cache.setAll s.scene.cacheNow items with
      | ok cache =>
          rw [hall] at hset
          exact hset
      | error cache =>
          rw [hall] at hset
          exact hset
  | cacheDelete slots => exact s.flows_cacheDelete slots
  | cacheGet slot | cacheLocked slot => exact s.flows_afterRead slot
  | keyLocked key => exact s.flows_afterRead (s.scene.scheme.slot key)
  | cacheWait =>
      have hlater : s.scene.Quiet { s.scene with cacheNow := s.scene.cacheNow + cachePause } :=
        ⟨Nat.le_refl _, Nat.le_add_right _ _, fun _ h => h, s.scene.cache.fades_refl _, rfl⟩
      exact flows_of_quiet rfl hlater
  | storeRules rules => exact hsame _ rfl rfl rfl rfl rfl rfl
  | cacheRules rules => exact hsame _ rfl rfl rfl rfl rfl rfl
  | context name traceId tenant timeout parent => exact s.flows_addContext _ _ _ _ _
  | cancel ctx =>
      have hcancelled : Flows s (s.withScene (s.scene.cancelNamed ctx)) :=
        flows_of_quiet (s.scene.scheme_cancelNamed ctx) (s.scene.quiet_cancelNamed ctx)
      exact hcancelled.trans
        (flows_of_unfolds rfl (Schedule.advances_wakeReached _ none).unfolds)
  | advance duration => exact flows_of_unfolds rfl (s.schedule.advances_wait duration).unfolds

theorem flows_step {s : Session} (hscheme : s.scene.scheme = s.client.config.lockScheme)
    {st : Step} (hst : ∀ ctx keys values giveUp, st ≠ .transact ctx keys values giveUp) :
    Flows s (s.step st).1 := by
  have htaken := flows_take hscheme hst
  unfold step
  generalize s.take st = taken at htaken ⊢
  rcases taken with ⟨s', outcome⟩
  have hturned : s'.scene.Quiet { s'.scene with journal := s'.scene.journal.nextPage } :=
    Scene.quiet_of_eq rfl rfl (fun _ h => h) rfl rfl
  exact htaken.trans (flows_of_quiet rfl hturned)

/-- A whole session without bare transactions is traffic. -/
theorem flows_steps {s : Session} (hscheme : s.scene.scheme = s.client.config.lockScheme)
    {sts : List Step}
    (hsts : ∀ st ∈ sts, ∀ ctx keys values giveUp, st ≠ .transact ctx keys values giveUp) :
    Flows s (s.steps sts).1 := by
  induction sts generalizing s with
  | nil => exact s.flows_refl
  | cons st rest ih =>
      have hstep := flows_step hscheme (hsts st List.mem_cons_self)
      have hnext : (s.step st).1.scene.scheme = (s.step st).1.client.config.lockScheme := by
        rw [hstep.scheme, hstep.client, hscheme]
      have hrest := ih hnext fun st' hmem => hsts st' (List.mem_cons_of_mem st hmem)
      exact hstep.trans hrest

/-- After any steps of a client every transaction has done what its stage tells,
and the cache is what the deeds so far have made of the first one, however the
writes overlap and whether the client has waited for them or not. -/
theorem exists_sound_steps {s : Session} (htasks : s.schedule.tasks = [])
    (hscheme : s.scene.scheme = s.client.config.lockScheme) {sts : List Step}
    (hsts : ∀ st ∈ sts, ∀ ctx keys values giveUp, st ≠ .transact ctx keys values giveUp) :
    ∃ history, World.Sound s.scene.cache ((s.steps sts).1.schedule.world history) := by
  rcases (flows_steps hscheme hsts).reaches [] [] with ⟨history, waiting, hreach⟩
  have hfresh : (s.schedule.world []).Fresh := by
    refine ⟨rfl, ?_⟩
    rw [Schedule.world, htasks]
    intro writer hmem
    cases hmem
  refine ⟨history, hreach.induct (World.sound_of_fresh hfresh) ?_ ?_⟩
  · intro t writers hsound hincoming
    exact hsound.started hincoming
  · intro w w' hsound hstep
    exact hsound.step hstep

end Session
end Simulation
end WriteLatch
