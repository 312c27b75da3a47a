import WriteLatch.Proofs.Interleaving.Crews
import WriteLatch.Proofs.Interleaving.Dispatch
import WriteLatch.Proofs.Interleaving.Works

/-!
# Runs of a schedule

A move in a crew is a step in the world of its transactions, and tending the
scene is a quiet one.  So whatever a schedule does is one of the interleavings,
and what holds after every order of steps holds when a write returns.
-/

namespace WriteLatch
namespace Simulation

/-!
## The world of a crew
-/

/-- A move leaves the scheme of the locks alone. -/
theorem Run.scheme_move (run : Run) (scene : Scene) :
    (run.move scene).1.scheme = scene.scheme :=
  eq_of_move (f := Scene.scheme) (fun h => by rw [h.same]) Scene.scheme_cancelNamed (fun _ _ => rfl)
    run scene

namespace Crew

/-- The transactions of a crew, with a history. -/
def world (crew : Crew) (history : List Entry) : World :=
  { scene := crew.scene
    writers := crew.runs.map (Writer.mk crew.scene.scheme)
    history := history }

variable {crew crew' : Crew}

theorem Goes.scheme (h : Goes crew crew') : crew'.scene.scheme = crew.scene.scheme := by
  cases h with
  | @moved i run hrun => exact run.scheme_move crew.scene
  | tended htended => exact htended.scheme

theorem Goes.exists_step (h : Goes crew crew') (history : List Entry) :
    ∃ history', World.OwnStep (crew.world history) (crew'.world history') := by
  cases h with
  | @moved i run hrun =>
      have hwriter : (crew.world history).writers[i]? = some ⟨crew.scene.scheme, run⟩ := by
        rw [world, List.getElem?_map, hrun, Option.map_some]
      have hscheme : (run.move crew.scene).1.scheme = crew.scene.scheme :=
        run.scheme_move crew.scene
      have hstep := World.OwnStep.moved hwriter
      simp only [world, List.map_set, hscheme]
      exact ⟨_, hstep⟩
  | tended htended =>
      have hscheme := htended.scheme
      simp only [world, hscheme]
      exact ⟨history, World.OwnStep.meanwhile htended.quiet htended.journal.calls⟩

theorem Reaches.scheme (h : Reaches crew crew') : crew'.scene.scheme = crew.scene.scheme := by
  induction h with
  | refl => rfl
  | tail hreach hstep ih => exact hstep.scheme.trans ih

theorem Reaches.exists_moves (h : Reaches crew crew') (history : List Entry) :
    ∃ history', Relation.ReflTransGen World.OwnStep (crew.world history)
      (crew'.world history') := by
  induction h with
  | refl => exact ⟨history, Relation.ReflTransGen.refl⟩
  | tail hreach hstep ih =>
      rcases ih with ⟨between, hbetween⟩
      rcases hstep.exists_step between with ⟨history', hlast⟩
      exact ⟨history', hbetween.tail hlast⟩

end Crew

/-!
## The world of a schedule
-/

namespace Schedule

/-- The transactions on the tasks of a schedule, with a history. -/
def world (s : Schedule) (history : List Entry) : World :=
  { scene := s.scene
    writers := s.tasks.map fun task => ⟨s.scene.scheme, task.run⟩
    history := history }

/-- What leads from one schedule to the other is an interleaving of the moves of
its transactions. -/
structure Unfolds (s s' : Schedule) : Prop where
  scheme : s'.scene.scheme = s.scene.scheme
  moves : ∀ history, ∃ history',
    Relation.ReflTransGen World.OwnStep (s.world history) (s'.world history')

theorem Unfolds.reaches {s s' : Schedule} (h : Unfolds s s') (history : List Entry) :
    ∃ history', World.Reaches (s.world history) (s'.world history') := by
  rcases h.moves history with ⟨history', hmoves⟩
  exact ⟨history', World.reaches_of_own hmoves⟩

theorem world_crew (s : Schedule) (history : List Entry) :
    (s.crew []).world history = s.world history := by
  rw [Crew.world, world, crew, List.append_nil, List.map_map]
  rfl

theorem Advances.unfolds {s s' : Schedule} (h : Advances s s') : Unfolds s s' := by
  refine ⟨(h []).scheme, ?_⟩
  intro history
  rcases (h []).exists_moves history with ⟨history', hmoves⟩
  rw [world_crew, world_crew] at hmoves
  exact ⟨history', hmoves⟩

end Schedule

/-!
## Writes
-/

namespace Session

/-- The tasks that are started are the transactions of the request. -/
theorem step_startMany {s : Session} (htasks : s.schedule.tasks = [])
    (hscheme : s.scene.scheme = s.client.config.lockScheme) (ctx : Context) (keys : List Key)
    (values : List Value) :
    World.OwnStep (World.dispatched s.client s.scene ctx keys values)
      ((s.startMany (s.client.bounded s.scene.now ctx) (s.client.pieces keys values)
        keys.length).1.schedule.world []) := by
  have hworld : (s.startMany (s.client.bounded s.scene.now ctx) (s.client.pieces keys values)
      keys.length).1.schedule.world [] =
        { World.dispatched s.client s.scene ctx keys values with
          scene := ((s.scene.event (.writing (s.client.bounded s.scene.now ctx).traceId keys.length
            (s.client.pieces keys values).length)).count .keys keys.length).count .pieces
              (s.client.pieces keys values).length } := by
    simp only [startMany, withScene, Schedule.world, Schedule.spawn, htasks, List.nil_append,
      List.map_map, World.dispatched, ← hscheme]
    rfl
  rw [hworld]
  have hcounted := tended_counted s.scene (s.client.bounded s.scene.now ctx).traceId keys.length
    (s.client.pieces keys values).length
  exact World.OwnStep.meanwhile hcounted.quiet hcounted.journal.calls

end Session
end Simulation
end WriteLatch
