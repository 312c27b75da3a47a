import WriteLatch.Proofs.Interleaving.Answers
import WriteLatch.Proofs.Interleaving.Progress
import WriteLatch.Proofs.Interleaving.Schedules

/-!
# What a write returns

Whoever waits for a request is given its outcome once all of its transactions
have ended.  The outcome is put together from their ends, taken by position.
-/

namespace WriteLatch

/-- What a request comes to by the ends of its pieces. -/
def Client.outcomeOf (c : Client) (keys : List Key) (values : List Value)
    (ends : List Client.TaskEnd) : Except WriteFailure (List Key) :=
  Client.merged ((c.pieces keys values).map Client.Piece.span) ends

namespace Simulation

namespace World

/-- What a request comes to in a world, once all of its transactions have
ended. -/
def outcome? (w : World) (client : Client) (keys : List Key) (values : List Value) :
    Option (Except WriteFailure (List Key)) :=
  w.ends?.map (client.outcomeOf keys values)

/-- How the transaction at a position has ended, if it has. -/
def endAt? (w : World) (i : Nat) : Option Client.TaskEnd :=
  w.writers[i]?.bind fun writer => writer.run.end?

theorem endAt?_of_ends? {w : World} {ends : List Client.TaskEnd} (h : w.ends? = some ends)
    (i : Nat) : w.endAt? i = ends[i]? := by
  have hat := getElem?_of_ends? h i
  rw [endAt?]
  cases hwriter : w.writers[i]? with
  | none =>
      rw [hwriter] at hat
      cases he : ends[i]? with
      | none => rfl
      | some e =>
          rw [he] at hat
          cases hat
  | some writer =>
      rw [hwriter] at hat
      cases he : ends[i]? with
      | none =>
          rw [he] at hat
          cases hat
      | some e =>
          rw [he, Option.map_some, Option.map_some, Option.some.injEq] at hat
          exact hat

theorem length_writers_of_step {w w' : World} (h : Step w w') :
    w'.writers.length = w.writers.length := by
  cases h with
  | moved hwriter => exact List.length_set
  | stored items | erased slots | meanwhile hquiet => rfl

theorem Reaches.length_writers {w w' : World} (h : Reaches w w') :
    w'.writers.length = w.writers.length := by
  induction h with
  | refl => rfl
  | tail hreach hstep ih => exact (length_writers_of_step hstep).trans ih

theorem length_writers_dispatched (client : Client) (scene : Scene) (ctx : Context)
    (keys : List Key) (values : List Value) :
    (dispatched client scene ctx keys values).writers.length =
      (client.pieces keys values).length :=
  List.length_map _

/-- There is one end for each piece of the request. -/
theorem Reaches.length_ends {client : Client} {scene : Scene} {ctx : Context} {keys : List Key}
    {values : List Value} {w : World} {ends : List Client.TaskEnd}
    (h : Reaches (dispatched client scene ctx keys values) w) (hends : w.ends? = some ends) :
    ends.length = (client.pieces keys values).length := by
  have hall := congrArg List.length (mapM_eq_some_iff.mp hends)
  rw [List.length_map, List.length_map, h.length_writers, length_writers_dispatched] at hall
  exact hall.symm

end World

/-!
## Waiting
-/

namespace Schedule

/-- A wait that is over has been found so by its last look. -/
theorem exists_look_of_waitFor {σ α : Type} {look : σ -> Schedule -> Schedule × σ × Look α}
    {fuel : Nat} {state : σ} {s : Schedule} {a : α}
    (h : (waitFor look fuel state s).2.2 = some a) :
    ∃ (state' state'' : σ) (s' : Schedule),
      look state' s' = ((waitFor look fuel state s).1, state'', .over a) := by
  induction fuel generalizing state s with
  | zero => cases h
  | succ fuel ih =>
      unfold waitFor at h ⊢
      rcases hlook : look state s with ⟨s', state', stands⟩
      rw [hlook] at h
      rcases stands with a' | _ | alarm
      · cases h
        exact ⟨state, state', s, hlook⟩
      · exact ih h
      · dsimp only at h ⊢
        cases hgoOn : s'.goOn? alarm with
        | none =>
            rw [hgoOn] at h
            cases h
        | some next =>
            rw [hgoOn] at h
            exact ih h

/-- Who has waited for tasks to the end is given their ends. -/
theorem ends?_of_await {s : Schedule} {span : Span} {giveUp : Option Millis}
    {ends : List Client.TaskEnd} (h : (s.await span giveUp).2 = some ends) :
    (s.await span giveUp).1.ends? span = some ends := by
  unfold await at h ⊢
  dsimp only at h ⊢
  have hover := Option.join_eq_some_iff.mp h
  rcases exists_look_of_waitFor hover with ⟨counted, counted', s', hlook⟩
  generalize (waitFor (lookAtTasks span giveUp) (s.patience []) 0 s).1 = last at hlook ⊢
  unfold lookAtTasks at hlook
  split at hlook
  · cases hlook
  · dsimp only at hlook
    split at hlook
    · rename_i found hfound
      cases hlook
      exact hfound
    · split at hlook <;> cases hlook

theorem ends?_world {s : Schedule} {ends : List Client.TaskEnd}
    (h : s.ends? ⟨0, s.tasks.length⟩ = some ends) (history : List Entry) :
    (s.world history).ends? = some ends := by
  have hall : Span.slice ⟨0, s.tasks.length⟩ s.tasks = s.tasks := List.take_length
  rw [ends?, hall] at h
  rw [World.ends?, world]
  apply mapM_eq_some_iff.mpr
  rw [List.map_map]
  exact mapM_eq_some_iff.mp h

end Schedule

namespace Session

/-- A world in which the transactions of a write have come to what it returns, by
steps of their own.  What the write still does then is quiet. -/
structure Ended (s s' : Session) (ctx : Context) (keys : List Key) (values : List Value)
    (result : Except WriteFailure (List Key)) (w : World) : Prop where
  moves : Relation.ReflTransGen World.OwnStep
    (World.dispatched s.client s.scene ctx keys values) w
  outcome : w.outcome? s.client keys values = some result
  quiet : w.scene.Quiet s'.scene
  calls : s'.scene.journal.calls = w.scene.journal.calls

section Returned

variable {s : Session} {ctx : Context} {keys : List Key} {values : List Value}
  {giveUp : Option Millis} {result : Except WriteFailure (List Key)}

/-- A request without keys is written as it is dispatched. -/
theorem ended_of_isEmpty (hcheck : Request.check keys values = .ok ())
    (hkeys : keys.isEmpty = true)
    (h : (s.writeMany ctx keys values giveUp).2 = .written result) :
    Ended s (s.writeMany ctx keys values giveUp).1 ctx keys values result
      (World.dispatched s.client s.scene ctx keys values) := by
  rw [writeMany, hcheck, hkeys] at h ⊢
  cases h
  have hnone : s.client.pieces [] values = [] := by
    rw [Client.pieces, List.length_nil, Span.split_zero]
    rfl
  have hends : (World.dispatched s.client s.scene ctx [] values).ends? = some [] := by
    rw [World.ends?, World.dispatched, hnone]
    rfl
  have hmerged : s.client.outcomeOf [] values [] = .ok [] := by
    rw [Client.outcomeOf, hnone]
    rfl
  refine ⟨Relation.ReflTransGen.refl, ?_, s.scene.quiet_refl, rfl⟩
  rw [List.isEmpty_iff.mp hkeys, World.outcome?, hends, Option.map_some, hmerged]

variable (htasks : s.schedule.tasks = []) (hscheme : s.scene.scheme = s.client.config.lockScheme)
  (hcheck : Request.check keys values = .ok ())
  (h : (s.writeMany ctx keys values giveUp).2 = .written result)
include htasks hscheme hcheck h

theorem exists_ended_of_not_isEmpty (hkeys : keys.isEmpty = false) :
    ∃ w, Ended s (s.writeMany ctx keys values giveUp).1 ctx keys values result w := by
  have hstart := step_startMany htasks hscheme ctx keys values
  have hspan : (s.startMany (s.client.bounded s.scene.now ctx) (s.client.pieces keys values)
      keys.length).2 = ⟨0, (s.client.pieces keys values).length⟩ := by
    rw [startMany, Schedule.nextSpan]
    simp only [withScene, htasks, List.length_nil, Nat.zero_add]
  unfold writeMany at h ⊢
  simp only [hcheck, hkeys, Bool.false_eq_true, if_false] at h ⊢
  generalize s.startMany _ (s.client.pieces keys values) keys.length = started
    at h hspan hstart ⊢
  rcases started with ⟨s', span⟩
  dsimp only at h hspan hstart ⊢
  have hends (ends : List Client.TaskEnd)
      (hgiven : (s'.schedule.await span (s.giveUpAt giveUp)).2 = some ends) :
      (s'.schedule.await span (s.giveUpAt giveUp)).1.ends? span = some ends :=
    Schedule.ends?_of_await hgiven
  have hlength : (s'.schedule.await span (s.giveUpAt giveUp)).1.tasks.length =
      (s.client.pieces keys values).length := by
    have hwriters := World.length_writers_of_step hstart.step
    rw [World.length_writers_dispatched, Schedule.world, List.length_map] at hwriters
    rw [(s'.schedule.advances_await span _).length_tasks, hwriters]
  rcases (s'.schedule.advances_await span (s.giveUpAt giveUp)).unfolds.moves [] with ⟨history, hmoves⟩
  generalize s'.schedule.await span (s.giveUpAt giveUp) = awaited at h hends hlength hmoves ⊢
  rcases awaited with ⟨schedule, ends⟩
  cases ends with
  | none => cases h
  | some ends =>
      have hall := hends ends rfl
      rw [hspan, ← hlength] at hall
      have hfinished := tended_finishMany ⟨s'.client, schedule⟩
        ((s.client.pieces keys values).map Client.Piece.span) ends
      refine ⟨_, Relation.ReflTransGen.head hstart hmoves, ?_, hfinished.quiet,
        hfinished.journal.calls⟩
      rw [World.outcome?, Schedule.ends?_world hall]
      cases h
      rfl

theorem exists_ended_of_writeMany :
    ∃ w, Ended s (s.writeMany ctx keys values giveUp).1 ctx keys values result w := by
  cases hkeys : keys.isEmpty with
  | true => exact ⟨_, ended_of_isEmpty hcheck hkeys h⟩
  | false => exact exists_ended_of_not_isEmpty htasks hscheme hcheck h hkeys

end Returned

end Session
end Simulation
end WriteLatch
