import WriteLatch.Proofs.Interleaving.Deeds

/-!
# What a move makes of a call

A call that is due begins, pauses and goes on, and ends with an answer or by the
end of its context.  All three calls of a transaction go this way, each with the
faults of its own collaborator.  Only a call of the store that is carried out
changes the store.
-/

namespace WriteLatch
namespace Simulation

/-!
## One call
-/

section Calls

variable {ε : Type} (scene : Scene) (c : Context)

/-- A call under a context, whose faults are given, goes on for another move. -/
inductive GoesOn (beats : List (Beat ε)) : Progress ε -> Progress ε -> Prop where
  | begins (h : scene.interruption? c = none) : GoesOn beats .notBegun (.serving beats)
  | pauses {left rest : List (Beat ε)} {resume : Millis}
      (h : (scene.serve left).2 = .paused resume rest ∨
        (scene.serve left).2 = .gaveWay resume rest) :
      GoesOn beats (.serving left) (.paused resume rest)
  | resumes (resume : Millis) (rest : List (Beat ε)) (h : scene.interruption? c = none) :
      GoesOn beats (.paused resume rest) (.serving rest)

/-- A call under a context ends with an answer. -/
inductive Ends : Progress ε -> Answer (Except ε Unit) -> Prop where
  | interrupted {call : Progress ε} {i : Interruption} (hcall : call.isServed = false)
      (h : scene.interruption? c = some i) : Ends call (.interrupted i)
  | failed {beats : List (Beat ε)} {e : ε} (h : (scene.serve beats).2 = .failed e) :
      Ends (.serving beats) (.returned (.error e))
  | completed {beats : List (Beat ε)} (h : (scene.serve beats).2 = .completed) :
      Ends (.serving beats) (.returned (.ok ()))

end Calls

namespace Run

variable (run : Run) (scene : Scene)

/-- What the store answers when a call has ended so. -/
def storeAnswer (rules : List StoreRule) : Answer (Except Failure Unit) -> StoreAnswer
  | .interrupted i => .interrupted i
  | .returned (.error f) => .returned (Transaction.wholesale f)
  | .returned (.ok ()) =>
      .returned (answerAfter rules run.keys (scene.store.putAll run.keys run.values).1)

def storeAfter : Answer (Except Failure Unit) -> Store
  | .interrupted _ => scene.store
  | .returned (.error _) => scene.store
  | .returned (.ok ()) => (scene.store.putAll run.keys run.values).2

end Run

/-- What a move makes of the stage of a transaction and of the store. -/
inductive Turns (run : Run) (scene : Scene) : Stage -> Store -> Stage -> Prop where
  | rests (stage : Stage) : Turns run scene stage scene.store stage
  | opened {answer : Except (List String) Context}
      (h : scene.faults.cache.context.fail = none -> ∃ c, answer = .ok c) :
      Turns run scene .opening scene.store (.ofPhase (Transaction.opened answer))
  | setGoesOn {c : Context} {call call' : Progress (List String)}
      (h : GoesOn scene c scene.faults.cache.set.beats call call') :
      Turns run scene (.locking c call) scene.store (.locking c call')
  | setEnded {c : Context} {call : Progress (List String)} {answer : CacheAnswer}
      (h : Ends scene c call answer) :
      Turns run scene (.locking c call) scene.store (.ofPhase (Transaction.locked c answer))
  | setCrashed (c : Context) (beats : List (Beat (List String))) (message : String) :
      Turns run scene (.locking c (.serving beats)) scene.store (.ended (.crashed message))
  | putGoesOn {c : Context} {rules rules' : List StoreRule} {call call' : Progress Failure}
      (hrules : rules' = rules ∨ (call = .notBegun ∧ rules' = scene.faults.storeRules run.keys))
      (h : GoesOn scene run.ctx (scene.faults.storeBeats run.keys) call call') :
      Turns run scene (.writing c rules call) scene.store (.writing c rules' call')
  | putEnded {c : Context} {rules : List StoreRule} {call : Progress Failure}
      {answer : Answer (Except Failure Unit)} (h : Ends scene run.ctx call answer) :
      Turns run scene (.writing c rules call) (run.storeAfter scene answer)
        (.ofPhase (Transaction.written c (run.storeAnswer scene rules answer)))
  | putCrashed (c : Context) (rules : List StoreRule) (beats : List (Beat Failure))
      (message : String) :
      Turns run scene (.writing c rules (.serving beats)) scene.store (.ended (.crashed message))
  | deleteGoesOn {c : Context} {result : CallResult} {call call' : Progress (List String)}
      (h : GoesOn scene c scene.faults.cache.delete.beats call call') :
      Turns run scene (.releasing c result call) scene.store (.releasing c result call')
  | deleteEnded {c : Context} {result : CallResult} {call : Progress (List String)}
      {answer : CacheAnswer} (h : Ends scene c call answer) :
      Turns run scene (.releasing c result call) scene.store
        (.ofPhase (Transaction.released result answer))
  | deleteCrashed (c : Context) (result : CallResult) (beats : List (Beat (List String)))
      (message : String) :
      Turns run scene (.releasing c result (.serving beats)) scene.store
        (.ended (.crashed message))

theorem eq_of_turns_ended {run : Run} {scene : Scene} {e : Client.TaskEnd} {store : Store}
    {stage : Stage} (h : Turns run scene (.ended e) store stage) : stage = .ended e := by
  cases h with
  | rests stage => rfl

/-!
## What leaves the store alone
-/

namespace Scene

variable (scene : Scene)

theorem store_cancelNamed (name : String) : (scene.cancelNamed name).store = scene.store := by
  unfold cancelNamed
  cases scene.contexts.lookup name <;> rfl

theorem store_noteInterruption (i : Interruption) :
    (scene.noteInterruption i).store = scene.store := by
  cases i <;> rfl

theorem store_report (ctx : Context) (causes : List String) :
    (scene.report ctx causes).store = scene.store := by
  unfold report
  cases scene.reporting <;> rfl

theorem store_lookForLocks (keys : List Key) : (scene.lookForLocks keys).2.store = scene.store :=
  eq_of_lookForLocks (fun _ _ => rfl) scene keys

theorem faults_lookForLocks (keys : List Key) :
    (scene.lookForLocks keys).2.faults = scene.faults :=
  eq_of_lookForLocks (fun _ _ => rfl) scene keys

theorem store_serve {ε : Type} (beats : List (Beat ε)) :
    (scene.serve beats).1.store = scene.store :=
  eq_of_serve store_cancelNamed (fun _ => rfl) scene beats

end Scene

namespace Run

variable {run : Run} {scene : Scene}

theorem store_openContext (run : Run) (scene : Scene) :
    (run.openContext scene).1.store = scene.store :=
  eq_of_openContext (f := Scene.store) Scene.store_cancelNamed (fun _ _ => rfl) run scene

theorem store_releaseAnswered (run : Run) (scene : Scene) (result : CallResult)
    (answer : CacheAnswer) : (run.releaseAnswered scene result answer).1.store = scene.store := by
  unfold releaseAnswered
  cases Transaction.releaseCauses? answer with
  | none => rfl
  | some causes => exact Scene.store_report _ run.ctx causes

/-!
## One move
-/

theorem turns_opening (run : Run) (scene : Scene) :
    Turns run scene .opening (run.openContext scene).1.store (run.openContext scene).2.stage := by
  rw [run.store_openContext scene]
  rcases run.openContext_spec scene with ⟨answer, hnext, _, _⟩
  rw [hnext]
  apply Turns.opened
  intro hgives
  -- The rule of the scene in which the context was asked for is the same one.
  have hopened : ∃ c, (run.openContext scene).2 = run.inPhase (Transaction.opened (.ok c)) := by
    unfold openContext
    dsimp only
    have hfail : (scene.call CollaboratorCall.newContext).faults.cache.context.fail = none := hgives
    rw [hfail]
    exact ⟨_, rfl⟩
  rcases hopened with ⟨c, hopened⟩
  rw [hnext] at hopened
  cases answer with
  | ok c' => exact ⟨c', rfl⟩
  | error causes => cases congrArg Run.stage hopened

theorem turns_setLocks {c : Context} {beats : List (Beat (List String))} {mid : Scene}
    (hstore : mid.store = scene.store) (hserved : (scene.serve beats).2 = .completed) :
    Turns run scene (.locking c (.serving beats)) (run.setLocks mid c).1.store
      (run.setLocks mid c).2.stage := by
  unfold setLocks
  cases mid.cache.setAll mid.cacheNow (run.lockItems mid) with
  | ok cache =>
      dsimp only [Scene.event]
      rw [hstore]
      exact Turns.setEnded (Ends.completed hserved)
  | error cache =>
      dsimp only
      rw [hstore]
      exact Turns.setCrashed c beats _

theorem turns_locking {c : Context} {call : Progress (List String)}
    (hstage : run.stage = .locking c call) :
    Turns run scene (.locking c call) (run.advance scene).1.store
      (run.advance scene).2.1.stage := by
  cases call with
  | notBegun =>
      cases hover : scene.interruption? c with
      | some i =>
          simp only [advance, hstage, hover]
          exact Turns.setEnded (Ends.interrupted rfl hover)
      | none =>
          simp only [advance, hstage, hover]
          by_cases hspent : scene.allowance = 0
          · simp only [hspent, if_true, hstage]
            exact Turns.rests _
          · simp only [hspent, if_false]
            exact Turns.setGoesOn (GoesOn.begins hover)
  | serving beats =>
      have hstore := scene.store_serve beats
      cases hserve : scene.serve beats with
      | mk mid served =>
          rw [hserve] at hstore
          have hserved : (scene.serve beats).2 = served := congrArg Prod.snd hserve
          dsimp only at hstore
          simp only [advance, hstage, hserve]
          cases served with
          | completed =>
              exact turns_setLocks hstore hserved
          | paused resume rest =>
              rw [hstore]
              exact Turns.setGoesOn (GoesOn.pauses (Or.inl hserved))
          | gaveWay resume rest =>
              rw [hstore]
              exact Turns.setGoesOn (GoesOn.pauses (Or.inr hserved))
          | crashed message =>
              rw [hstore]
              exact Turns.setCrashed c beats message
          | failed causes =>
              rw [hstore]
              exact Turns.setEnded (Ends.failed hserved)
  | paused resume rest =>
      cases hover : scene.interruption? c with
      | some i =>
          simp only [advance, hstage, hover]
          rw [scene.store_noteInterruption i]
          exact Turns.setEnded (Ends.interrupted rfl hover)
      | none =>
          simp only [advance, hstage, hover]
          by_cases hdue : resume <= scene.now
          · simp only [hdue, if_true]
            exact Turns.setGoesOn (GoesOn.resumes resume rest hover)
          · simp only [hdue, if_false, hstage]
            exact Turns.rests _

theorem turns_writing {c : Context} {rules : List StoreRule} {call : Progress Failure}
    (hstage : run.stage = .writing c rules call) :
    Turns run scene (.writing c rules call) (run.advance scene).1.store
      (run.advance scene).2.1.stage := by
  cases call with
  | notBegun =>
      cases hover : scene.interruption? run.ctx with
      | some i =>
          simp only [advance, hstage, hover]
          exact Turns.putEnded (Ends.interrupted rfl hover)
      | none =>
          simp only [advance, hstage, hover]
          by_cases hspent : scene.allowance = 0
          · simp only [hspent, if_true, hstage]
            exact Turns.rests _
          · simp only [hspent, if_false]
            have hgoesOn : Turns run scene (.writing c rules .notBegun) scene.store
                (.writing c (scene.faults.storeRules run.keys)
                  (.serving (scene.faults.storeBeats run.keys))) :=
              Turns.putGoesOn (Or.inr ⟨rfl, rfl⟩) (GoesOn.begins hover)
            rw [← scene.store_lookForLocks run.keys] at hgoesOn
            have hfaults := scene.faults_lookForLocks run.keys
            generalize scene.lookForLocks run.keys = looked at hgoesOn hfaults ⊢
            rw [← hfaults] at hgoesOn
            exact hgoesOn
  | serving beats =>
      have hstore := scene.store_serve beats
      cases hserve : scene.serve beats with
      | mk mid served =>
          rw [hserve] at hstore
          have hserved : (scene.serve beats).2 = served := congrArg Prod.snd hserve
          dsimp only at hstore
          simp only [advance, hstage, hserve]
          cases served with
          | completed =>
              have hended : Turns run scene (.writing c rules (.serving beats))
                  (run.storeAfter scene (.returned (.ok ())))
                  (.ofPhase (Transaction.written c
                    (run.storeAnswer scene rules (.returned (.ok ()))))) :=
                Turns.putEnded (Ends.completed hserved)
              rw [storeAfter, storeAnswer, ← hstore] at hended
              exact hended
          | paused resume rest =>
              rw [hstore]
              exact Turns.putGoesOn (Or.inl rfl) (GoesOn.pauses (Or.inl hserved))
          | gaveWay resume rest =>
              rw [hstore]
              exact Turns.putGoesOn (Or.inl rfl) (GoesOn.pauses (Or.inr hserved))
          | crashed message =>
              rw [hstore]
              exact Turns.putCrashed c rules beats message
          | failed f =>
              have hended : Turns run scene (.writing c rules (.serving beats))
                  (run.storeAfter scene (.returned (.error f)))
                  (.ofPhase (Transaction.written c
                    (run.storeAnswer scene rules (.returned (.error f))))) :=
                Turns.putEnded (Ends.failed hserved)
              rw [storeAfter, storeAnswer, ← hstore] at hended
              exact hended
  | paused resume rest =>
      cases hover : scene.interruption? run.ctx with
      | some i =>
          simp only [advance, hstage, hover]
          rw [scene.store_noteInterruption i]
          exact Turns.putEnded (Ends.interrupted rfl hover)
      | none =>
          simp only [advance, hstage, hover]
          by_cases hdue : resume <= scene.now
          · simp only [hdue, if_true]
            exact Turns.putGoesOn (Or.inl rfl) (GoesOn.resumes resume rest hover)
          · simp only [hdue, if_false, hstage]
            exact Turns.rests _

theorem turns_releasing {c : Context} {result : CallResult} {call : Progress (List String)}
    (hstage : run.stage = .releasing c result call) :
    Turns run scene (.releasing c result call) (run.advance scene).1.store
      (run.advance scene).2.1.stage := by
  cases call with
  | notBegun =>
      cases hover : scene.interruption? c with
      | some i =>
          simp only [advance, hstage, hover, store_releaseAnswered]
          exact Turns.deleteEnded (Ends.interrupted rfl hover)
      | none =>
          simp only [advance, hstage, hover]
          by_cases hspent : scene.allowance = 0
          · simp only [hspent, if_true, hstage]
            exact Turns.rests _
          · simp only [hspent, if_false]
            exact Turns.deleteGoesOn (GoesOn.begins hover)
  | serving beats =>
      have hstore := scene.store_serve beats
      cases hserve : scene.serve beats with
      | mk mid served =>
          rw [hserve] at hstore
          have hserved : (scene.serve beats).2 = served := congrArg Prod.snd hserve
          dsimp only at hstore
          simp only [advance, hstage, hserve]
          cases served with
          | completed =>
              simp only [deleteLocks, store_releaseAnswered, hstore]
              exact Turns.deleteEnded (Ends.completed hserved)
          | paused resume rest =>
              rw [hstore]
              exact Turns.deleteGoesOn (GoesOn.pauses (Or.inl hserved))
          | gaveWay resume rest =>
              rw [hstore]
              exact Turns.deleteGoesOn (GoesOn.pauses (Or.inr hserved))
          | crashed message =>
              rw [hstore]
              exact Turns.deleteCrashed c result beats message
          | failed causes =>
              simp only [store_releaseAnswered, hstore]
              exact Turns.deleteEnded (Ends.failed hserved)
  | paused resume rest =>
      cases hover : scene.interruption? c with
      | some i =>
          simp only [advance, hstage, hover, store_releaseAnswered, Scene.store_noteInterruption]
          exact Turns.deleteEnded (Ends.interrupted rfl hover)
      | none =>
          simp only [advance, hstage, hover]
          by_cases hdue : resume <= scene.now
          · simp only [hdue, if_true]
            exact Turns.deleteGoesOn (GoesOn.resumes resume rest hover)
          · simp only [hdue, if_false, hstage]
            exact Turns.rests _

theorem turns_advance (run : Run) (scene : Scene) :
    Turns run scene run.stage (run.advance scene).1.store (run.advance scene).2.1.stage := by
  cases hstage : run.stage with
  | opening =>
      simp only [advance, hstage]
      exact run.turns_opening scene
  | locking c call => exact turns_locking hstage
  | writing c rules call => exact turns_writing hstage
  | releasing c result call => exact turns_releasing hstage
  | ended e =>
      simp only [advance, hstage]
      exact Turns.rests _

theorem turns_move (run : Run) (scene : Scene) :
    Turns run scene run.stage (run.move scene).1.store (run.move scene).2.1.stage := by
  rcases run.exists_move_eq scene with ⟨lineage, hmove⟩
  rw [hmove]
  exact run.turns_advance scene

end Run
end Simulation
end WriteLatch
