import WriteLatch.Proofs.Interleaving.Readers

/-!
# Where a result comes from

A transaction returns what the store has answered to its call, or the failure
that kept the call from returning.  The store is changed by nothing but a call
that it carries out, and then the transaction has its result.
-/

namespace WriteLatch
namespace Simulation

namespace Turns

variable {run : Run} {scene : Scene} {stage stage' : Stage} {store : Store}

/-- A result has stood before, or it is a failure and the store was not touched,
or the store has just carried out the call. -/
theorem result?_cases (h : Turns run scene stage store stage') {result : CallResult}
    (hresult : stage'.result? = some result) :
    (stage.result? = some result ∧ store = scene.store) ∨
      (stage.result? = none ∧ store = scene.store ∧ ∃ f, result = Transaction.wholesale f) ∨
      ∃ c rules beats, stage = .writing c rules (.serving beats) ∧
        (scene.serve beats).2 = .completed ∧
        store = (scene.store.putAll run.keys run.values).2 ∧
        result = answerAfter rules run.keys (scene.store.putAll run.keys run.values).1 := by
  have hfailed {stage : Stage} (f : Failure) (hnone : stage.result? = none)
      (heq : some (Transaction.wholesale f) = some result) :
      stage.result? = none ∧ scene.store = scene.store ∧
        ∃ f, result = Transaction.wholesale f :=
    ⟨hnone, rfl, f, (Option.some.inj heq).symm⟩
  cases h with
  | rests stage => exact Or.inl ⟨hresult, rfl⟩
  | @opened answer hanswer =>
      cases answer with
      | ok c => cases hresult
      | error causes => exact Or.inr (Or.inl (hfailed _ rfl hresult))
  | @setEnded c call answer hended =>
      cases hended with
      | interrupted hcall hover => exact Or.inr (Or.inl (hfailed _ rfl hresult))
      | failed hserved => exact Or.inr (Or.inl (hfailed _ rfl hresult))
      | completed hserved => cases hresult
  | @putEnded c rules call answer hended =>
      cases hended with
      | interrupted hcall hover => exact Or.inr (Or.inl (hfailed _ rfl hresult))
      | failed hserved => exact Or.inr (Or.inl (hfailed _ rfl hresult))
      | completed hserved =>
          exact Or.inr (Or.inr ⟨c, rules, _, rfl, hserved, rfl, (Option.some.inj hresult).symm⟩)
  | deleteGoesOn hcall => exact Or.inl ⟨hresult, rfl⟩
  | deleteEnded hended => exact Or.inl ⟨hresult, rfl⟩
  | setGoesOn hcall | setCrashed c beats message | putGoesOn hrules hcall
  | putCrashed c rules beats message | deleteCrashed c result beats message => cases hresult

/-- Without a result of the transaction the store is as it was, and no result is
lost but by a crash. -/
theorem result?_eq_none (h : Turns run scene stage store stage') (hresult : stage'.result? = none) :
    store = scene.store ∧ (stage.result? = none ∨ ∃ message, stage' = .ended (.crashed message)) := by
  cases h with
  | rests stage => exact ⟨rfl, Or.inl hresult⟩
  | @putEnded c rules call answer hended =>
      rcases hanswer : run.storeAnswer scene rules answer with i | result <;>
        rw [hanswer] at hresult <;> cases hresult
  | deleteGoesOn hcall => cases hresult
  | deleteEnded hended => cases hresult
  | deleteCrashed c result beats message => exact ⟨rfl, Or.inr ⟨message, rfl⟩⟩
  | opened hanswer | setGoesOn hcall | setEnded hended | setCrashed c beats message
  | putGoesOn hrules hcall | putCrashed c rules beats message => exact ⟨rfl, Or.inl rfl⟩

end Turns

/-!
## The reply to a call
-/

/-- What the store answers in the next move of a transaction, if its call is
carried out in it. -/
def Run.reply? (run : Run) (scene : Scene) : Option CallResult :=
  match run.stage with
  | .writing _ rules (.serving beats) =>
      match (scene.serve beats).2 with
      | .completed => some (answerAfter rules run.keys (scene.store.putAll run.keys run.values).1)
      | _ => none
  | _ => none

/-- Who has finished has the result it has finished with. -/
theorem Run.result?_of_end? {run : Run} {result : CallResult}
    (h : run.end? = some (.finished result)) : run.stage.result? = some result := by
  rw [Run.stage_of_end? h]
  rfl

namespace World

/-- On the way from one world to another the store has carried out the call of
the transaction at a position, and has answered so. -/
def Replied (start w : World) (i : Nat) (reply : CallResult) : Prop :=
  ∃ before caller, Reaches start before ∧ before.writers[i]? = some caller ∧
    caller.run.reply? (before.sceneOf caller) = some reply ∧ Reaches (before.moved i caller) w

theorem Replied.tail {start w w' : World} {i : Nat} {reply : CallResult}
    (h : Replied start w i reply) (hstep : Step w w') : Replied start w' i reply := by
  rcases h with ⟨before, caller, hbefore, hcaller, hreply, hafter⟩
  exact ⟨before, caller, hbefore, hcaller, hreply, hafter.tail hstep⟩

end World
end Simulation
end WriteLatch
