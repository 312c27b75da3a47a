import WriteLatch.Simulation.Run

/-!
# What is only noted

A write of many keys notes when it has begun, which of its pieces have failed
and what it has come to, and it counts keys and pieces.  A write of one key does
not.  None of this is ever read, so a transaction makes the same moves in scenes
that differ in nothing else, and what else is recorded stays the same.
-/

namespace WriteLatch

/-!
## Journals
-/

/-- Whether only a write of many keys notes such an event. -/
def Event.isOfMany : Event -> Bool
  | .writing _ _ _ => true
  | .pieceFailed _ _ => true
  | .written _ => true
  | _ => false

namespace Journal

/-- The events that a write of one key notes as well. -/
def shared (j : Journal) : List Event :=
  j.events.filter fun e => !e.isOfMany

/-- The journals differ at most in the counters and in what only a write of many
keys notes. -/
structure Matches (j j' : Journal) : Prop where
  calls : j'.calls = j.calls
  reports : j'.reports = j.reports
  shared : j'.shared = j.shared

variable {j j' : Journal}

theorem matches_refl (j : Journal) : j.Matches j :=
  ⟨rfl, rfl, rfl⟩

theorem Matches.symm (h : j.Matches j') : j'.Matches j :=
  ⟨h.calls.symm, h.reports.symm, h.shared.symm⟩

theorem Matches.trans {j'' : Journal} (h : j.Matches j') (h' : j'.Matches j'') : j.Matches j'' :=
  ⟨h'.calls.trans h.calls, h'.reports.trans h.reports, h'.shared.trans h.shared⟩

theorem Matches.call (h : j.Matches j') (c : CollaboratorCall) : (j.call c).Matches (j'.call c) :=
  ⟨congrArg (· ++ [c]) h.calls, h.reports, h.shared⟩

theorem Matches.report (h : j.Matches j') (r : Report) : (j.report r).Matches (j'.report r) :=
  ⟨h.calls, congrArg (· ++ [r]) h.reports, h.shared⟩

theorem shared_event (j : Journal) (e : Event) :
    (j.event e).shared = j.shared ++ if e.isOfMany then [] else [e] := by
  rw [Journal.shared, event, List.filter_append, Journal.shared]
  cases h : e.isOfMany <;> simp [h]

theorem Matches.event (h : j.Matches j') (e : Event) : (j.event e).Matches (j'.event e) := by
  refine ⟨h.calls, h.reports, ?_⟩
  rw [shared_event, shared_event, h.shared]

theorem matches_event (j : Journal) {e : Event} (h : e.isOfMany = true) :
    j.Matches (j.event e) := by
  refine ⟨rfl, rfl, ?_⟩
  rw [shared_event, h, if_pos rfl, List.append_nil]

theorem matches_count (j : Journal) (c : Counter) (n : Nat) : j.Matches (j.count c n) :=
  ⟨rfl, rfl, rfl⟩

theorem Matches.count (h : j.Matches j') (c : Counter) (n : Nat) :
    (j.count c n).Matches (j'.count c n) :=
  ⟨h.calls, h.reports, h.shared⟩

end Journal

namespace Simulation

/-- The same result from both, beside states that are related. -/
structure Echoes {σ α : Type} (R : σ -> σ -> Prop) (x y : σ × α) : Prop where
  state : R x.1 y.1
  result : y.2 = x.2

theorem Echoes.exists_eq {σ α : Type} {R : σ -> σ -> Prop} {x y : σ × α} (h : Echoes R x y) :
    ∃ before after result, x = (before, result) ∧ y = (after, result) ∧ R before after :=
  ⟨x.1, y.1, x.2, rfl, Prod.ext rfl h.result, h.state⟩

theorem Echoes.map {σ α β : Type} {R : σ -> σ -> Prop} {x y : σ × α} (h : Echoes R x y)
    (f : α -> β) : Echoes R (x.1, f x.2) (y.1, f y.2) :=
  ⟨h.state, congrArg f h.result⟩

/-!
## Scenes
-/

namespace Scene

/-- The scenes differ at most in what is only noted. -/
inductive Matches (scene : Scene) : Scene -> Prop where
  | mk {journal : Journal} (h : scene.journal.Matches journal) :
      Matches scene { scene with journal := journal }

theorem matches_refl (scene : Scene) : scene.Matches scene :=
  .mk scene.journal.matches_refl

theorem matches_event (scene : Scene) {e : Event} (h : e.isOfMany = true) :
    scene.Matches (scene.event e) :=
  .mk (scene.journal.matches_event h)

theorem matches_count (scene : Scene) (c : Counter) (n : Nat) : scene.Matches (scene.count c n) :=
  .mk (scene.journal.matches_count c n)

namespace Matches

variable {scene scene' : Scene}

theorem symm (h : scene.Matches scene') : scene'.Matches scene := by
  cases h with
  | mk h => exact .mk h.symm

theorem trans {scene'' : Scene} (h : scene.Matches scene') (h' : scene'.Matches scene'') :
    scene.Matches scene'' := by
  cases h with
  | mk h =>
      cases h' with
      | mk h' => exact .mk (h.trans h')

theorem journal (h : scene.Matches scene') : scene.journal.Matches scene'.journal := by
  cases h with
  | mk h => exact h

theorem interruption?_eq (h : scene.Matches scene') (c : Context) :
    scene'.interruption? c = scene.interruption? c := by
  cases h with
  | mk h => rfl

theorem allowance (h : scene.Matches scene') : scene'.allowance = scene.allowance := by
  cases h with
  | mk h => rfl

theorem now (h : scene.Matches scene') : scene'.now = scene.now := by
  cases h with
  | mk h => rfl

theorem tokens (h : scene.Matches scene') : scene'.tokens = scene.tokens := by
  cases h with
  | mk h => rfl

theorem reached (h : scene.Matches scene') : scene'.reached = scene.reached := by
  cases h with
  | mk h => rfl

theorem contexts (h : scene.Matches scene') : scene'.contexts = scene.contexts := by
  cases h with
  | mk h => rfl

theorem faults (h : scene.Matches scene') : scene'.faults = scene.faults := by
  cases h with
  | mk h => rfl

theorem call (h : scene.Matches scene') (c : CollaboratorCall) :
    (scene.call c).Matches (scene'.call c) := by
  cases h with
  | mk h => exact .mk (h.call c)

theorem event (h : scene.Matches scene') (e : Event) :
    (scene.event e).Matches (scene'.event e) := by
  cases h with
  | mk h => exact .mk (h.event e)

theorem report (h : scene.Matches scene') (c : Context) (causes : List String) :
    (scene.report c causes).Matches (scene'.report c causes) := by
  cases h with
  | @mk journal h =>
      have hcounted : (scene.count .reportedErrors 1).Matches
          (Scene.count { scene with journal := journal } .reportedErrors 1) :=
        .mk (h.count .reportedErrors 1)
      unfold Scene.report
      dsimp only
      split
      · exact .mk (h.report _)
      · exact hcounted.event _

theorem spend (h : scene.Matches scene') (n : Nat) : (scene.spend n).Matches (scene'.spend n) := by
  cases h with
  | mk h => exact .mk h

theorem newTurn (h : scene.Matches scene') : scene.newTurn.Matches scene'.newTurn := by
  cases h with
  | mk h => exact .mk h

theorem letGo (h : scene.Matches scene') (c : Context) :
    (scene.letGo c).Matches (scene'.letGo c) := by
  cases h with
  | mk h => exact .mk h

/-- Nobody is left to be woken. -/
theorem woken (h : scene.Matches scene') :
    Scene.Matches { scene with reached := [] } { scene' with reached := [] } := by
  cases h with
  | mk h => exact .mk h

theorem later (h : scene.Matches scene') (instant : Millis) :
    Scene.Matches { scene with now := max scene.now instant }
      { scene' with now := max scene'.now instant } := by
  cases h with
  | mk h => exact .mk h

theorem deriveFrom (h : scene.Matches scene') (parent : Context) :
    (scene'.deriveFrom parent).1 = (scene.deriveFrom parent).1 ∧
      (scene.deriveFrom parent).2.Matches (scene'.deriveFrom parent).2 := by
  cases h with
  | mk h => exact ⟨rfl, .mk h⟩

theorem cancelNamed (h : scene.Matches scene') (name : String) :
    (scene.cancelNamed name).Matches (scene'.cancelNamed name) := by
  cases h with
  | @mk journal h =>
      unfold Scene.cancelNamed
      cases scene.contexts.lookup name with
      | none => exact .mk h
      | some c => exact .mk h

theorem noteInterruption (h : scene.Matches scene') (i : Interruption) :
    (scene.noteInterruption i).Matches (scene'.noteInterruption i) := by
  cases i with
  | cancelled => exact h
  | deadlineExceeded => exact h.spend 1

theorem lookForLocks (h : scene.Matches scene') (keys : List Key) :
    (scene'.lookForLocks keys).1 = (scene.lookForLocks keys).1 ∧
      (scene.lookForLocks keys).2.Matches (scene'.lookForLocks keys).2 := by
  induction keys generalizing scene scene' with
  | nil => exact ⟨rfl, h⟩
  | cons k keys ih =>
      have hlook : (scene'.lookForLock k).1 = (scene.lookForLock k).1 ∧
          (scene.lookForLock k).2.Matches (scene'.lookForLock k).2 := by
        cases h with
        | mk h => exact ⟨rfl, .mk h⟩
      have hrest := ih hlook.2
      exact ⟨List.cons_eq_cons.mpr ⟨hlook.1, hrest.1⟩, hrest.2⟩

theorem serve {ε : Type} (h : scene.Matches scene') (beats : List (Beat ε)) :
    Echoes Scene.Matches (scene.serve beats) (scene'.serve beats) := by
  induction beats generalizing scene scene' with
  | nil => exact ⟨h, rfl⟩
  | cons beat beats ih =>
      cases beat with
      | cancel name => exact ih (h.cancelNamed name)
      | crash message | fail e => exact ⟨h, rfl⟩
      | pause duration =>
          unfold Scene.serve
          rw [h.allowance, h.now]
          split
          · exact ⟨h, rfl⟩
          · split
            · exact ih (h.spend 1)
            · exact ⟨h, rfl⟩

end Matches
end Scene

/-!
## Moves
-/

namespace Run

variable (run : Run) {scene scene' : Scene}

theorem matches_openContext (h : scene.Matches scene') :
    Echoes Scene.Matches (run.openContext scene) (run.openContext scene') := by
  have hcalled := h.call .newContext
  unfold openContext
  dsimp only
  rw [hcalled.faults]
  generalize (scene.call .newContext).faults.cache.context = rule
  have hcancelled : ((rule.cancel.map (scene.call .newContext).cancelNamed).getD
      (scene.call .newContext)).Matches ((rule.cancel.map (scene'.call .newContext).cancelNamed).getD
        (scene'.call .newContext)) := by
    cases rule.cancel with
    | none => exact hcalled
    | some name => exact hcalled.cancelNamed name
  generalize (rule.cancel.map (scene.call .newContext).cancelNamed).getD _ = mid at hcancelled ⊢
  generalize (rule.cancel.map (scene'.call .newContext).cancelNamed).getD _ = mid' at hcancelled ⊢
  cases rule.fail with
  | some causes => exact ⟨hcancelled, rfl⟩
  | none =>
      have hderived := hcancelled.deriveFrom run.ctx
      dsimp only
      rw [hderived.1, hderived.2.now]
      exact ⟨hderived.2, rfl⟩

theorem matches_begin (h : scene.Matches scene') (stage : Stage) :
    Echoes Scene.Matches (run.begin scene stage) (run.begin scene' stage) := by
  cases h with
  | mk h => exact ⟨.mk h, rfl⟩

theorem matches_setLocks (h : scene.Matches scene') (c : Context) :
    Echoes Scene.Matches (run.setLocks scene c) (run.setLocks scene' c) := by
  cases h with
  | @mk journal h =>
      have hitems : run.lockItems { scene with journal := journal } = run.lockItems scene := rfl
      unfold setLocks
      dsimp only
      rw [hitems]
      cases scene.cache.setAll scene.cacheNow (run.lockItems scene) with
      | ok cache => exact ⟨.mk (h.event _), rfl⟩
      | error cache => exact ⟨.mk h, rfl⟩

theorem matches_putEntities (h : scene.Matches scene') (c : Context) (rules : List StoreRule) :
    Echoes Scene.Matches (run.putEntities scene c rules) (run.putEntities scene' c rules) := by
  cases h with
  | mk h => exact ⟨.mk (h.event _), rfl⟩

theorem matches_releaseAnswered (h : scene.Matches scene') (result : CallResult)
    (answer : CacheAnswer) :
    Echoes Scene.Matches (run.releaseAnswered scene result answer) (run.releaseAnswered scene' result answer) := by
  unfold releaseAnswered
  cases Transaction.releaseCauses? answer with
  | none => exact ⟨h, rfl⟩
  | some causes =>
      have hcounted : (scene.count .failedReleases 1).Matches (scene'.count .failedReleases 1) :=
        ((scene.matches_count _ _).symm.trans h).trans (scene'.matches_count _ _)
      exact ⟨hcounted.report run.ctx causes, rfl⟩

theorem matches_deleteLocks (h : scene.Matches scene') (result : CallResult) :
    Echoes Scene.Matches (run.deleteLocks scene result) (run.deleteLocks scene' result) := by
  cases h with
  | mk h => exact ⟨.mk h, rfl⟩

theorem matches_locking {c : Context} {call : Progress (List String)}
    (hstage : run.stage = .locking c call) (h : scene.Matches scene') :
    Echoes Scene.Matches (run.advance scene) (run.advance scene') := by
  cases call with
  | notBegun =>
      simp only [advance, hstage, h.interruption?_eq, h.allowance]
      cases scene.interruption? c with
      | some i => exact ⟨h, rfl⟩
      | none =>
          dsimp only
          split
          · exact ⟨h, rfl⟩
          · cases h with
            | mk h => exact ⟨.mk (h.call _), rfl⟩
  | serving beats =>
      simp only [advance, hstage]
      rcases (h.serve beats).exists_eq with ⟨mid, mid', served, hserve, hserve', hmid⟩
      rw [hserve, hserve']
      cases served with
      | paused resume rest | gaveWay resume rest | crashed message | failed causes =>
          exact ⟨hmid, rfl⟩
      | completed =>
          exact (run.matches_setLocks hmid c).map (·, Pace.goesOn)
  | paused resume rest =>
      simp only [advance, hstage, h.interruption?_eq, h.now]
      cases scene.interruption? c with
      | some i => exact ⟨h.noteInterruption i, rfl⟩
      | none =>
          dsimp only
          split
          · exact ⟨h.spend 1, rfl⟩
          · exact ⟨h, rfl⟩

theorem matches_writing {c : Context} {rules : List StoreRule} {call : Progress Failure}
    (hstage : run.stage = .writing c rules call) (h : scene.Matches scene') :
    Echoes Scene.Matches (run.advance scene) (run.advance scene') := by
  cases call with
  | notBegun =>
      simp only [advance, hstage, h.interruption?_eq, h.allowance]
      cases scene.interruption? run.ctx with
      | some i => exact ⟨h, rfl⟩
      | none =>
          dsimp only
          split
          · exact ⟨h, rfl⟩
          · have hlook := h.lookForLocks run.keys
            rw [hlook.1, hlook.2.faults]
            exact (run.matches_begin (hlook.2.call _) _).map (·, Pace.goesOn)
  | serving beats =>
      simp only [advance, hstage]
      rcases (h.serve beats).exists_eq with ⟨mid, mid', served, hserve, hserve', hmid⟩
      rw [hserve, hserve']
      cases served with
      | paused resume rest | gaveWay resume rest | crashed message => exact ⟨hmid, rfl⟩
      | failed f => exact ⟨hmid.event _, rfl⟩
      | completed =>
          exact (run.matches_putEntities hmid c rules).map (·, Pace.goesOn)
  | paused resume rest =>
      simp only [advance, hstage, h.interruption?_eq, h.now]
      cases scene.interruption? run.ctx with
      | some i => exact ⟨h.noteInterruption i, rfl⟩
      | none =>
          dsimp only
          split
          · exact ⟨h.spend 1, rfl⟩
          · exact ⟨h, rfl⟩

theorem matches_releasing {c : Context} {result : CallResult} {call : Progress (List String)}
    (hstage : run.stage = .releasing c result call) (h : scene.Matches scene') :
    Echoes Scene.Matches (run.advance scene) (run.advance scene') := by
  have hanswered {mid mid' : Scene} (hmid : mid.Matches mid') (answer : CacheAnswer) :=
    (run.matches_releaseAnswered hmid result answer).map (·, Pace.goesOn)
  cases call with
  | notBegun =>
      simp only [advance, hstage, h.interruption?_eq, h.allowance]
      cases scene.interruption? c with
      | some i => exact hanswered h _
      | none =>
          dsimp only
          split
          · exact ⟨h, rfl⟩
          · cases h with
            | mk h => exact ⟨.mk (h.call _), rfl⟩
  | serving beats =>
      simp only [advance, hstage]
      rcases (h.serve beats).exists_eq with ⟨mid, mid', served, hserve, hserve', hmid⟩
      rw [hserve, hserve']
      cases served with
      | paused resume rest | gaveWay resume rest | crashed message => exact ⟨hmid, rfl⟩
      | failed causes => exact hanswered hmid _
      | completed =>
          exact (run.matches_deleteLocks hmid result).map (·, Pace.goesOn)
  | paused resume rest =>
      simp only [advance, hstage, h.interruption?_eq, h.now]
      cases scene.interruption? c with
      | some i => exact hanswered (h.noteInterruption i) _
      | none =>
          dsimp only
          split
          · exact ⟨h.spend 1, rfl⟩
          · exact ⟨h, rfl⟩

/-- A move does not depend on what is only noted. -/
theorem matches_move (h : scene.Matches scene') :
    Echoes Scene.Matches (run.move scene) (run.move scene') := by
  have hadvance : Echoes Scene.Matches (run.advance scene) (run.advance scene') := by
    cases hstage : run.stage with
    | opening =>
        simp only [advance, hstage]
        exact (run.matches_openContext h).map (·, Pace.goesOn)
    | locking c call => exact run.matches_locking hstage h
    | writing c rules call => exact run.matches_writing hstage h
    | releasing c result call => exact run.matches_releasing hstage h
    | ended e =>
        simp only [advance, hstage]
        exact ⟨h, rfl⟩
  unfold move
  rcases hadvance.exists_eq with ⟨between, between', ⟨next, pace⟩, hadvance, hadvance', hbetween⟩
  rw [hadvance, hadvance']
  dsimp only
  cases next.end? with
  | none => exact ⟨hbetween, rfl⟩
  | some e =>
      cases run.cacheContext? with
      | none => exact ⟨hbetween, rfl⟩
      | some c => exact ⟨hbetween.letGo c, rfl⟩

theorem matches_advanceFor (fuel : Nat) (h : scene.Matches scene') :
    Echoes Scene.Matches (advanceFor fuel run scene) (advanceFor fuel run scene') := by
  induction fuel generalizing run scene scene' with
  | zero => exact ⟨h, rfl⟩
  | succ fuel ih =>
      rcases (run.matches_move h).exists_eq with
        ⟨between, between', ⟨next, pace⟩, hmove, hmove', hbetween⟩
      unfold advanceFor
      rw [hmove, hmove']
      cases pace with
      | goesOn => exact ih next hbetween
      | waits | givesWay => exact ⟨hbetween, rfl⟩

end Run

end Simulation
end WriteLatch
