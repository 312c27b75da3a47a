import WriteLatch.Proofs.Interleaving.Quiet

/-!
# What a move can do

A move of a transaction is small.  Most moves are quiet.  The others carry out
one deed: they set the locks, erase them, or report that they could not be
erased.  Which stage a move leads to depends on the stage before it, and the
deed goes with it.
-/

namespace WriteLatch
namespace Simulation

/-!
## Deeds in a scene
-/

namespace Scene

/-- The scene after it was reported why locks were not deleted. -/
def afterReport (scene : Scene) (ctx : Context) (answer : CacheAnswer) : Scene :=
  match Transaction.releaseCauses? answer with
  | some causes => (scene.count .failedReleases 1).report ctx causes
  | none => scene

/-- The scene after a deed done under a context. -/
def after (scene : Scene) (ctx : Context) : Deed -> Scene
  | .set now items => { scene with cache := scene.cache.insertAll now items }
  | .erased slots => { scene with cache := scene.cache.eraseAll slots }
  | .reported answer => scene.afterReport ctx answer

section Reports

variable (scene : Scene) (ctx : Context) (causes : List String) (answer : CacheAnswer)

theorem now_report : (scene.report ctx causes).now = scene.now := by
  unfold report
  cases scene.reporting <;> rfl

theorem cacheNow_report : (scene.report ctx causes).cacheNow = scene.cacheNow := by
  unfold report
  cases scene.reporting <;> rfl

theorem tokens_report : (scene.report ctx causes).tokens = scene.tokens := by
  unfold report
  cases scene.reporting <;> rfl

theorem cache_report : (scene.report ctx causes).cache = scene.cache := by
  unfold report
  cases scene.reporting <;> rfl

theorem failedReleases_report :
    (scene.report ctx causes).journal.total .failedReleases =
      scene.journal.total .failedReleases := by
  unfold report
  cases scene.reporting with
  | recorded => rfl
  | traced => exact Journal.total_count scene.journal .reportedErrors .failedReleases 1

theorem now_afterReport : (scene.afterReport ctx answer).now = scene.now := by
  unfold afterReport
  cases Transaction.releaseCauses? answer with
  | none => rfl
  | some causes => exact now_report _ ctx causes

theorem cacheNow_afterReport : (scene.afterReport ctx answer).cacheNow = scene.cacheNow := by
  unfold afterReport
  cases Transaction.releaseCauses? answer with
  | none => rfl
  | some causes => exact cacheNow_report _ ctx causes

theorem tokens_afterReport : (scene.afterReport ctx answer).tokens = scene.tokens := by
  unfold afterReport
  cases Transaction.releaseCauses? answer with
  | none => rfl
  | some causes => exact tokens_report _ ctx causes

theorem cache_afterReport : (scene.afterReport ctx answer).cache = scene.cache := by
  unfold afterReport
  cases Transaction.releaseCauses? answer with
  | none => rfl
  | some causes => exact cache_report _ ctx causes

theorem failedReleases_afterReport (h : (Transaction.releaseCauses? answer).isSome = true) :
    (scene.afterReport ctx answer).journal.total .failedReleases =
      scene.journal.total .failedReleases + 1 := by
  unfold afterReport
  cases hcauses : Transaction.releaseCauses? answer with
  | none =>
      rw [hcauses] at h
      cases h
  | some causes =>
      dsimp only
      rw [failedReleases_report]
      exact Journal.total_count scene.journal .failedReleases .failedReleases 1

end Reports

theorem cacheNow_after (scene : Scene) (ctx : Context) (deed : Deed) :
    (scene.after ctx deed).cacheNow = scene.cacheNow := by
  cases deed with
  | set now items => rfl
  | erased slots => rfl
  | reported answer => exact scene.cacheNow_afterReport ctx answer

theorem failedReleases_after {scene : Scene} {ctx : Context} {deed : Deed}
    (hproper : deed.IsProper scene.cacheNow) :
    (scene.after ctx deed).journal.total .failedReleases =
      scene.journal.total .failedReleases + if deed.isReport then 1 else 0 := by
  cases deed with
  | set now items => rfl
  | erased slots => rfl
  | reported answer => exact scene.failedReleases_afterReport ctx answer hproper

/-- A deed ends no context and takes no time. -/
theorem isOver_after (scene : Scene) (ctx c : Context) (deed : Deed) :
    c.isOver (scene.after ctx deed).tokens (scene.after ctx deed).now =
      c.isOver scene.tokens scene.now := by
  cases deed with
  | set now items => rfl
  | erased slots => rfl
  | reported answer =>
      rw [after, now_afterReport, tokens_afterReport]

end Scene

theorem mirrors_after {first : Cache} {history : List Entry} {scene : Scene}
    (h : Mirrors first history scene.cache scene.cacheNow) (ctx : Context) (entry : Entry)
    (hproper : entry.deed.IsProper scene.cacheNow) :
    Mirrors first (entry :: history) (scene.after ctx entry.deed).cache scene.cacheNow := by
  rcases entry with ⟨writer, deed⟩
  cases deed with
  | set now items =>
      cases hproper
      exact h.insertAll writer items
  | erased slots => exact h.eraseAll writer slots
  | reported answer =>
      rw [Scene.after, scene.cache_afterReport ctx answer]
      exact h.reported writer answer

/-- From one scene to another nothing is done but the deed. -/
inductive Follows (ctx : Context) (before after : Scene) : Option Deed -> Prop where
  | quietly (h : before.Quiet after) : Follows ctx before after none
  | doing {mid : Scene} {deed : Deed} (hbefore : before.Quiet mid)
      (hproper : deed.IsProper mid.cacheNow) (hafter : (mid.after ctx deed).Quiet after) :
      Follows ctx before after (some deed)

theorem Follows.trans_quiet {ctx : Context} {before between after : Scene} {deed : Option Deed}
    (h : Follows ctx before between deed) (hquiet : between.Quiet after) :
    Follows ctx before after deed := by
  cases h with
  | quietly h => exact Follows.quietly (h.trans hquiet)
  | doing hbefore hproper hafter => exact Follows.doing hbefore hproper (hafter.trans hquiet)

/-!
## The deed of a move
-/

namespace Run

theorem stage_of_end? {run : Run} {e : Client.TaskEnd} (h : run.end? = some e) :
    run.stage = .ended e := by
  rw [end?] at h
  cases hstage : run.stage with
  | ended e' =>
      rw [hstage] at h
      cases h
      rfl
  | opening | locking c call | writing c rules call | releasing c result call =>
      rw [hstage] at h
      cases h

/-- What the next move does to the cache, or has to report. -/
def deed? (run : Run) (scene : Scene) : Option Deed :=
  match run.stage with
  | .locking _ (.serving beats) =>
      match scene.serve beats with
      | (mid, .completed) =>
          match mid.cache.setAll mid.cacheNow (run.lockItems mid) with
          | .ok _ => some (.set mid.cacheNow (run.lockItems mid))
          | .error _ => none
      | _ => none
  | .releasing c _ .notBegun => (scene.interruption? c).map fun i => .reported (.interrupted i)
  | .releasing _ _ (.serving beats) =>
      match scene.serve beats with
      | (_, .failed causes) => some (.reported (.returned (.error causes)))
      | (mid, .completed) => some (.erased (run.lockSlots mid))
      | _ => none
  | .releasing c _ (.paused _ _) =>
      (scene.interruption? c).map fun i => .reported (.interrupted i)
  | _ => none

end Run

/-- How the stage of a transaction changes in a move with the given deed. -/
inductive Leads (run : Run) (scene : Scene) : Stage -> Option Deed -> Stage -> Prop where
  | rests (stage : Stage) : Leads run scene stage none stage
  | refused (result : CallResult) :
      Leads run scene .opening none (.ended (.finished result))
  | opened {c : Context} (h : c.Within run.ctx) :
      Leads run scene .opening none (.locking c .notBegun)
  | setGoesOn (c : Context) (call call' : Progress (List String)) :
      Leads run scene (.locking c call) none (.locking c call')
  | set (c : Context) (beats : List (Beat (List String))) (now : Millis) :
      Leads run scene (.locking c (.serving beats)) (some (.set now (run.lockItems scene)))
        (.writing c [] .notBegun)
  | setFailed (c : Context) (call : Progress (List String)) (result : CallResult) :
      Leads run scene (.locking c call) none (.releasing c result .notBegun)
  | setCrashed (c : Context) (beats : List (Beat (List String))) (message : String) :
      Leads run scene (.locking c (.serving beats)) none (.ended (.crashed message))
  | putGoesOn (c : Context) (rules rules' : List StoreRule) (call call' : Progress Failure) :
      Leads run scene (.writing c rules call) none (.writing c rules' call')
  | put (c : Context) (rules : List StoreRule) (call : Progress Failure) (result : CallResult) :
      Leads run scene (.writing c rules call) none (.releasing c result .notBegun)
  | putCrashed (c : Context) (rules : List StoreRule) (beats : List (Beat Failure))
      (message : String) :
      Leads run scene (.writing c rules (.serving beats)) none (.ended (.crashed message))
  | deleteStarts {c : Context} (result : CallResult) (call : Progress (List String))
      (beats : List (Beat (List String))) (h : c.isOver scene.tokens scene.now = false) :
      Leads run scene (.releasing c result call) none (.releasing c result (.serving beats))
  | deletePauses (c : Context) (result : CallResult) (beats rest : List (Beat (List String)))
      (resume : Millis) :
      Leads run scene (.releasing c result (.serving beats)) none
        (.releasing c result (.paused resume rest))
  | deleted (c : Context) (result : CallResult) (beats : List (Beat (List String))) :
      Leads run scene (.releasing c result (.serving beats))
        (some (.erased (run.lockSlots scene))) (.ended (.finished result))
  | deleteFailed (c : Context) (result : CallResult) (beats : List (Beat (List String)))
      (causes : List String) :
      Leads run scene (.releasing c result (.serving beats))
        (some (.reported (.returned (.error causes)))) (.ended (.finished result))
  | deleteInterrupted {c : Context} (result : CallResult) (call : Progress (List String))
      {i : Interruption} (h : scene.interruption? c = some i) :
      Leads run scene (.releasing c result call) (some (.reported (.interrupted i)))
        (.ended (.finished result))
  | deleteCrashed (c : Context) (result : CallResult) (beats : List (Beat (List String)))
      (message : String) :
      Leads run scene (.releasing c result (.serving beats)) none (.ended (.crashed message))

/-- What is said of a move all in all. -/
structure Moved (run : Run) (scene : Scene) (after : Scene) (next : Run) : Prop where
  ctx : next.ctx = run.ctx
  keys : next.keys = run.keys
  values : next.values = run.values
  stage : Leads run scene run.stage (run.deed? scene) next.stage
  scene : Follows run.ctx scene after (run.deed? scene)

namespace Run

variable {run : Run} {scene : Scene}

/-- A move that only leads to another stage. -/
theorem moved_quietly {after : Scene} {before stage : Stage} (begun : Nat)
    (hbefore : run.stage = before) (hdeed : run.deed? scene = none)
    (hleads : Leads run scene before none stage) (hquiet : scene.Quiet after) :
    Moved run scene after { run with stage := stage, begun := begun } := by
  constructor
  · rfl
  · rfl
  · rfl
  · rw [hdeed, hbefore]
    exact hleads
  · rw [hdeed]
    exact Follows.quietly hquiet

/-- A move that carries out a deed. -/
theorem moved_doing {mid after : Scene} {before stage : Stage} {deed : Deed}
    (hbefore : run.stage = before) (hdeed : run.deed? scene = some deed)
    (hleads : Leads run scene before (some deed) stage) (hquiet : scene.Quiet mid)
    (hproper : deed.IsProper mid.cacheNow) (hafter : (mid.after run.ctx deed).Quiet after) :
    Moved run scene after (run.enter stage) := by
  constructor
  · rfl
  · rfl
  · rfl
  · rw [hdeed, hbefore]
    exact hleads
  · rw [hdeed]
    exact Follows.doing hquiet hproper hafter

theorem moved_nothing (hdeed : run.deed? scene = none) : Moved run scene scene run :=
  moved_quietly run.begun rfl hdeed (Leads.rests _) scene.quiet_refl

theorem quiet_begin (run : Run) (scene : Scene) (stage : Stage) :
    scene.Quiet (run.begin scene stage).1 :=
  Scene.quiet_of_eq rfl rfl (fun _ h => h) rfl rfl

/-!
## Opening
-/

/-- After the call, opening a context does to a scene what cancellations and the
derivation of a context do. -/
theorem openContext_induct {R : Scene -> Scene -> Prop} (hrefl : ∀ scene, R scene scene)
    (htrans : ∀ {a b c}, R a b -> R b c -> R a c)
    (hcancel : ∀ scene name, R scene (scene.cancelNamed name))
    (hderive : ∀ scene parent, R scene (scene.deriveFrom parent).2) (run : Run) (scene : Scene) :
    R (scene.call .newContext) (run.openContext scene).1 := by
  have hcancelled (rule : ContextRule) : R (scene.call .newContext)
      ((rule.cancel.map (scene.call .newContext).cancelNamed).getD
        (scene.call .newContext)) := by
    cases rule.cancel with
    | none => exact hrefl _
    | some name => exact hcancel _ name
  unfold openContext
  dsimp only
  cases (scene.call CollaboratorCall.newContext).faults.cache.context.fail with
  | some causes => exact hcancelled _
  | none => exact htrans (hcancelled _) (hderive _ run.ctx)

/-- What cancellations and derivations leave alone is as the call leaves it. -/
theorem eq_of_openContext {α : Type} {f : Scene -> α}
    (hcancel : ∀ scene name, f (scene.cancelNamed name) = f scene)
    (hderive : ∀ scene parent, f (scene.deriveFrom parent).2 = f scene) (run : Run)
    (scene : Scene) : f (run.openContext scene).1 = f (scene.call .newContext) :=
  openContext_induct (R := fun a b => f b = f a) (fun _ => rfl) (fun hab hbc => hbc.trans hab)
    hcancel hderive run scene

theorem openContext_spec (run : Run) (scene : Scene) :
    ∃ opening, (run.openContext scene).2 = run.inPhase (Transaction.opened opening) ∧
      (∀ c, opening = .ok c -> c.Within run.ctx) ∧ scene.Quiet (run.openContext scene).1 := by
  have hquiet : scene.Quiet (run.openContext scene).1 :=
    (scene.quiet_call .newContext).trans (openContext_induct Scene.quiet_refl Scene.Quiet.trans
      Scene.quiet_cancelNamed Scene.quiet_deriveFrom run scene)
  have hopened : ∃ opening,
      (run.openContext scene).2 = run.inPhase (Transaction.opened opening) ∧
        ∀ c, opening = .ok c -> c.Within run.ctx := by
    unfold openContext
    dsimp only
    cases (scene.call CollaboratorCall.newContext).faults.cache.context.fail with
    | some causes =>
        refine ⟨.error causes, rfl, ?_⟩
        intro c h
        cases h
    | none =>
        refine ⟨.ok _, rfl, ?_⟩
        intro c h
        cases h
        cases (scene.call CollaboratorCall.newContext).faults.cache.context.timeout with
        | none => exact Context.within_child _ _
        | some timeout => exact (Context.within_child _ _).withTimeout _ timeout
  rcases hopened with ⟨opening, hnext, hwithin⟩
  exact ⟨opening, hnext, hwithin, hquiet⟩

theorem moved_opening (hstage : run.stage = .opening) :
    Moved run scene (run.openContext scene).1 (run.openContext scene).2 := by
  have hdeed : run.deed? scene = none := by
    rw [deed?, hstage]
  rcases run.openContext_spec scene with ⟨opening, hnext, hwithin, hquiet⟩
  rw [hnext]
  apply moved_quietly run.begun hstage hdeed _ hquiet
  cases opening with
  | error causes => exact Leads.refused _
  | ok c => exact Leads.opened (hwithin c rfl)

/-!
## Setting the locks
-/

/-- An attempt that fails at one lock has failed at the first: all locks of a
transaction have the same lifetime. -/
theorem setAll_lockItems_eq_error {c c' : Cache} {now : Millis} {scheme : LockScheme}
    {keys : List Key} (h : c.setAll now (scheme.lockItems keys) = .error c') : c' = c := by
  have hsame (k : Key) (ks : List Key) (d : Cache) :
      Cache.isStorable now (scheme.lockItem k) = true ->
        ∃ d', d.setAll now (ks.map scheme.lockItem) = .ok d' := by
    intro hstorable
    induction ks generalizing d with
    | nil => exact ⟨d, rfl⟩
    | cons k' ks ih =>
        have hlifetime : (scheme.lockItem k').lifetime = (scheme.lockItem k).lifetime := rfl
        have hstorable' : Cache.isStorable now (scheme.lockItem k') = true := by
          rw [Cache.isStorable, Cache.expiryOf, hlifetime]
          exact hstorable
        rw [List.map_cons, Cache.setAll_cons, if_pos hstorable']
        exact ih _
  rw [LockScheme.lockItems] at h
  cases hkeys : keys.filter Key.isComplete with
  | nil =>
      rw [hkeys] at h
      cases h
  | cons k ks =>
      rw [hkeys] at h
      by_cases hstorable : Cache.isStorable now (scheme.lockItem k) = true
      · rcases hsame k (k :: ks) c hstorable with ⟨d, hd⟩
        rw [hd] at h
        cases h
      · rw [List.map_cons, Cache.setAll_cons, if_neg hstorable] at h
        cases h
        rfl

theorem moved_setLocks {c : Context} {beats : List (Beat (List String))} {mid : Scene}
    (hstage : run.stage = .locking c (.serving beats))
    (hserve : scene.serve beats = (mid, .completed)) (hquiet : scene.Quiet mid)
    (hscheme : mid.scheme = scene.scheme) :
    Moved run scene (run.setLocks mid c).1 (run.setLocks mid c).2 := by
  unfold setLocks
  cases hset : mid.cache.setAll mid.cacheNow (run.lockItems mid) with
  | ok cache =>
      have hdeed : run.deed? scene = some (.set mid.cacheNow (run.lockItems mid)) := by
        simp only [deed?, hstage, hserve, hset]
      apply moved_doing hstage hdeed _ hquiet rfl
      · rw [Cache.setAll_eq_ok hset]
        exact Scene.quiet_event _ _
      · rw [lockItems, hscheme]
        exact Leads.set c beats mid.cacheNow
  | error cache =>
      have hdeed : run.deed? scene = none := by
        simp only [deed?, hstage, hserve, hset]
      have hsame : cache = mid.cache := setAll_lockItems_eq_error hset
      apply moved_quietly run.begun hstage hdeed (Leads.setCrashed c beats _)
      rw [hsame]
      exact hquiet

theorem moved_locking {c : Context} {call : Progress (List String)}
    (hstage : run.stage = .locking c call) :
    Moved run scene (run.advance scene).1 (run.advance scene).2.1 := by
  cases call with
  | notBegun =>
      have hdeed : run.deed? scene = none := by
        rw [deed?, hstage]
      simp only [advance, hstage]
      cases scene.interruption? c with
      | some i =>
          exact moved_quietly _ hstage hdeed (Leads.setFailed c _ _) scene.quiet_refl
      | none =>
          by_cases hspent : scene.allowance = 0
          · simp only [hspent, if_true]
            exact moved_nothing hdeed
          · simp only [hspent, if_false]
            apply moved_quietly _ hstage hdeed (Leads.setGoesOn c _ _)
            exact (scene.quiet_call _).trans (run.quiet_begin _ _)
  | serving beats =>
      have hquiet := scene.quiet_serve beats
      have hscheme := scene.scheme_serve beats
      cases hserve : scene.serve beats with
      | mk mid served =>
          rw [hserve] at hquiet hscheme
          cases served with
          | completed =>
              simp only [advance, hstage, hserve]
              exact moved_setLocks hstage hserve hquiet hscheme
          | paused resume rest | gaveWay resume rest =>
              have hdeed : run.deed? scene = none := by
                simp only [deed?, hstage, hserve]
              simp only [advance, hstage, hserve]
              exact moved_quietly _ hstage hdeed (Leads.setGoesOn c _ _) hquiet
          | crashed message =>
              have hdeed : run.deed? scene = none := by
                simp only [deed?, hstage, hserve]
              simp only [advance, hstage, hserve]
              exact moved_quietly _ hstage hdeed (Leads.setCrashed c beats message) hquiet
          | failed causes =>
              have hdeed : run.deed? scene = none := by
                simp only [deed?, hstage, hserve]
              simp only [advance, hstage, hserve]
              exact moved_quietly _ hstage hdeed (Leads.setFailed c _ _) hquiet
  | paused resume rest =>
      have hdeed : run.deed? scene = none := by
        rw [deed?, hstage]
      simp only [advance, hstage]
      cases scene.interruption? c with
      | some i =>
          exact moved_quietly _ hstage hdeed (Leads.setFailed c _ _)
            (scene.quiet_noteInterruption i)
      | none =>
          by_cases hdue : resume <= scene.now
          · simp only [hdue, if_true]
            exact moved_quietly _ hstage hdeed (Leads.setGoesOn c _ _) (scene.quiet_spend 1)
          · simp only [hdue, if_false]
            exact moved_nothing hdeed

/-!
## Writing the entities
-/

theorem moved_writing {c : Context} {rules : List StoreRule} {call : Progress Failure}
    (hstage : run.stage = .writing c rules call) :
    Moved run scene (run.advance scene).1 (run.advance scene).2.1 := by
  have hdeed : run.deed? scene = none := by
    rw [deed?, hstage]
  cases call with
  | notBegun =>
      simp only [advance, hstage]
      cases scene.interruption? run.ctx with
      | some i =>
          exact moved_quietly _ hstage hdeed (Leads.put c _ _ _) scene.quiet_refl
      | none =>
          by_cases hspent : scene.allowance = 0
          · simp only [hspent, if_true]
            exact moved_nothing hdeed
          · simp only [hspent, if_false]
            apply moved_quietly _ hstage hdeed (Leads.putGoesOn c _ _ _ _)
            have hlook := scene.quiet_lookForLocks run.keys
            exact (hlook.trans (Scene.quiet_call _ _)).trans (run.quiet_begin _ _)
  | serving beats =>
      have hquiet := scene.quiet_serve beats
      cases hserve : scene.serve beats with
      | mk mid served =>
          rw [hserve] at hquiet
          simp only [advance, hstage, hserve]
          cases served with
          | completed =>
              apply moved_quietly _ hstage hdeed (Leads.put c _ _ _)
              exact hquiet.trans (Scene.quiet_of_eq rfl rfl (fun _ h => h) rfl rfl)
          | paused resume rest | gaveWay resume rest =>
              exact moved_quietly _ hstage hdeed (Leads.putGoesOn c _ _ _ _) hquiet
          | crashed message =>
              exact moved_quietly _ hstage hdeed (Leads.putCrashed c _ beats message) hquiet
          | failed f =>
              apply moved_quietly _ hstage hdeed (Leads.put c _ _ _)
              exact hquiet.trans (Scene.quiet_event _ _)
  | paused resume rest =>
      simp only [advance, hstage]
      cases scene.interruption? run.ctx with
      | some i =>
          exact moved_quietly _ hstage hdeed (Leads.put c _ _ _) (scene.quiet_noteInterruption i)
      | none =>
          by_cases hdue : resume <= scene.now
          · simp only [hdue, if_true]
            exact moved_quietly _ hstage hdeed (Leads.putGoesOn c _ _ _ _) (scene.quiet_spend 1)
          · simp only [hdue, if_false]
            exact moved_nothing hdeed

/-!
## Erasing the locks
-/

theorem moved_releasing {c : Context} {result : CallResult} {call : Progress (List String)}
    (hstage : run.stage = .releasing c result call) :
    Moved run scene (run.advance scene).1 (run.advance scene).2.1 := by
  have hgoesOn (beats : List (Beat (List String))) (h : scene.interruption? c = none) :
      Leads run scene (.releasing c result call) none (.releasing c result (.serving beats)) := by
    apply Leads.deleteStarts result call beats
    rw [Context.isOver, Option.isSome_eq_false_iff]
    exact Option.isNone_iff_eq_none.mpr h
  cases call with
  | notBegun =>
      cases hover : scene.interruption? c with
      | some i =>
          have hdeed : run.deed? scene = some (.reported (.interrupted i)) := by
            simp only [deed?, hstage, hover, Option.map]
          simp only [advance, hstage, hover]
          exact moved_doing hstage hdeed (Leads.deleteInterrupted result _ hover)
            scene.quiet_refl rfl (Scene.quiet_refl _)
      | none =>
          have hdeed : run.deed? scene = none := by
            simp only [deed?, hstage, hover, Option.map]
          simp only [advance, hstage, hover]
          by_cases hspent : scene.allowance = 0
          · simp only [hspent, if_true]
            exact moved_nothing hdeed
          · simp only [hspent, if_false]
            apply moved_quietly _ hstage hdeed (hgoesOn _ hover)
            exact (scene.quiet_call _).trans (run.quiet_begin _ _)
  | serving beats =>
      have hquiet := scene.quiet_serve beats
      have hscheme := scene.scheme_serve beats
      cases hserve : scene.serve beats with
      | mk mid served =>
          rw [hserve] at hquiet hscheme
          cases served with
          | completed =>
              have hdeed : run.deed? scene = some (.erased (run.lockSlots mid)) := by
                simp only [deed?, hstage, hserve]
              simp only [advance, hstage, hserve]
              apply moved_doing hstage hdeed _ hquiet trivial (Scene.quiet_refl _)
              rw [lockSlots, hscheme]
              exact Leads.deleted c result beats
          | paused resume rest | gaveWay resume rest =>
              have hdeed : run.deed? scene = none := by
                simp only [deed?, hstage, hserve]
              simp only [advance, hstage, hserve]
              exact moved_quietly _ hstage hdeed (Leads.deletePauses c result beats _ _) hquiet
          | crashed message =>
              have hdeed : run.deed? scene = none := by
                simp only [deed?, hstage, hserve]
              simp only [advance, hstage, hserve]
              exact moved_quietly _ hstage hdeed (Leads.deleteCrashed c result beats message)
                hquiet
          | failed causes =>
              have hdeed : run.deed? scene = some (.reported (.returned (.error causes))) := by
                simp only [deed?, hstage, hserve]
              simp only [advance, hstage, hserve]
              exact moved_doing hstage hdeed (Leads.deleteFailed c result beats causes) hquiet
                rfl (Scene.quiet_refl _)
  | paused resume rest =>
      cases hover : scene.interruption? c with
      | some i =>
          have hdeed : run.deed? scene = some (.reported (.interrupted i)) := by
            simp only [deed?, hstage, hover, Option.map]
          simp only [advance, hstage, hover]
          exact moved_doing hstage hdeed (Leads.deleteInterrupted result _ hover)
            (scene.quiet_noteInterruption i) rfl (Scene.quiet_refl _)
      | none =>
          have hdeed : run.deed? scene = none := by
            simp only [deed?, hstage, hover, Option.map]
          simp only [advance, hstage, hover]
          by_cases hdue : resume <= scene.now
          · simp only [hdue, if_true]
            exact moved_quietly _ hstage hdeed (hgoesOn _ hover) (scene.quiet_spend 1)
          · simp only [hdue, if_false]
            exact moved_nothing hdeed

/-!
## Any move
-/

theorem moved_advance (run : Run) (scene : Scene) :
    Moved run scene (run.advance scene).1 (run.advance scene).2.1 := by
  cases hstage : run.stage with
  | opening =>
      simp only [advance, hstage]
      exact moved_opening hstage
  | locking c call => exact moved_locking hstage
  | writing c rules call => exact moved_writing hstage
  | releasing c result call => exact moved_releasing hstage
  | ended e =>
      simp only [advance, hstage]
      apply moved_nothing
      rw [deed?, hstage]

theorem Moved.trans_quiet {next : Run} {between after : Scene}
    (h : Moved run scene between next) (hquiet : between.Quiet after) :
    Moved run scene after next :=
  ⟨h.ctx, h.keys, h.values, h.stage, h.scene.trans_quiet hquiet⟩

/-- After a transaction has ended, its context for the cache is let go of.  That is
all that a move does besides. -/
theorem exists_move_eq (run : Run) (scene : Scene) :
    ∃ lineage, run.move scene =
      ({ (run.advance scene).1 with lineage := lineage }, (run.advance scene).2) := by
  unfold move
  rcases run.advance scene with ⟨between, next, pace⟩
  dsimp only
  cases next.end? with
  | none => exact ⟨between.lineage, rfl⟩
  | some e =>
      cases run.cacheContext? with
      | none => exact ⟨between.lineage, rfl⟩
      | some c => exact ⟨_, rfl⟩

theorem run_move (run : Run) (scene : Scene) : (run.move scene).2 = (run.advance scene).2 := by
  rcases run.exists_move_eq scene with ⟨lineage, hmove⟩
  rw [hmove]

theorem moved_move (run : Run) (scene : Scene) :
    Moved run scene (run.move scene).1 (run.move scene).2.1 := by
  have hmoved := run.moved_advance scene
  rcases run.exists_move_eq scene with ⟨lineage, hmove⟩
  rw [hmove]
  exact Moved.trans_quiet hmoved (Scene.quiet_of_eq rfl rfl (fun _ h => h) rfl rfl)

end Run
end Simulation
end WriteLatch
