import WriteLatch.Proofs.Interleaving.Books

/-!
# Reports of failed releases

A transaction that was given a context for the cache tries to delete its locks
in the end.  If that fails, or the context ends first, it is reported, and the
failure is counted.  Nothing else is ever reported.  Over a whole session there
is one report for every transaction that could not delete its locks, whatever
fails and whenever contexts end.
-/

namespace WriteLatch
namespace Simulation

/-!
## What is told
-/

/-- What a reporter was told by a page of the journal. -/
def Reporting.told : Reporting -> Journal -> List Report
  | .recorded, j => j.reports
  | .traced, j => j.events.filterMap Event.report?

/-- Nothing has been told yet on a page that has just been turned. -/
theorem Reporting.told_nextPage (reporting : Reporting) (j : Journal) :
    reporting.told j.nextPage = [] := by
  cases reporting <;> rfl

/-- What was told, and what the counters say of it. -/
@[ext]
structure Tally where
  reporting : Reporting
  told : List Report
  failedReleases : Nat
  reportedErrors : Nat

namespace Tally

/-- The tally after some more failed releases were reported. -/
def after (t : Tally) (reports : List Report) : Tally :=
  { t with
    told := t.told ++ reports
    failedReleases := t.failedReleases + reports.length
    reportedErrors := t.reportedErrors +
      match t.reporting with
      | .recorded => 0
      | .traced => reports.length }

theorem after_nil (t : Tally) : t.after [] = t := by
  rcases t with ⟨reporting, told, failedReleases, reportedErrors⟩
  cases reporting <;> simp [after]

theorem after_after (t : Tally) (reports more : List Report) :
    (t.after reports).after more = t.after (reports ++ more) := by
  rcases t with ⟨reporting, told, failedReleases, reportedErrors⟩
  cases reporting <;> simp [after, Nat.add_assoc]

end Tally

namespace Scene

def tally (scene : Scene) : Tally where
  reporting := scene.reporting
  told := scene.reporting.told scene.journal
  failedReleases := scene.journal.total .failedReleases
  reportedErrors := scene.journal.total .reportedErrors

/-- What is neither told nor counted as a failed release changes no tally. -/
theorem tally_eq_of_tended {before after : Scene} (hreporting : after.reporting = before.reporting)
    (hjournal : before.journal.Tended after.journal) : after.tally = before.tally := by
  have htold : after.reporting.told after.journal = before.reporting.told before.journal := by
    rw [hreporting]
    cases before.reporting with
    | recorded => exact hjournal.reports
    | traced => exact hjournal.events
  rw [tally, tally, htold, hreporting, hjournal.failedReleases, hjournal.reportedErrors]

theorem Tended.tally {before after : Scene} (h : before.Tended after) :
    after.tally = before.tally :=
  tally_eq_of_tended h.reporting h.journal

variable (scene : Scene)

theorem tally_event {e : Event} (h : e.report? = none) : (scene.event e).tally = scene.tally :=
  tally_eq_of_tended rfl (scene.journal.tended_event h)

theorem tally_call (c : CollaboratorCall) : (scene.call c).tally = scene.tally := by
  have htold : scene.reporting.told (scene.journal.call c) =
      scene.reporting.told scene.journal := by
    cases scene.reporting <;> rfl
  exact Tally.ext rfl htold rfl rfl

theorem tally_cancelNamed (name : String) : (scene.cancelNamed name).tally = scene.tally := by
  unfold cancelNamed
  cases scene.contexts.lookup name <;> rfl

theorem tally_noteInterruption (i : Interruption) :
    (scene.noteInterruption i).tally = scene.tally := by
  cases i <;> rfl

theorem tally_lookForLocks (keys : List Key) :
    (scene.lookForLocks keys).2.tally = scene.tally :=
  eq_of_lookForLocks (fun _ _ => rfl) scene keys

theorem tally_serve {ε : Type} (beats : List (Beat ε)) :
    (scene.serve beats).1.tally = scene.tally :=
  eq_of_serve tally_cancelNamed (fun _ => rfl) scene beats

theorem report_of_recorded {s : Scene} (h : s.reporting = .recorded) (ctx : Context)
    (causes : List String) : s.report ctx causes = { s with
      journal := s.journal.report ⟨ctx.tenant, ctx.traceId, causeText causes⟩ } := by
  simp only [report, h]

theorem report_of_traced {s : Scene} (h : s.reporting = .traced) (ctx : Context)
    (causes : List String) : s.report ctx causes =
      (s.count .reportedErrors 1).event
        (.reported ⟨ctx.tenant, ctx.traceId, causeText causes⟩) := by
  simp only [report, h]

/-- A failed release is counted, and the reporter is told of it once. -/
theorem tally_report (ctx : Context) (causes : List String) :
    ((scene.count .failedReleases 1).report ctx causes).tally =
      scene.tally.after [⟨ctx.tenant, ctx.traceId, causeText causes⟩] := by
  have htotal (c d : Counter) (j : Journal) : (j.count c 1).total d =
      if d = c then j.total d + 1 else j.total d := j.total_count c d 1
  cases hreporting : scene.reporting with
  | recorded =>
      rw [report_of_recorded (s := scene.count .failedReleases 1) hreporting]
      apply Tally.ext
      · rfl
      · simp only [tally, Tally.after, count, hreporting, Reporting.told]
        rfl
      · exact htotal .failedReleases .failedReleases scene.journal
      · simp only [tally, Tally.after, hreporting]
        exact htotal .failedReleases .reportedErrors scene.journal
  | traced =>
      rw [report_of_traced (s := scene.count .failedReleases 1) hreporting]
      apply Tally.ext
      · rfl
      · simp only [tally, Tally.after, event, count, hreporting, Reporting.told, Journal.event,
          List.filterMap_append]
        rfl
      · have hcounted := htotal .reportedErrors .failedReleases
          (scene.journal.count .failedReleases 1)
        exact hcounted.trans (htotal .failedReleases .failedReleases scene.journal)
      · have hcounted := htotal .reportedErrors .reportedErrors
          (scene.journal.count .failedReleases 1)
        have hkept := htotal .failedReleases .reportedErrors scene.journal
        simp only [tally, Tally.after, hreporting]
        exact hcounted.trans (congrArg (· + 1) hkept)

end Scene

/-!
## One move
-/

namespace Run

/-- What is reported when the call that deletes the locks has ended so. -/
def report? (run : Run) (answer : CacheAnswer) : Option Report :=
  (Transaction.releaseCauses? answer).map fun causes =>
    ⟨run.ctx.tenant, run.ctx.traceId, causeText causes⟩

section Moves

variable {run : Run} {scene : Scene}

theorem tally_openContext (run : Run) (scene : Scene) :
    (run.openContext scene).1.tally = scene.tally :=
  (eq_of_openContext (f := Scene.tally) Scene.tally_cancelNamed (fun _ _ => rfl) run scene).trans
    (scene.tally_call .newContext)

theorem tally_releaseAnswered (run : Run) (scene : Scene) (result : CallResult)
    (answer : CacheAnswer) : (run.releaseAnswered scene result answer).1.tally =
      scene.tally.after (run.report? answer).toList := by
  unfold releaseAnswered report?
  cases Transaction.releaseCauses? answer with
  | none => exact scene.tally.after_nil.symm
  | some causes => exact scene.tally_report run.ctx causes

theorem tally_locking {c : Context} {call : Progress (List String)}
    (hstage : run.stage = .locking c call) : (run.advance scene).1.tally = scene.tally := by
  cases call with
  | notBegun =>
      simp only [advance, hstage]
      cases scene.interruption? c with
      | some i => rfl
      | none =>
          dsimp only
          split
          · rfl
          · exact scene.tally_call _
  | serving beats =>
      have hserve := scene.tally_serve beats
      simp only [advance, hstage]
      generalize scene.serve beats = served at hserve
      rcases served with ⟨mid, served⟩
      cases served with
      | completed =>
          dsimp only [setLocks]
          cases mid.cache.setAll mid.cacheNow (run.lockItems mid) with
          | ok cache =>
              have hevent := Scene.tally_event { mid with cache := cache }
                (e := .locksSet (run.lockItems mid).length) rfl
              exact hevent.trans hserve
          | error cache => exact hserve
      | paused resume rest | gaveWay resume rest | crashed message | failed causes => exact hserve
  | paused resume rest =>
      simp only [advance, hstage]
      cases scene.interruption? c with
      | some i => exact scene.tally_noteInterruption i
      | none =>
          dsimp only
          split <;> rfl

theorem tally_storeAnswered (run : Run) (scene : Scene) (c : Context) (result : CallResult) :
    (run.storeAnswered scene c result).1.tally = scene.tally :=
  scene.tally_event rfl

theorem tally_writing {c : Context} {rules : List StoreRule} {call : Progress Failure}
    (hstage : run.stage = .writing c rules call) :
    (run.advance scene).1.tally = scene.tally := by
  cases call with
  | notBegun =>
      simp only [advance, hstage]
      cases scene.interruption? run.ctx with
      | some i => rfl
      | none =>
          dsimp only
          split
          · rfl
          · exact (Scene.tally_call _ _).trans (scene.tally_lookForLocks run.keys)
  | serving beats =>
      have hserve := scene.tally_serve beats
      simp only [advance, hstage]
      generalize scene.serve beats = served at hserve
      rcases served with ⟨mid, served⟩
      cases served with
      | completed => exact (run.tally_storeAnswered _ c _).trans hserve
      | failed f => exact (run.tally_storeAnswered mid c _).trans hserve
      | paused resume rest | gaveWay resume rest | crashed message => exact hserve
  | paused resume rest =>
      simp only [advance, hstage]
      cases scene.interruption? run.ctx with
      | some i => exact scene.tally_noteInterruption i
      | none =>
          dsimp only
          split <;> rfl

/-- What a move makes of the call that deletes the locks: it goes on, or crashes,
or ends, and the transaction with it. -/
inductive Settles (run : Run) (scene : Scene) (c : Context) (result : CallResult)
    (after : Scene) : Stage -> Prop where
  | goesOn (call : Progress (List String)) (hrelease : run.release? scene = none)
      (htally : after.tally = scene.tally) :
      Settles run scene c result after (.releasing c result call)
  | crashed (message : String) (hrelease : run.release? scene = none)
      (htally : after.tally = scene.tally) :
      Settles run scene c result after (.ended (.crashed message))
  | ended {answer : CacheAnswer} (hrelease : run.release? scene = some answer)
      (htally : after.tally = scene.tally.after (run.report? answer).toList) :
      Settles run scene c result after (.ended (.finished result))

theorem settles_releaseAnswered {c : Context} {result : CallResult} {mid : Scene}
    {answer : CacheAnswer} (hrelease : run.release? scene = some answer)
    (hmid : mid.tally = scene.tally) :
    Settles run scene c result (run.releaseAnswered mid result answer).1
      (run.releaseAnswered mid result answer).2.stage := by
  have htally := run.tally_releaseAnswered mid result answer
  have hstage : (run.releaseAnswered mid result answer).2.stage = .ended (.finished result) := by
    unfold releaseAnswered
    cases Transaction.releaseCauses? answer <;> rfl
  rw [hmid] at htally
  rw [hstage]
  exact Settles.ended hrelease htally

theorem settles_releasing {c : Context} {result : CallResult} {call : Progress (List String)}
    (hstage : run.stage = .releasing c result call) :
    Settles run scene c result (run.advance scene).1 (run.advance scene).2.1.stage := by
  have hrelease : run.release? scene = scene.callEnd? c call := by
    rw [release?, hstage]
  cases call with
  | notBegun =>
      simp only [advance, hstage]
      cases hover : scene.interruption? c with
      | some i =>
          apply settles_releaseAnswered _ rfl
          rw [hrelease, Scene.callEnd?, hover, Option.map_some]
      | none =>
          have hnone : run.release? scene = none := by
            rw [hrelease, Scene.callEnd?, hover, Option.map_none]
          dsimp only
          split
          · rw [hstage]
            exact Settles.goesOn _ hnone rfl
          · exact Settles.goesOn _ hnone (scene.tally_call _)
  | serving beats =>
      have hserve := scene.tally_serve beats
      simp only [advance, hstage]
      rw [Scene.callEnd?] at hrelease
      generalize scene.serve beats = served at hserve hrelease
      rcases served with ⟨mid, served⟩
      cases served with
      | completed | failed causes => exact settles_releaseAnswered hrelease hserve
      | paused resume rest | gaveWay resume rest => exact Settles.goesOn _ hrelease hserve
      | crashed message => exact Settles.crashed message hrelease hserve
  | paused resume rest =>
      simp only [advance, hstage]
      cases hover : scene.interruption? c with
      | some i =>
          apply settles_releaseAnswered _ (scene.tally_noteInterruption i)
          rw [hrelease, Scene.callEnd?, hover, Option.map_some]
      | none =>
          have hnone : run.release? scene = none := by
            rw [hrelease, Scene.callEnd?, hover, Option.map_none]
          dsimp only
          split
          · exact Settles.goesOn _ hnone rfl
          · rw [hstage]
            exact Settles.goesOn _ hnone rfl

end Moves

variable (run : Run) (scene : Scene)

/-- A move reports how the call that deletes the locks has ended in it, if it has
ended and the locks may still be there, and reports nothing else. -/
theorem tally_move :
    (run.move scene).1.tally = scene.tally.after ((run.release? scene).bind run.report?).toList := by
  have hnone (hrelease : run.release? scene = none) {after : Scene}
      (htally : after.tally = scene.tally) :
      after.tally = scene.tally.after ((run.release? scene).bind run.report?).toList := by
    rw [hrelease, htally]
    exact scene.tally.after_nil.symm
  have hadvance : (run.advance scene).1.tally =
      scene.tally.after ((run.release? scene).bind run.report?).toList := by
    cases hstage : run.stage with
    | opening =>
        apply hnone (by rw [release?, hstage])
        simp only [advance, hstage]
        exact run.tally_openContext scene
    | locking c call => exact hnone (by rw [release?, hstage]) (tally_locking hstage)
    | writing c rules call => exact hnone (by rw [release?, hstage]) (tally_writing hstage)
    | releasing c result call =>
        have hsettles : Settles run scene c result _ _ := settles_releasing hstage
        generalize (run.advance scene).2.1.stage = stage' at hsettles
        cases hsettles with
        | goesOn call' hrelease htally => exact hnone hrelease htally
        | crashed message hrelease htally => exact hnone hrelease htally
        | ended hrelease htally =>
            rw [hrelease]
            exact htally
    | ended e =>
        apply hnone (by rw [release?, hstage])
        simp only [advance, hstage]
  rcases run.exists_move_eq scene with ⟨lineage, hmove⟩
  rw [hmove]
  exact hadvance

theorem stage_openContext :
    (∃ causes, scene.faults.cache.context.fail = some causes ∧
        (run.openContext scene).2.stage =
          .ended (.finished (Transaction.wholesale (.cache "new_context" causes)))) ∨
      (scene.faults.cache.context.fail = none ∧
        ∃ c, (run.openContext scene).2.stage = .locking c .notBegun) := by
  unfold openContext
  dsimp only
  have hfaults : (scene.call CollaboratorCall.newContext).faults = scene.faults := rfl
  rw [hfaults]
  cases scene.faults.cache.context.fail with
  | some causes => exact Or.inl ⟨causes, rfl, rfl⟩
  | none => exact Or.inr ⟨rfl, _, rfl⟩

end Run

/-!
## What was answered
-/

/-- How asking for a context and deleting the locks have gone, by the stage of the
transaction. -/
def Answered (contexts : List (Except (List String) Unit)) (releases : List CacheAnswer) :
    Stage -> Prop
  | .opening => contexts = [] ∧ releases = []
  | .ended (.finished _) =>
      (∃ causes, contexts = [.error causes] ∧ releases = []) ∨
        ∃ answer, contexts = [.ok ()] ∧ releases = [answer]
  | _ => contexts = [.ok ()] ∧ releases = []

section Answers

variable {run : Run} {scene : Scene} {contexts : List (Except (List String) Unit)}
  {releases : List CacheAnswer}

theorem Answered.of_locking {c : Context} {call : Progress (List String)} {deed : Option Deed}
    {stage' : Stage} (h : Answered contexts releases (.locking c call))
    (hleads : Leads run scene (.locking c call) deed stage') :
    Answered contexts releases stage' := by
  cases hleads with
  | rests | setGoesOn | set | setFailed | setCrashed => exact h

theorem Answered.of_writing {c : Context} {rules : List StoreRule} {call : Progress Failure}
    {deed : Option Deed} {stage' : Stage} (h : Answered contexts releases (.writing c rules call))
    (hleads : Leads run scene (.writing c rules call) deed stage') :
    Answered contexts releases stage' := by
  cases hleads with
  | rests | putGoesOn | put | putCrashed => exact h

theorem Answered.releases_eq {stage : Stage} (h : Answered contexts releases stage) :
    releases = [] ∨ ∃ answer, contexts = [.ok ()] ∧ releases = [answer] := by
  unfold Answered at h
  split at h
  · exact Or.inl h.2
  · rcases h with ⟨causes, hrefused, hnone⟩ | hended
    · exact Or.inl hnone
    · exact Or.inr hended
  · exact Or.inl h.2

theorem Answered.move (run : Run) (scene : Scene) (h : Answered contexts releases run.stage) :
    Answered (contexts ++ (run.opening? scene).toList) (releases ++ (run.release? scene).toList)
      (run.move scene).2.1.stage := by
  have hleads := (run.moved_advance scene).stage
  rw [run.run_move scene]
  cases hstage : run.stage with
  | opening =>
      rw [hstage] at h
      rw [Run.opening?, Run.release?, hstage, h.1, h.2]
      simp only [Run.advance, hstage]
      rcases run.stage_openContext scene with ⟨causes, hfail, hended⟩ | ⟨hgiven, c, hopened⟩
      · rw [hended, hfail]
        exact Or.inl ⟨causes, rfl, rfl⟩
      · rw [hopened, hgiven]
        exact ⟨rfl, rfl⟩
  | locking c call =>
      rw [hstage] at h hleads
      rw [Run.opening?, Run.release?, hstage, Option.toList_none, Option.toList_none,
        List.append_nil, List.append_nil]
      exact h.of_locking hleads
  | writing c rules call =>
      rw [hstage] at h hleads
      rw [Run.opening?, Run.release?, hstage, Option.toList_none, Option.toList_none,
        List.append_nil, List.append_nil]
      exact h.of_writing hleads
  | releasing c result call =>
      have hsettles : Run.Settles run scene c result _ _ := Run.settles_releasing hstage
      rw [hstage] at h
      rw [Run.opening?, hstage, Option.toList_none, List.append_nil]
      generalize (run.advance scene).2.1.stage = stage' at hsettles
      cases hsettles with
      | goesOn call' hrelease htally | crashed message hrelease htally =>
          rw [hrelease, Option.toList_none, List.append_nil]
          exact h
      | @ended answer hrelease htally =>
          rw [hrelease, h.2]
          exact Or.inr ⟨answer, h.1, rfl⟩
  | ended e =>
      rw [hstage] at h
      rw [Run.opening?, Run.release?, hstage, Option.toList_none, Option.toList_none,
        List.append_nil, List.append_nil]
      simp only [Run.advance, hstage]
      exact h

end Answers

/-!
## The books
-/

namespace Account

/-- What was reported of a transaction. -/
def reports (a : Account) : List Report :=
  a.releases.filterMap a.writer.run.report?

/-- What has to be reported of a transaction: that it was given a context and could
not delete its locks. -/
def report? (a : Account) : Option Report :=
  match a.contexts, a.releases with
  | [.ok ()], [.interrupted i] =>
      some ⟨a.writer.run.ctx.tenant, a.writer.run.ctx.traceId,
        causeText ["put_multi cache delete_multi", i.failure.message]⟩
  | [.ok ()], [.returned (.error causes)] =>
      some ⟨a.writer.run.ctx.tenant, a.writer.run.ctx.traceId,
        causeText ("put_multi cache delete_multi" :: causes)⟩
  | _, _ => none

/-- What a transaction was answered goes with its stage. -/
def IsAnswered (a : Account) : Prop :=
  Answered a.contexts a.releases a.writer.run.stage

theorem reports_eq {a : Account} (h : a.IsAnswered) : a.reports = a.report?.toList := by
  rcases h.releases_eq with hnone | ⟨answer, hgiven, hone⟩
  · unfold reports report?
    rw [hnone]
    split
    · rename_i heq
      cases heq
    · rename_i heq
      cases heq
    · rfl
  · unfold reports report?
    rw [hgiven, hone]
    cases answer with
    | interrupted i => rfl
    | returned reply => cases reply <;> rfl

theorem reports_moved (a : Account) (scene : Scene) :
    (a.moved scene).reports =
      a.reports ++ ((a.writer.run.release? scene).bind a.writer.run.report?).toList := by
  have hctx := (a.writer.run.moved_move scene).ctx
  have hsame : (a.moved scene).writer.run.report? = a.writer.run.report? := by
    funext answer
    rw [Run.report?, Run.report?]
    exact congrArg (fun ctx : Context => (Transaction.releaseCauses? answer).map fun causes =>
      Report.mk ctx.tenant ctx.traceId (causeText causes)) hctx
  rw [reports, hsame, moved, List.filterMap_append]
  cases a.writer.run.release? scene with
  | none => rfl
  | some answer =>
      cases hreport : a.writer.run.report? answer <;> simp [hreport, reports]

end Account

namespace Books

/-- What was told on all pages so far, and what the counters say of it. -/
def tally (b : Books) : Tally :=
  { b.scene.tally with
    told := b.pages.flatMap b.scene.reporting.told ++ b.scene.tally.told }

/-- Nothing is told and no failed release is counted. -/
def Untold (before after : Scene) : Prop :=
  after.tally = before.tally

theorem tally_turned (b : Books) : b.turned.tally = b.tally := by
  have hpage : b.scene.reporting.told b.scene.journal.page =
      b.scene.reporting.told b.scene.journal := by
    cases b.scene.reporting <;> rfl
  have hnext := b.scene.reporting.told_nextPage b.scene.journal
  apply Tally.ext
  · rfl
  · simp only [tally, turned, Scene.tally, List.flatMap_append, List.flatMap_cons,
      List.flatMap_nil, hpage, hnext, List.append_nil]
  · rfl
  · rfl

theorem flatMap_set_perm {α β : Type} {f : α -> List β} {xs : List α} {i : Nat} {x y : α}
    {more : List β} (hx : xs[i]? = some x) (hy : f y = f x ++ more) :
    ((xs.set i y).flatMap f).Perm (xs.flatMap f ++ more) := by
  induction xs generalizing i with
  | nil => cases hx
  | cons z rest ih =>
      cases i with
      | zero =>
          rw [List.getElem?_cons_zero, Option.some.injEq] at hx
          rw [List.set_cons_zero, List.flatMap_cons, List.flatMap_cons, hy, hx,
            List.append_assoc, List.append_assoc]
          exact List.Perm.append_left _ List.perm_append_comm
      | succ i =>
          rw [List.set_cons_succ, List.flatMap_cons, List.flatMap_cons, List.append_assoc]
          exact List.Perm.append_left _ (ih hx)

/-- What has been told goes with what was reported of the transactions. -/
def Balances (b b' : Books) : Prop :=
  ∃ more, b'.tally = b.tally.after more ∧
    (b'.accounts.flatMap Account.reports).Perm (b.accounts.flatMap Account.reports ++ more)

theorem Step.balances {b b' : Books} (h : Step Untold b b') : b.Balances b' := by
  have hsame {b' : Books} (htally : b'.tally = b.tally)
      (haccounts : b'.accounts.flatMap Account.reports = b.accounts.flatMap Account.reports) :
      b.Balances b' := by
    refine ⟨[], ?_, ?_⟩
    · rw [htally, Tally.after_nil]
    · rw [haccounts, List.append_nil]
  cases h with
  | @moved i a ha =>
      have hmove : (b.moved i a).scene.tally = b.scene.tally.after _ :=
        a.writer.run.tally_move (b.sceneOf a)
      have hreporting : (b.moved i a).scene.reporting = b.scene.reporting :=
        congrArg Tally.reporting hmove
      have hpages : (b.moved i a).pages = b.pages := rfl
      refine ⟨_, ?_, flatMap_set_perm ha (a.reports_moved (b.sceneOf a))⟩
      rw [tally, hmove, hreporting, hpages]
      simp only [Tally.after, tally, List.append_assoc]
  | called client ctx pieces hsplit =>
      refine hsame rfl ?_
      have hnone : (pieces.map (Account.opened (.called client b.scene.now ctx)
          client.config.lockScheme)).flatMap Account.reports = [] := by
        rw [List.flatMap_eq_nil_iff]
        intro a hmem
        rcases List.mem_map.mp hmem with ⟨piece, _, heq⟩
        rw [← heq]
        rfl
      rw [List.flatMap_append, List.flatMap_append, hnone, List.append_nil, hsplit,
        List.flatMap_append]
  | ran ctx scheme job hsplit =>
      refine hsame rfl ?_
      rw [List.flatMap_append, List.flatMap_cons, hsplit, List.flatMap_append]
      rfl
  | @meanwhile scene hwithin =>
      have htally : scene.tally = b.scene.tally := hwithin
      refine hsame ?_ rfl
      rw [tally, tally, htally, show scene.reporting = b.scene.reporting from
        congrArg Tally.reporting htally]
  | turned => exact hsame b.tally_turned rfl

theorem Reaches.balances {b b' : Books} (h : Reaches Untold b b') : b.Balances b' := by
  induction h with
  | refl => exact ⟨[], b.tally.after_nil.symm, by rw [List.append_nil]⟩
  | tail hreach hstep ih =>
      rcases ih with ⟨reports, htally, hperm⟩
      rcases hstep.balances with ⟨more, hlast, hadded⟩
      refine ⟨reports ++ more, ?_, ?_⟩
      · rw [hlast, htally, Tally.after_after]
      · rw [← List.append_assoc]
        exact hadded.trans (hperm.append_right more)

theorem Reaches.isAnswered {within : Scene -> Scene -> Prop} {b b' : Books}
    (h : Reaches within b b') (hfirst : b.accounts = []) : ∀ a ∈ b'.accounts, a.IsAnswered := by
  apply h.forall_accounts (p := Account.IsAnswered)
  · intro origin scheme job
    exact ⟨rfl, rfl⟩
  · intro a scene hanswered
    exact Answered.move a.writer.run scene hanswered
  · intro a hmem
    rw [hfirst] at hmem
    cases hmem

end Books

/-!
## Whole sessions
-/

/-- What the reporter was told and what the counters say is what has to be reported
of the transactions in the books, and nothing else. -/
structure Books.Explains (b : Books) (reporting : Reporting) (told : List Report)
    (counters : Journal) : Prop where
  answered : ∀ a ∈ b.accounts, a.IsAnswered
  told : told.Perm (b.accounts.filterMap Account.report?)
  failedReleases : counters.total .failedReleases = (b.accounts.filterMap Account.report?).length
  reportedErrors : counters.total .reportedErrors =
    match reporting with
    | .recorded => 0
    | .traced => (b.accounts.filterMap Account.report?).length

theorem Books.Reaches.explains {start b : Books} (h : Reaches Untold start b)
    (hfirst : start.accounts = []) {reporting : Reporting}
    (htally : start.tally = ⟨reporting, [], 0, 0⟩) :
    b.Explains reporting b.tally.told b.scene.journal := by
  have hanswered := h.isAnswered hfirst
  have hreports : b.accounts.flatMap Account.reports = b.accounts.filterMap Account.report? := by
    rw [List.filterMap_eq_flatMap_toList]
    exact List.flatMap_congr fun a hmem => Account.reports_eq (hanswered a hmem)
  rcases h.balances with ⟨reports, hlast, hperm⟩
  rw [hfirst, List.flatMap_nil, List.nil_append, hreports] at hperm
  rw [htally] at hlast
  have hlength : reports.length = (b.accounts.filterMap Account.report?).length :=
    hperm.length_eq.symm
  refine ⟨hanswered, ?_, ?_, ?_⟩
  · rw [hlast]
    exact hperm.symm
  · have hfailed := congrArg Tally.failedReleases hlast
    rw [← hlength]
    exact hfailed.trans (Nat.zero_add _)
  · have herrors := congrArg Tally.reportedErrors hlast
    rw [← hlength]
    cases reporting with
    | recorded => exact herrors
    | traced => exact herrors.trans (Nat.zero_add _)

namespace Session

/-- A session begins with a client, and with nothing but a root context. -/
theorem eq_of_create {config : Config} {store : Store} {announced : Nat} {reporting : Reporting}
    {s : Session} (h : create config store announced reporting = .ok s) :
    s = ⟨⟨config, config.batchSize announced⟩, {
      scene := { (Scene.newRoot {} rootName).2 with
        store := store
        scheme := config.lockScheme
        reporting := reporting
        contexts := [(rootName, (Scene.newRoot {} rootName).1)] } }⟩ := by
  unfold create at h
  cases hclient : Client.create config announced with
  | error d =>
      rw [hclient] at h
      cases h
  | ok client =>
      rw [hclient] at h
      cases h
      rw [(Client.eq_of_create hclient).2]
      rfl

theorem exists_eq_of_create {config : Config} {store : Store} {announced : Nat}
    {reporting : Reporting} {s : Session} (h : create config store announced reporting = .ok s) :
    s.schedule.tasks = [] ∧ s.scene.scheme = s.client.config.lockScheme ∧
      s.scene.reporting = reporting ∧ s.scene.journal = {} := by
  rw [eq_of_create h]
  exact ⟨rfl, rfl, rfl, rfl⟩

/-- Over every session, whatever fails in it, whatever is cancelled and whatever is
given up, the reporter is told once of every transaction that was given a context
and whose call to delete its locks failed or was interrupted, and of nothing else,
and just these are counted. -/
theorem told_once_for_each_failed_release {config : Config} {store : Store} {announced : Nat}
    {reporting : Reporting} {s : Session}
    (hcreate : create config store announced reporting = .ok s) (sts : List Step) :
    ∃ (b : Books) (alone : List Run), Books.Reaches Books.Untold { scene := s.scene } b ∧
      b.Hosts ((s.steps sts).1.schedule.crew alone) ∧ alone.length = sts.countP Step.runsAlone ∧
      b.Explains reporting
        ((s.steps sts).2.flatMap fun page => reporting.told page.journal)
        (s.steps sts).1.scene.journal := by
  rcases exists_eq_of_create hcreate with ⟨htasks, hscheme, hreporting, hjournal⟩
  have haside (st : Step) {s s' : Session} (h : PassesBy st s s') :
      Books.Untold s.scene s'.scene := by
    apply Scene.tally_eq_of_tended h.reporting
    rw [h.journal]
    exact s.scene.journal.tended_refl
  have hentered : ∃ alone, Enters Books.Untold s [] (s.steps sts).1 (alone ++ [])
      ((s.steps sts).2.map Page.journal) ∧ alone.length = sts.countP Step.runsAlone :=
    exists_enters_steps (fun htended => htended.tally) [] hscheme (fun st _ _ _ => haside st)
  rcases hentered with ⟨alone, henters, halone⟩
  rw [List.append_nil] at henters
  rcases henters.books _ (hosts_of_tasks htasks) with ⟨b, hreach, hhosts, hpages⟩
  have htally : Books.tally { scene := s.scene } = ⟨reporting, [], 0, 0⟩ := by
    rw [Books.tally, Scene.tally, hreporting, hjournal]
    cases reporting <;> rfl
  have hkept : b.scene.reporting = reporting := by
    rcases hreach.balances with ⟨more, hlast, _⟩
    rw [htally] at hlast
    exact congrArg Tally.reporting hlast
  have hlast : b.scene = (s.steps sts).1.scene := hhosts.scene
  have htold : b.tally.told =
      (s.steps sts).2.flatMap fun page => reporting.told page.journal := by
    have hfirst : reporting.told s.scene.journal = [] := by
      rw [hjournal]
      cases reporting <;> rfl
    have hturned : b.scene.tally.told = [] := by
      rw [Scene.tally, hkept, hlast]
      exact journal_steps (p := fun j => reporting.told j = []) reporting.told_nextPage hfirst sts
    have hpaged : b.pages = (s.steps sts).2.map Page.journal := hpages
    rw [Books.tally, hturned, hkept, List.append_nil, hpaged, List.flatMap_map]
  have hexplains := hreach.explains rfl htally
  rw [htold, hlast] at hexplains
  exact ⟨b, alone, hreach, hhosts, halone, hexplains⟩

/-- A client that may write one key at a time, in a session whose reporter traces. -/
def tracing : Session :=
  ⟨⟨{ maxBatchSize := some 1 }, 1⟩, {
    scene := { (Scene.newRoot {} "root").2 with
      reporting := .traced
      contexts := [("root", (Scene.newRoot {} "root").1)] } }⟩

/-- The locks cannot be deleted, and then no context is given. -/
def troubled : List Step :=
  [.cacheRules { delete := { fail := some ["gone"] } },
    .writeMany "root" [.numbered "Item" 1, .numbered "Item" 2] [.int 1, .int 2] none,
    .cacheRules { context := { fail := some ["closed"] } },
    .transact "root" [.numbered "Item" 3] [.int 3] none]

theorem told_once_for_each_failed_release_troubled :
    create { maxBatchSize := some 1 } {} 500 .traced = .ok tracing ∧
      ∃ (b : Books) (alone : List Run), Books.Reaches Books.Untold { scene := tracing.scene } b ∧
        b.Hosts ((tracing.steps troubled).1.schedule.crew alone) ∧ alone.length = 1 ∧
        b.Explains .traced
          (List.replicate 2 ⟨none, "root", "put_multi cache delete_multi: gone"⟩)
          (tracing.steps troubled).1.scene.journal := by
  have hcreate : create { maxBatchSize := some 1 } {} 500 .traced = .ok tracing := rfl
  have htold : ((tracing.steps troubled).2.flatMap fun page =>
      Reporting.told .traced page.journal) =
        List.replicate 2 ⟨none, "root", "put_multi cache delete_multi: gone"⟩ := rfl
  have hall := told_once_for_each_failed_release hcreate troubled
  rw [htold] at hall
  exact ⟨hcreate, hall⟩

end Session
end Simulation
end WriteLatch
