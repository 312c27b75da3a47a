import WriteLatch.Proofs.Interleaving.Asked

/-!
# What the journal notes of the calls

The journal notes a call when it begins, and what it notes are the calls that
transactions begin and their asking for contexts.  So the calls that are
recorded beside the steps of a world are those that its collaborators get.
-/

namespace WriteLatch

namespace CollaboratorCall

/-- Whether a call is about keys; otherwise a context is asked for. -/
def isForKeys : CollaboratorCall -> Bool
  | .newContext => false
  | .set _ => true
  | .put _ _ => true
  | .delete _ => true

/-- The keys that are given to the store. -/
def putKeys? : CollaboratorCall -> Option (List Key)
  | .put keys _ => some keys
  | .newContext => none
  | .set _ => none
  | .delete _ => none

end CollaboratorCall

namespace Simulation

open Transaction (Call Job)

/-- How the journal notes a call.  It does not keep values, and it says which keys
were locked when the store was called. -/
inductive NotedAs : Call -> CollaboratorCall -> Prop where
  | set (items : List CacheItem) : NotedAs (.set items) (.set items)
  | put (keys : List Key) (values : List Value) (locked : List Bool) :
      NotedAs (.put keys values) (.put keys locked)
  | delete (slots : List String) : NotedAs (.delete slots) (.delete slots)

/-- What a move notes: the call that begins in it, and nothing else but that a
context was asked for. -/
inductive Notes (job : Job) (before : Scene) (stage : Stage) (after : Scene) (stage' : Stage) :
    Prop where
  | nothing (hbegun : Stage.begun? job stage stage' = none)
      (hcalls : after.journal.calls = before.journal.calls)
  | context (hopening : stage = .opening) (hbegun : Stage.begun? job stage stage' = none)
      (hcalls : after.journal.calls = before.journal.calls ++ [.newContext])
  | call {call : Call} {noted : CollaboratorCall}
      (hbegun : Stage.begun? job stage stage' = some call) (hnoted : NotedAs call noted)
      (hcalls : after.journal.calls = before.journal.calls ++ [noted])

/-!
## What leaves the calls alone
-/

namespace Scene

variable (scene : Scene)

theorem calls_cancelNamed (name : String) :
    (scene.cancelNamed name).journal.calls = scene.journal.calls := by
  unfold cancelNamed
  cases scene.contexts.lookup name <;> rfl

theorem calls_noteInterruption (i : Interruption) :
    (scene.noteInterruption i).journal.calls = scene.journal.calls := by
  cases i <;> rfl

theorem calls_report (ctx : Context) (causes : List String) :
    (scene.report ctx causes).journal.calls = scene.journal.calls := by
  unfold report
  cases scene.reporting <;> rfl

theorem calls_lookForLocks (keys : List Key) :
    (scene.lookForLocks keys).2.journal.calls = scene.journal.calls :=
  eq_of_lookForLocks (f := fun scene => scene.journal.calls) (fun _ _ => rfl) scene keys

theorem calls_serve {ε : Type} (beats : List (Beat ε)) :
    (scene.serve beats).1.journal.calls = scene.journal.calls :=
  eq_of_serve (f := fun scene => scene.journal.calls) calls_cancelNamed (fun _ => rfl) scene beats

end Scene

/-!
## One move
-/

namespace Run

variable {run : Run} {scene : Scene}

/-- What the run is given to do in a scene. -/
def job (run : Run) (scene : Scene) : Job :=
  ⟨scene.scheme, run.ctx, run.keys, run.values⟩

theorem calls_openContext (run : Run) (scene : Scene) :
    (run.openContext scene).1.journal.calls = scene.journal.calls ++ [.newContext] :=
  eq_of_openContext (f := fun scene => scene.journal.calls) Scene.calls_cancelNamed (fun _ _ => rfl)
    run scene

theorem notes_opening (hstage : run.stage = .opening) :
    Notes (run.job scene) scene .opening (run.advance scene).1 (run.advance scene).2.1.stage := by
  rcases run.openContext_spec scene with ⟨opening, hnext, _, _⟩
  have hcalls := run.calls_openContext scene
  simp only [advance, hstage]
  refine Notes.context rfl ?_ hcalls
  rw [hnext]
  exact Stage.begun?_of_after (Stage.isUnderWay_ofPhase _)

theorem notes_locking {c : Context} {call : Progress (List String)}
    (hstage : run.stage = .locking c call) :
    Notes (run.job scene) scene (.locking c call) (run.advance scene).1
      (run.advance scene).2.1.stage := by
  cases call with
  | notBegun =>
      simp only [advance, hstage]
      cases scene.interruption? c with
      | some i => exact Notes.nothing rfl rfl
      | none =>
          dsimp only
          split
          · exact Notes.nothing (by rw [hstage, Stage.begun?_self]) rfl
          · exact Notes.call rfl (NotedAs.set _) rfl
  | serving beats =>
      have hserve := scene.calls_serve beats
      simp only [advance, hstage]
      generalize scene.serve beats = served at hserve
      rcases served with ⟨mid, served⟩
      cases served with
      | completed =>
          dsimp only [setLocks]
          cases mid.cache.setAll mid.cacheNow (run.lockItems mid) with
          | ok cache => exact Notes.nothing rfl hserve
          | error cache => exact Notes.nothing rfl hserve
      | paused resume rest | gaveWay resume rest | crashed message | failed causes =>
          exact Notes.nothing rfl hserve
  | paused resume rest =>
      simp only [advance, hstage]
      cases scene.interruption? c with
      | some i => exact Notes.nothing rfl (scene.calls_noteInterruption i)
      | none =>
          dsimp only
          split
          · exact Notes.nothing rfl rfl
          · exact Notes.nothing (by rw [hstage, Stage.begun?_self]) rfl

theorem notes_writing {c : Context} {rules : List StoreRule} {call : Progress Failure}
    (hstage : run.stage = .writing c rules call) :
    Notes (run.job scene) scene (.writing c rules call) (run.advance scene).1
      (run.advance scene).2.1.stage := by
  cases call with
  | notBegun =>
      simp only [advance, hstage]
      cases scene.interruption? run.ctx with
      | some i => exact Notes.nothing rfl rfl
      | none =>
          dsimp only
          split
          · exact Notes.nothing (by rw [hstage, Stage.begun?_self]) rfl
          · have hlooked := scene.calls_lookForLocks run.keys
            generalize scene.lookForLocks run.keys = looked at hlooked
            rcases looked with ⟨locked, mid⟩
            refine Notes.call rfl (NotedAs.put run.keys run.values locked) ?_
            exact congrArg (· ++ [CollaboratorCall.put run.keys locked]) hlooked
  | serving beats =>
      have hserve := scene.calls_serve beats
      simp only [advance, hstage]
      generalize scene.serve beats = served at hserve
      rcases served with ⟨mid, served⟩
      cases served with
      | completed | paused resume rest | gaveWay resume rest | crashed message | failed f =>
          exact Notes.nothing rfl hserve
  | paused resume rest =>
      simp only [advance, hstage]
      cases scene.interruption? run.ctx with
      | some i => exact Notes.nothing rfl (scene.calls_noteInterruption i)
      | none =>
          dsimp only
          split
          · exact Notes.nothing rfl rfl
          · exact Notes.nothing (by rw [hstage, Stage.begun?_self]) rfl

theorem notes_releaseAnswered {stage : Stage} {mid : Scene} {result : CallResult}
    (answer : CacheAnswer) (hmid : mid.journal.calls = scene.journal.calls) :
    Notes (run.job scene) scene stage (run.releaseAnswered mid result answer).1
      (run.releaseAnswered mid result answer).2.stage := by
  refine Notes.nothing ?_ ?_
  · unfold releaseAnswered
    cases Transaction.releaseCauses? answer <;> exact Stage.begun?_of_after rfl
  · unfold releaseAnswered
    cases Transaction.releaseCauses? answer with
    | none => exact hmid
    | some causes => exact (Scene.calls_report _ run.ctx causes).trans hmid

theorem notes_releasing {c : Context} {result : CallResult} {call : Progress (List String)}
    (hstage : run.stage = .releasing c result call) :
    Notes (run.job scene) scene (.releasing c result call) (run.advance scene).1
      (run.advance scene).2.1.stage := by
  cases call with
  | notBegun =>
      simp only [advance, hstage]
      cases scene.interruption? c with
      | some i => exact notes_releaseAnswered _ rfl
      | none =>
          dsimp only
          split
          · exact Notes.nothing (by rw [hstage, Stage.begun?_self]) rfl
          · exact Notes.call rfl (NotedAs.delete _) rfl
  | serving beats =>
      have hserve := scene.calls_serve beats
      simp only [advance, hstage]
      generalize scene.serve beats = served at hserve
      rcases served with ⟨mid, served⟩
      cases served with
      | completed | failed causes => exact notes_releaseAnswered _ hserve
      | paused resume rest | gaveWay resume rest | crashed message =>
          exact Notes.nothing rfl hserve
  | paused resume rest =>
      simp only [advance, hstage]
      cases scene.interruption? c with
      | some i => exact notes_releaseAnswered _ (scene.calls_noteInterruption i)
      | none =>
          dsimp only
          split
          · exact Notes.nothing rfl rfl
          · exact Notes.nothing (by rw [hstage, Stage.begun?_self]) rfl

/-- The journal notes every call that begins in a move, when it begins. -/
theorem notes_move (run : Run) (scene : Scene) :
    Notes (run.job scene) scene run.stage (run.move scene).1 (run.move scene).2.1.stage := by
  have hadvance : Notes (run.job scene) scene run.stage (run.advance scene).1
      (run.advance scene).2.1.stage := by
    cases hstage : run.stage with
    | opening => exact notes_opening hstage
    | locking c call => exact notes_locking hstage
    | writing c rules call => exact notes_writing hstage
    | releasing c result call => exact notes_releasing hstage
    | ended e =>
        simp only [advance, hstage]
        exact Notes.nothing (Stage.begun?_self _ _) rfl
  rcases run.exists_move_eq scene with ⟨lineage, hmove⟩
  rw [hmove]
  cases hadvance with
  | nothing hbegun hcalls => exact Notes.nothing hbegun hcalls
  | context hopening hbegun hcalls => exact Notes.context hopening hbegun hcalls
  | call hbegun hnoted hcalls => exact Notes.call hbegun hnoted hcalls

end Run

/-!
## Any number of moves
-/

/-- The notes of some calls, in their order, with the askings for contexts among
them. -/
def Noted (calls : List (Nat × Call)) (notes : List CollaboratorCall) : Prop :=
  List.Forall₂ (fun call note => NotedAs call.2 note) calls
    (notes.filter CollaboratorCall.isForKeys)

theorem noted_nil : Noted [] [] :=
  List.Forall₂.nil

theorem Noted.append {calls more : List (Nat × Call)} {notes notes' : List CollaboratorCall}
    (h : Noted calls notes) (hmore : Noted more notes') :
    Noted (calls ++ more) (notes ++ notes') := by
  rw [Noted, List.filter_append]
  exact List.rel_append h hmore

/-- The notes say with which keys the store was called. -/
theorem Noted.filterMap_putKeys? {calls : List (Nat × Call)} {notes : List CollaboratorCall}
    (h : Noted calls notes) :
    notes.filterMap CollaboratorCall.putKeys? = (putsIn calls).map fun given => given.2.1 := by
  have hcontexts : notes.filterMap CollaboratorCall.putKeys? =
      (notes.filter CollaboratorCall.isForKeys).filterMap CollaboratorCall.putKeys? := by
    rw [List.filterMap_filter]
    apply List.filterMap_congr
    intro note _
    cases note <;> rfl
  rw [hcontexts]
  rw [Noted] at h
  generalize notes.filter CollaboratorCall.isForKeys = kept at h
  induction h with
  | nil => rfl
  | @cons call note calls kept hnoted hrest ih =>
      rcases call with ⟨i, call⟩
      rw [List.filterMap_cons, ih, putsIn_cons]
      cases hnoted <;> rfl

namespace World

/-- What a move adds to the journal of a world. -/
theorem exists_notes_moved (w : World) (i : Nat) (writer : Writer) :
    ∃ notes, (w.moved i writer).scene.journal.calls = w.scene.journal.calls ++ notes ∧
      Noted (w.begunBy i writer) notes := by
  have hmove : Notes writer.job (w.sceneOf writer) writer.run.stage (w.moved i writer).scene
      (w.next writer).run.stage := writer.run.notes_move (w.sceneOf writer)
  have hbegins {begun : Option Call} (hbegun :
      Stage.begun? writer.job writer.run.stage (w.next writer).run.stage = begun) :
      w.begunBy i writer = (begun.map (Prod.mk i)).toList := by
    rw [begunBy, hbegun]
  cases hmove with
  | nothing hbegun hcalls =>
      refine ⟨[], ?_, ?_⟩
      · rw [hcalls, List.append_nil]
        rfl
      · rw [hbegins hbegun]
        exact noted_nil
  | context hopening hbegun hcalls =>
      refine ⟨_, hcalls, ?_⟩
      rw [hbegins hbegun]
      exact noted_nil
  | call hbegun hnoted hcalls =>
      refine ⟨_, hcalls, ?_⟩
      rw [hbegins hbegun]
      cases hnoted with
      | set items => exact List.Forall₂.cons (NotedAs.set items) List.Forall₂.nil
      | put keys values locked =>
          exact List.Forall₂.cons (NotedAs.put keys values locked) List.Forall₂.nil
      | delete slots => exact List.Forall₂.cons (NotedAs.delete slots) List.Forall₂.nil

/-- What transactions begin is what the journal notes, as long as nothing but
their moves calls a collaborator. -/
theorem Asks.exists_notes {start w w' : World} {calls : List (Nat × Call)}
    (h : Asks start w calls) (hmoves : Relation.ReflTransGen OwnStep w w') :
    ∃ more notes, Asks start w' (calls ++ more) ∧
      w'.scene.journal.calls = w.scene.journal.calls ++ notes ∧ Noted more notes := by
  induction hmoves with
  | refl =>
      refine ⟨[], [], ?_, (List.append_nil _).symm, noted_nil⟩
      rwa [List.append_nil]
  | @tail between w' hfirst hstep ih =>
      rcases ih with ⟨more, notes, hasks, hjournal, hnoted⟩
      cases hstep with
      | @moved i writer hwriter =>
          rcases between.exists_notes_moved i writer with ⟨last, hlast, hadded⟩
          refine ⟨more ++ between.begunBy i writer, notes ++ last, ?_, ?_, hnoted.append hadded⟩
          · rw [← List.append_assoc]
            exact hasks.moved hwriter
          · rw [hlast, hjournal, List.append_assoc]
      | meanwhile hquiet hcalls =>
          exact ⟨more, notes, hasks.meanwhile hquiet, hcalls.trans hjournal, hnoted⟩

end World

end Simulation
end WriteLatch
