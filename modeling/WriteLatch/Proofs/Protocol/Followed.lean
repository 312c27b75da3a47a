import WriteLatch.Proofs.Interleaving.Answers
import WriteLatch.Proofs.Interleaving.Journal
import WriteLatch.Proofs.Protocol.Order

/-!
# Transactions in a world follow courses

What a transaction does in a world, among others and with whatever faults its
collaborators have, is a course of it, as long as no collaborator crashes under
it.  The calls of the course are those that the transaction begins, and so those
that the journal notes.  What it hears from the cache is what the history says
it has done there, and what it hears from the store is the store's reply.  So the
transactions of every world keep the order of the calls.
-/

namespace WriteLatch

namespace Transaction.Act

def call? : Act -> Option Call
  | .began call => some call
  | _ => none

/-- How the call has ended that was to delete the locks, or that has set them. -/
def ofLocks? : Act -> Option Ended
  | .ended (.set (.returned (.ok u))) => some (.set (.returned (.ok u)))
  | .ended (.delete answer) => some (.delete answer)
  | _ => none

theorem filterMap_call?_began (begun : Option Call) :
    (begun.toList.map began).filterMap call? = begun.toList := by
  cases begun <;> rfl

theorem filterMap_ofLocks?_began (begun : Option Call) :
    (begun.toList.map began).filterMap ofLocks? = [] := by
  cases begun <;> rfl

theorem filterMap_call?_ended (e : Ended) : (ended e :: e.reports).filterMap call? = [] := by
  cases e with
  | set answer | put answer => rfl
  | delete answer =>
      simp only [Ended.reports]
      cases releaseCauses? answer <;> rfl

theorem filterMap_ofLocks?_delete (answer : CacheAnswer) :
    (ended (.delete answer) :: (Ended.delete answer).reports).filterMap ofLocks? =
      [.delete answer] := by
  simp only [Ended.reports]
  cases releaseCauses? answer <;> rfl

end Transaction.Act

/-- How a call must have ended for the deed to be done. -/
def Deed.ended : Deed -> Transaction.Ended
  | .set _ _ => .set (.returned (.ok ()))
  | .erased _ => .delete (.returned (.ok ()))
  | .reported answer => .delete answer

namespace Simulation

open Transaction (Act Call Course Ended Job)

/-- A course has come as far as a transaction in a stage. -/
structure Shows (t : Course) (stage : Stage) (scene : Scene) : Prop where
  phase : stage.phase? = some t.phase
  underWay : t.underWay = stage.isUnderWay
  moment : t.moment = scene.moment

/-- The acts are what a transaction does and hears in a move. -/
structure Acted (writer : Writer) (scene : Scene) (stage' : Stage) (acts : List Act) : Prop where
  calls : acts.filterMap Act.call? =
    (Stage.begun? writer.job writer.run.stage stage').toList
  locks : acts.filterMap Act.ofLocks? = ((writer.run.deed? scene).map Deed.ended).toList
  replies : ∀ reply, .ended (.put (.returned reply)) ∈ acts ->
    (∃ f, reply = Transaction.wholesale f) ∨ writer.run.reply? scene = some reply

/-!
## One move
-/

section Moves

variable {job : Job} {t : Course} {scene : Scene} {c : Context}

/-- A call that has ended in the scene can end in the course. -/
theorem step_ended {ε : Type} {call : Progress ε} {answer : Answer (Except ε Unit)}
    {due : Call} {e : Ended} {next : Transaction.Phase}
    (hended : Ends scene c call answer) (hmoment : t.moment = scene.moment)
    (hdue : job.due? t.phase = some (c, due)) (hnext : t.phase.after? e = some next)
    (hunderWay : t.underWay = call.hasBegun) (he : e.interruption? = answer.interruption?) :
    Course.Step job t (t.afterEnd e next) := by
  cases hended with
  | interrupted hcall hover =>
      apply Course.Step.interrupted hdue hnext he
      rw [hmoment]
      exact Moment.ends_of_interruption? hover
  | failed hserved | completed hserved => exact Course.Step.returned hnext hunderWay he

theorem Run.interruption?_storeAnswer (run : Run) (scene : Scene) (rules : List StoreRule)
    (answer : Answer (Except Failure Unit)) :
    (Ended.put (run.storeAnswer scene rules answer)).interruption? = answer.interruption? := by
  cases answer with
  | interrupted i => rfl
  | returned reply => cases reply <;> rfl

/-- What the store has replied when a call of it has ended. -/
theorem Run.reply?_of_ends {run : Run} {rules : List StoreRule} {call : Progress Failure}
    {answer : Answer (Except Failure Unit)} {reply : CallResult}
    (hstage : run.stage = .writing c rules call) (hended : Ends scene run.ctx call answer)
    (hreply : run.storeAnswer scene rules answer = .returned reply) :
    (∃ f, reply = Transaction.wholesale f) ∨ run.reply? scene = some reply := by
  cases hended with
  | interrupted hcall hover => cases hreply
  | failed hserved =>
      cases hreply
      exact Or.inl ⟨_, rfl⟩
  | completed hserved =>
      cases hreply
      right
      simp only [reply?, hstage, hserved]

/-- What is done in a move in which a call to delete the locks has ended. -/
theorem Run.deed?_of_ends {run : Run} {result : CallResult} {call : Progress (List String)}
    {answer : CacheAnswer} (hstage : run.stage = .releasing c result call)
    (hended : Ends scene c call answer) :
    ((run.deed? scene).map Deed.ended).toList = [.delete answer] := by
  cases hended with
  | interrupted hcall hover =>
      cases call with
      | notBegun | paused resume rest =>
          simp only [deed?, hstage, hover]
          rfl
      | serving beats => cases hcall
  | @failed beats _ hserved | @completed beats hserved =>
      cases hserve : scene.serve beats with
      | mk mid served =>
          rw [hserve] at hserved
          cases hserved
          simp only [deed?, hstage, hserve]
          rfl

/-- A stage that a transaction stays in goes with no deed. -/
theorem Leads.eq_none {run : Run} {stage stage' : Stage} {deed : Option Deed}
    (h : Leads run scene stage deed stage') (hsame : stage'.phase? = stage.phase?) :
    deed = none := by
  cases h with
  | set c beats now => cases hsame
  | deleted c result beats | deleteFailed c result beats causes
  | deleteInterrupted result call hover => cases hsame
  | rests stage | refused result | opened hwithin | setGoesOn c call call'
  | setFailed c call result | setCrashed c beats message | putGoesOn c rules rules' call call'
  | put c rules call result | putCrashed c rules beats message
  | deleteStarts result call beats hgoesOn | deletePauses c result beats rest resume
  | deleteCrashed c result beats message => rfl

section Acts

variable {writer : Writer} {stage' : Stage}

theorem acted_nothing (hstage : stage' = writer.run.stage) (hdeed : writer.run.deed? scene = none) :
    Acted writer scene stage' [] where
  calls := by
    rw [hstage, Stage.begun?_self]
    rfl
  locks := by
    rw [hdeed]
    rfl
  replies := fun _ hmem => nomatch hmem

theorem acted_opened {answer : Except (List String) Context}
    (hstage : writer.run.stage = .opening) :
    Acted writer scene (.ofPhase (Transaction.opened answer)) [.opened answer] where
  calls := by
    rw [Stage.begun?_of_after (Stage.isUnderWay_ofPhase _)]
    rfl
  locks := by
    simp only [Run.deed?, hstage]
    rfl
  replies := by
    intro reply hmem
    cases List.mem_singleton.mp hmem

theorem acted_goesOn (hdeed : writer.run.deed? scene = none) :
    Acted writer scene stage'
      ((Stage.begun? writer.job writer.run.stage stage').toList.map .began) where
  calls := Act.filterMap_call?_began _
  locks := by
    rw [hdeed]
    exact Act.filterMap_ofLocks?_began _
  replies := by
    intro reply hmem
    rcases List.mem_map.mp hmem with ⟨call, _, heq⟩
    cases heq

theorem acted_ended {e : Ended} {next : Transaction.Phase}
    (hlocks : (Act.ended e :: e.reports).filterMap Act.ofLocks? =
      ((writer.run.deed? scene).map Deed.ended).toList)
    (hreplies : ∀ reply, e = .put (.returned reply) ->
      (∃ f, reply = Transaction.wholesale f) ∨ writer.run.reply? scene = some reply) :
    Acted writer scene (.ofPhase next) (.ended e :: e.reports) where
  calls := by
    rw [Act.filterMap_call?_ended, Stage.begun?_of_after (Stage.isUnderWay_ofPhase _)]
    rfl
  locks := hlocks
  replies := by
    intro reply hmem
    rcases List.mem_cons.mp hmem with heq | hreport
    · exact hreplies reply (Act.ended.inj heq).symm
    · cases e with
      | set answer | put answer => cases hreport
      | delete answer =>
          rcases List.mem_map.mp hreport with ⟨causes, _, heq⟩
          cases heq

end Acts

/-- A call that goes on in the scene begins in the course if it begins there. -/
theorem Shows.goesOn {writer : Writer} {before after : Stage} {ε : Type} {beats : List (Beat ε)}
    {call call' : Progress ε} {due : Call} (h : Shows t before scene)
    (hgoesOn : GoesOn scene c beats call call') (hstage : writer.run.stage = before)
    (hdeed : writer.run.deed? scene = none) (hdue : writer.job.due? t.phase = some (c, due))
    (hbefore : before.isUnderWay = call.hasBegun) (hafter : after.isUnderWay = call'.hasBegun)
    (hphase : after.phase? = before.phase?) :
    ∃ t' acts, Course.Reaches writer.job t t' ∧ Shows t' after scene ∧
      t'.acts = t.acts ++ acts ∧ Acted writer scene after acts := by
  have hacted := @acted_goesOn scene writer after hdeed
  rw [hstage] at hacted
  cases hgoesOn with
  | begins hover =>
      have hfree : c.interruption? t.moment.tokens t.moment.now = none := by
        rw [h.moment]
        exact hover
      have hbegun : Stage.begun? writer.job before after = some due := by
        rw [Stage.begun?, hbefore, hafter, h.phase]
        exact congrArg (Option.map Prod.snd) hdue
      rw [hbegun] at hacted
      exact ⟨_, _, Relation.ReflTransGen.single
        (Course.Step.began hdue (h.underWay.trans hbefore) hfree),
        ⟨hphase.trans h.phase, hafter.symm, h.moment⟩, rfl, hacted⟩
  | pauses hserved | resumes resume rest hover =>
      rw [Stage.begun?_of_before hbefore] at hacted
      exact ⟨t, _, Relation.ReflTransGen.refl,
        ⟨hphase.trans h.phase, (h.underWay.trans hbefore).trans hafter.symm, h.moment⟩,
        (List.append_nil _).symm, hacted⟩

/-- What a move makes of a transaction is some steps of its course. -/
theorem Shows.turns {writer : Writer} {stage' : Stage} {store : Store}
    (h : Shows t writer.run.stage scene)
    (hturns : Turns writer.run scene writer.run.stage store stage')
    (hleads : Leads writer.run scene writer.run.stage (writer.run.deed? scene) stage')
    (hgoesOn : ∀ message, stage' ≠ .ended (.crashed message)) :
    ∃ t' acts, Course.Reaches writer.job t t' ∧ Shows t' stage' scene ∧
      t'.acts = t.acts ++ acts ∧ Acted writer scene stage' acts := by
  have hended {e : Ended} {next : Transaction.Phase}
      (hstep : Course.Step writer.job t (t.afterEnd e next))
      (hacted : Acted writer scene (.ofPhase next) (.ended e :: e.reports)) :
      ∃ t' acts, Course.Reaches writer.job t t' ∧ Shows t' (.ofPhase next) scene ∧
        t'.acts = t.acts ++ acts ∧ Acted writer scene (.ofPhase next) acts :=
    ⟨_, _, Relation.ReflTransGen.single hstep,
      ⟨Stage.phase?_ofPhase _, (Stage.isUnderWay_ofPhase _).symm, h.moment⟩, rfl, hacted⟩
  generalize hstage : writer.run.stage = stage at h hturns hleads
  rcases t with ⟨phase, underWay, acts, moment⟩
  have hphase := h.phase
  cases hturns with
  | rests stage =>
      exact ⟨_, [], Relation.ReflTransGen.refl, h, (List.append_nil _).symm,
        acted_nothing hstage.symm (hleads.eq_none rfl)⟩
  | @opened answer hanswer =>
      cases hphase
      exact ⟨_, _, Relation.ReflTransGen.single (Course.Step.opened answer rfl),
        ⟨Stage.phase?_ofPhase _, h.underWay.trans (Stage.isUnderWay_ofPhase _).symm, h.moment⟩,
        rfl, acted_opened hstage⟩
  | setGoesOn hcall | putGoesOn hrules hcall | deleteGoesOn hcall =>
      cases hphase
      exact h.goesOn hcall hstage (hleads.eq_none rfl) rfl rfl rfl rfl
  | @setEnded c call answer hanswered =>
      cases hphase
      apply hended (step_ended hanswered h.moment rfl rfl h.underWay (e := .set answer) rfl)
      apply acted_ended
      · generalize writer.run.deed? scene = deed at hleads ⊢
        rcases answer with i | (causes | u) <;> cases hleads <;> rfl
      · intro reply heq
        cases heq
  | @putEnded c rules call answer hanswered =>
      cases hphase
      apply hended (step_ended hanswered h.moment rfl rfl h.underWay
        (e := .put (writer.run.storeAnswer scene rules answer))
        (writer.run.interruption?_storeAnswer scene rules answer))
      apply acted_ended
      · simp only [Run.deed?, hstage]
        rfl
      · intro reply heq
        exact Run.reply?_of_ends hstage hanswered (Ended.put.inj heq)
  | @deleteEnded c result call answer hanswered =>
      cases hphase
      apply hended (step_ended hanswered h.moment rfl rfl h.underWay (e := .delete answer) rfl)
      apply acted_ended
      · rw [Run.deed?_of_ends hstage hanswered]
        exact Act.filterMap_ofLocks?_delete answer
      · intro reply heq
        cases heq
  | setCrashed c beats message | putCrashed c rules beats message
  | deleteCrashed c result beats message => exact absurd rfl (hgoesOn message)

end Moves

/-!
## Any number of steps
-/

namespace World

theorem quiet_precedes {before after : Scene} (h : before.Quiet after) :
    before.moment.Precedes after.moment :=
  ⟨h.now, h.cancelled⟩

/-- A deed ends no context and takes no time. -/
theorem moment_after (scene : Scene) (ctx : Context) (deed : Deed) :
    (scene.after ctx deed).moment = scene.moment := by
  cases deed with
  | set now items | erased slots => rfl
  | reported answer =>
      rw [Scene.after, Scene.moment, scene.tokens_afterReport ctx answer,
        scene.now_afterReport ctx answer]
      rfl

theorem Step.precedes {w w' : World} (h : Step w w') :
    w.scene.moment.Precedes w'.scene.moment := by
  cases h.adds with
  | nothing hhistory hquiet => exact quiet_precedes hquiet
  | @deed mid ctx entry hhistory hbefore hproper hafter =>
      have hfirst := quiet_precedes hbefore
      have hlast := quiet_precedes hafter
      rw [moment_after] at hlast
      exact ⟨Nat.le_trans hfirst.now hlast.now,
        fun t hmem => hlast.cancelled t (hfirst.cancelled t hmem)⟩

/-- The course is what the transaction at a position has done on the way from one world to
another, and what it was answered. -/
structure Recounts (start w : World) (i : Nat) (writer : Writer) (calls : List (Nat × Call))
    (t : Course) : Prop where
  reaches : Course.Reaches writer.job { moment := start.scene.moment } t
  shows : Shows t writer.run.stage w.scene
  calls : t.acts.filterMap Act.call? = callsBy i calls
  locks : t.acts.filterMap Act.ofLocks? = (w.deedsOf i).reverse.map Deed.ended
  replies : ∀ reply, .ended (.put (.returned reply)) ∈ t.acts ->
    (∃ f, reply = Transaction.wholesale f) ∨ Replied start w i reply

section Steps

variable {start w w' : World} {i : Nat} {writer : Writer} {calls : List (Nat × Call)} {t : Course}

theorem recounts_of_fresh (hfresh : start.Fresh) (hwriter : start.writers[i]? = some writer) :
    Recounts start start i writer [] { moment := start.scene.moment } where
  reaches := Relation.ReflTransGen.refl
  shows := by
    rw [hfresh.opening writer (List.mem_of_getElem? hwriter)]
    exact ⟨rfl, rfl, rfl⟩
  calls := rfl
  locks := by
    rw [deedsOf, hfresh.history]
    rfl
  replies := fun _ hmem => nomatch hmem

/-- The transaction has not moved. -/
theorem Recounts.later (h : Recounts start w i writer calls t) (more : List (Nat × Call))
    (hstep : Step w w') (hdeeds : w'.deedsOf i = w.deedsOf i) (hmore : callsBy i more = []) :
    Recounts start w' i writer (calls ++ more) { t with moment := w'.scene.moment } where
  reaches := by
    apply h.reaches.tail
    apply Course.Step.passes
    rw [h.shows.moment]
    exact hstep.precedes
  shows := ⟨h.shows.phase, h.shows.underWay, rfl⟩
  calls := by
    rw [callsBy_append, hmore, List.append_nil]
    exact h.calls
  locks := by
    rw [hdeeds]
    exact h.locks
  replies := fun reply hmem =>
    (h.replies reply hmem).imp_right fun hreplied => hreplied.tail hstep

theorem Recounts.moved (h : Recounts start w i writer calls t) (hreach : Reaches start w)
    (hwriter : w.writers[i]? = some writer)
    (hgoesOn : ∀ message, (w.next writer).run.stage ≠ .ended (.crashed message)) :
    ∃ t', Recounts start (w.moved i writer) i (w.next writer) (calls ++ w.begunBy i writer) t' := by
  have hstep : Step w (w.moved i writer) := Step.moved hwriter
  have hshows : Shows t writer.run.stage (w.sceneOf writer) :=
    ⟨h.shows.phase, h.shows.underWay, h.shows.moment⟩
  rcases hshows.turns (w.turns_moved i writer) (writer.run.moved_move (w.sceneOf writer)).stage
    hgoesOn with ⟨t', acts, hmoves, hnext, hacts, hacted⟩
  refine ⟨{ t' with moment := (w.moved i writer).scene.moment }, ?_, ?_, ?_, ?_, ?_⟩
  · rw [(w.continues_next writer).job_eq]
    apply (h.reaches.trans hmoves).tail
    apply Course.Step.passes
    rw [hnext.moment]
    exact hstep.precedes
  · exact ⟨hnext.phase, hnext.underWay, rfl⟩
  · rw [hacts, List.filterMap_append, h.calls, hacted.calls, callsBy_append, callsBy_begunBy_self]
  · rw [hacts, List.filterMap_append, h.locks, hacted.locks, deedsOf_moved_self]
    cases writer.run.deed? (w.sceneOf writer) <;> simp
  · intro reply hmem
    rw [hacts] at hmem
    rcases List.mem_append.mp hmem with hold | hnew
    · exact (h.replies reply hold).imp_right fun hreplied => hreplied.tail hstep
    · exact (hacted.replies reply hnew).imp_right fun hreply =>
        ⟨w, writer, hreach, hwriter, hreply, Relation.ReflTransGen.refl⟩

end Steps

/-- A transaction that no collaborator has crashed under has followed one of its
courses, with the calls that it has begun and the answers that it was given. -/
theorem exists_course {start w : World} {calls : List (Nat × Call)} {i : Nat} {writer : Writer}
    (hfresh : start.Fresh) (hasks : Asks start w calls) (hwriter : w.writers[i]? = some writer)
    (hgoesOn : ∀ message, writer.run.stage ≠ .ended (.crashed message)) :
    ∃ t, Recounts start w i writer calls t := by
  have hstays {between w' : World} {calls : List (Nat × Call)} {writer : Writer}
      (ih : ∃ t, Recounts start between i writer calls t) (hstep : Step between w')
      (hdeeds : w'.deedsOf i = between.deedsOf i) : ∃ t, Recounts start w' i writer calls t := by
    rcases ih with ⟨t, hrecounts⟩
    have hlater := hrecounts.later [] hstep hdeeds rfl
    rw [List.append_nil] at hlater
    exact ⟨_, hlater⟩
  induction hasks generalizing writer with
  | start => exact ⟨_, recounts_of_fresh hfresh hwriter⟩
  | @moved between calls j mover hbefore hmover ih =>
      rcases getElem?_moved hwriter with ⟨hij, hnext⟩ | ⟨hij, hsame⟩
      · rw [hnext] at hgoesOn ⊢
        rw [← hij] at hmover ⊢
        have hmoverGoesOn (message : String) : mover.run.stage ≠ .ended (.crashed message) := by
          intro hcrashed
          apply hgoesOn message
          have hturns := between.turns_moved i mover
          rw [hcrashed] at hturns
          exact eq_of_turns_ended hturns
        rcases ih hmover hmoverGoesOn with ⟨t, hrecounts⟩
        exact hrecounts.moved hbefore.reaches hmover hgoesOn
      · rcases ih hsame hgoesOn with ⟨t, hrecounts⟩
        exact ⟨_, hrecounts.later _ (Step.moved hmover) (deedsOf_moved_of_ne hij between mover)
          (callsBy_begunBy_of_ne (Ne.symm hij) between mover)⟩
  | stored h items ih => exact hstays (ih hwriter hgoesOn) (Step.stored items) rfl
  | erased h slots ih => exact hstays (ih hwriter hgoesOn) (Step.erased slots) rfl
  | meanwhile h hquiet ih => exact hstays (ih hwriter hgoesOn) (Step.meanwhile hquiet) rfl

/-- While nothing but moves calls a collaborator, the calls that the journal notes are those
of the courses that the transactions follow.  Every transaction keeps the order of
the calls, and what it has finished with is the result of its course. -/
theorem exists_orderly_courses {start w : World} (hfresh : start.Fresh)
    (hmoves : Relation.ReflTransGen OwnStep start w) :
    ∃ calls notes, w.scene.journal.calls = start.scene.journal.calls ++ notes ∧
      Noted calls notes ∧
      ∀ (i : Nat) (writer : Writer) (result : CallResult), w.writers[i]? = some writer ->
        writer.run.stage = .ended (.finished result) ->
          ∃ t, Recounts start w i writer calls t ∧ Transaction.Orderly writer.job t ∧
            t.phase = .finished result := by
  rcases Asks.start.exists_notes hmoves with ⟨calls, notes, hasks, hjournal, hnoted⟩
  refine ⟨calls, notes, hjournal, hnoted, ?_⟩
  intro i writer result hwriter hend
  have hgoesOn (message : String) : writer.run.stage ≠ .ended (.crashed message) := by
    rw [hend]
    intro hcrashed
    cases hcrashed
  rcases exists_course hfresh hasks hwriter hgoesOn with ⟨t, hrecounts⟩
  have hfirst : Course.Fresh { moment := start.scene.moment } := ⟨rfl, rfl, rfl⟩
  refine ⟨t, hrecounts, (Course.Reaches.tells hrecounts.reaches hfirst.tells).orderly, ?_⟩
  have hphase := hrecounts.shows.phase
  rw [hend] at hphase
  exact (Option.some.inj hphase).symm

end World
end Simulation
end WriteLatch
