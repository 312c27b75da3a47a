import Mathlib.Data.List.Nodup
import WriteLatch.Proofs.Interleaving.Calls
import WriteLatch.Proofs.Protocol.Course

/-!
# What is asked of the collaborators

The calls that transactions begin are recorded beside the steps of a world, each
with the position of the transaction that begins it.  In whatever order the
transactions take turns, each of them begins its calls in their order and each
of them once at most.  One that has set its locks calls the store unless its
context has ended before it could.
-/

namespace WriteLatch
namespace Simulation

open Transaction (Call Job)

/-!
## The call that begins in a move
-/

def Progress.hasBegun {ε : Type} : Progress ε -> Bool
  | .notBegun => false
  | .serving _ => true
  | .paused _ _ => true

namespace Stage

def phase? : Stage -> Option Transaction.Phase
  | .opening => some .opening
  | .locking c _ => some (.locking c)
  | .writing c _ _ => some (.writing c)
  | .releasing c result _ => some (.releasing c result)
  | .ended (.finished result) => some (.finished result)
  | .ended (.crashed _) => none

def isUnderWay : Stage -> Bool
  | .locking _ call => call.hasBegun
  | .writing _ _ call => call.hasBegun
  | .releasing _ _ call => call.hasBegun
  | .opening => false
  | .ended _ => false

theorem phase?_ofPhase (phase : Transaction.Phase) : (ofPhase phase).phase? = some phase := by
  cases phase <;> rfl

theorem isUnderWay_ofPhase (phase : Transaction.Phase) : (ofPhase phase).isUnderWay = false := by
  cases phase <;> rfl

end Stage

def Scene.moment (scene : Scene) : Moment :=
  ⟨scene.tokens, scene.now⟩

def Writer.job (writer : Writer) : Job :=
  ⟨writer.scheme, writer.run.ctx, writer.run.keys, writer.run.values⟩

theorem World.Continues.job_eq {writer' writer : Writer} (h : World.Continues writer' writer) :
    writer'.job = writer.job := by
  rw [Writer.job, Writer.job, h.scheme, h.ctx, h.keys, h.values]

/-- The call that is under way in the stage after and was not in the stage
before, if there is one. -/
def Stage.begun? (job : Job) (before after : Stage) : Option Call :=
  match before.isUnderWay, after.isUnderWay with
  | false, true => (before.phase?.bind job.due?).map Prod.snd
  | _, _ => none

theorem Stage.begun?_of_after {job : Job} {before after : Stage}
    (h : after.isUnderWay = false) : Stage.begun? job before after = none := by
  rw [begun?, h]
  cases before.isUnderWay <;> rfl

theorem Stage.begun?_of_before {job : Job} {before after : Stage}
    (h : before.isUnderWay = true) : Stage.begun? job before after = none := by
  rw [begun?, h]

theorem Stage.begun?_self (job : Job) (stage : Stage) : Stage.begun? job stage stage = none := by
  cases h : stage.isUnderWay with
  | false => exact begun?_of_after h
  | true => exact begun?_of_before h

/-!
## The calls of one transaction
-/

/-- The call, if it was made. -/
def asked (made : Bool) (call : Call) : List Call :=
  if made then [call] else []

/-- The locks were not set. -/
def Unset (deeds : List Deed) : Prop :=
  ∀ now items, .set now items ∉ deeds

/-- The calls of a transaction that is through with setting its locks and writing,
by what it has done and whether its context is over. -/
inductive Tried (job : Job) (deeds : List Deed) (lapsed : Bool) : List Call -> Prop where
  | unset (made : Bool) (h : Unset deeds) : Tried job deeds lapsed (asked made job.set)
  | late (h : lapsed = true) : Tried job deeds lapsed [job.set]
  | put : Tried job deeds lapsed [job.set, job.put]

/-- The calls of a transaction in a stage. -/
def Asked (job : Job) (deeds : List Deed) (lapsed : Bool) (calls : List Call) : Stage -> Prop
  | .opening => Unset deeds ∧ calls = []
  | .locking _ call => Unset deeds ∧ calls = asked call.hasBegun job.set
  | .writing _ _ call => calls = job.set :: asked call.hasBegun job.put
  | .releasing _ _ call => ∃ tried, Tried job deeds lapsed tried ∧
      calls = tried ++ asked call.hasBegun job.delete
  | .ended _ => ∃ tried made, Tried job deeds lapsed tried ∧
      calls = tried ++ asked made job.delete

/-- A move that does not lead on to writing does not set the locks. -/
theorem Unset.leads {run : Run} {scene : Scene} {stage stage' : Stage} {deed : Option Deed}
    {deeds : List Deed} (h : Unset deeds) (hleads : Leads run scene stage deed stage')
    (hstage' : ∀ c, stage' ≠ .writing c [] .notBegun) : Unset (deed.toList ++ deeds) := by
  have hother (other : Deed) (hother : ∀ now items, other ≠ .set now items) :
      Unset (other :: deeds) := by
    intro now items hmem
    rcases List.mem_cons.mp hmem with heq | hold
    · exact hother now items heq.symm
    · exact h now items hold
  cases hleads with
  | set c beats now => exact absurd rfl (hstage' c)
  | deleted c result beats => exact hother _ (fun now items heq => by cases heq)
  | deleteFailed c result beats causes => exact hother _ (fun now items heq => by cases heq)
  | deleteInterrupted result call hinterrupted =>
      exact hother _ (fun now items heq => by cases heq)
  | rests stage => exact h
  | refused result => exact h
  | opened hwithin => exact h
  | setGoesOn c call call' => exact h
  | setFailed c call result => exact h
  | setCrashed c beats message => exact h
  | putGoesOn c rules rules' call call' => exact h
  | put c rules call result => exact h
  | putCrashed c rules beats message => exact h
  | deleteStarts result call beats hgoesOn => exact h
  | deletePauses c result beats rest resume => exact h
  | deleteCrashed c result beats message => exact h

section Moves

variable {job : Job} {deeds deeds' : List Deed} {lapsed lapsed' : Bool} {calls tried : List Call}

theorem Tried.later (h : Tried job deeds lapsed tried) (hunset : Unset deeds -> Unset deeds')
    (hover : lapsed = true -> lapsed' = true) : Tried job deeds' lapsed' tried := by
  cases h with
  | unset made hnone => exact Tried.unset made (hunset hnone)
  | late hlate => exact Tried.late (hover hlate)
  | put => exact Tried.put

/-- The transaction has stayed in its stage. -/
theorem Asked.later {stage : Stage} (h : Asked job deeds lapsed calls stage)
    (hunset : (∀ c, stage ≠ .writing c [] .notBegun) -> Unset deeds -> Unset deeds')
    (hover : lapsed = true -> lapsed' = true) : Asked job deeds' lapsed' calls stage := by
  cases stage with
  | opening | locking c call =>
      exact ⟨hunset (fun c heq => by cases heq) h.1, h.2⟩
  | writing c rules call => exact h
  | releasing c result call =>
      rcases h with ⟨tried, htried, hcalls⟩
      exact ⟨tried, htried.later (hunset fun c heq => by cases heq) hover, hcalls⟩
  | ended e =>
      rcases h with ⟨tried, made, htried, hcalls⟩
      exact ⟨tried, made, htried.later (hunset fun c heq => by cases heq) hover, hcalls⟩

/-- A call that goes on is asked for if it begins, and has been asked for before
if it does not. -/
theorem asked_goesOn {ε : Type} {scene : Scene} {c : Context} {beats : List (Beat ε)}
    {call call' : Progress ε} (h : GoesOn scene c beats call call') {before after : Stage}
    {due : Call} (hbefore : before.isUnderWay = call.hasBegun)
    (hafter : after.isUnderWay = call'.hasBegun)
    (hdue : (before.phase?.bind job.due?).map Prod.snd = some due) :
    asked call.hasBegun due ++ (Stage.begun? job before after).toList =
      asked call'.hasBegun due := by
  cases h with
  | begins hfree =>
      have hbegun : Stage.begun? job before after = some due := by
        rw [Stage.begun?, hbefore, hafter]
        exact hdue
      rw [hbegun]
      rfl
  | pauses hserved =>
      rw [Stage.begun?_of_before hbefore]
      rfl
  | resumes resume rest hfree =>
      rw [Stage.begun?_of_before hbefore]
      rfl

/-- One move of a transaction. -/
theorem Asked.turns {writer : Writer} {scene : Scene} {stage stage' : Stage} {store : Store}
    (h : Asked writer.job deeds (writer.run.ctx.isOver scene.tokens scene.now) calls stage)
    (hturns : Turns writer.run scene stage store stage')
    (hunset : (∀ c, stage' ≠ .writing c [] .notBegun) -> Unset deeds -> Unset deeds')
    (hover : writer.run.ctx.isOver scene.tokens scene.now = true -> lapsed' = true) :
    Asked writer.job deeds' lapsed' (calls ++ (Stage.begun? writer.job stage stage').toList)
      stage' := by
  cases hturns with
  | rests stage =>
      rw [Stage.begun?_self, Option.toList_none, List.append_nil]
      exact h.later hunset hover
  | @opened answer hanswer =>
      rw [Stage.begun?_of_after (Stage.isUnderWay_ofPhase _), h.2]
      cases answer with
      | ok c => exact ⟨hunset (fun c heq => by cases heq) h.1, rfl⟩
      | error causes =>
          exact ⟨_, false, Tried.unset false (hunset (fun c heq => by cases heq) h.1), rfl⟩
  | @setGoesOn c call call' hcall =>
      refine ⟨hunset (fun c heq => by cases heq) h.1, ?_⟩
      rw [h.2]
      exact asked_goesOn hcall rfl rfl rfl
  | @setEnded c call answer hended =>
      rw [Stage.begun?_of_after (Stage.isUnderWay_ofPhase _), h.2, Option.toList_none,
        List.append_nil]
      cases hended with
      | completed hserved => rfl
      | interrupted hcall hlate =>
          exact ⟨_, Tried.unset call.hasBegun (hunset (fun c heq => by cases heq) h.1),
            (List.append_nil _).symm⟩
      | failed hserved =>
          exact ⟨_, Tried.unset true (hunset (fun c heq => by cases heq) h.1), rfl⟩
  | setCrashed c beats message =>
      rw [Stage.begun?_of_after rfl, h.2]
      exact ⟨_, false, Tried.unset true (hunset (fun c heq => by cases heq) h.1), rfl⟩
  | @putGoesOn c rules rules' call call' hrules hcall =>
      have hcalls : calls = writer.job.set :: asked call.hasBegun writer.job.put := h
      rw [hcalls, List.cons_append, asked_goesOn hcall rfl rfl rfl]
      rfl
  | @putEnded c rules call answer hended =>
      have hcalls : calls = writer.job.set :: asked call.hasBegun writer.job.put := h
      have htried : Tried writer.job deeds' lapsed' calls := by
        rw [hcalls]
        cases hended with
        | completed hserved | failed hserved => exact Tried.put
        | interrupted hcall hlate =>
            cases call with
            | notBegun =>
                apply Tried.late
                apply hover
                rw [Context.isOver]
                exact Option.isSome_iff_exists.mpr ⟨_, hlate⟩
            | serving beats | paused resume rest => exact Tried.put
      rw [Stage.begun?_of_after (Stage.isUnderWay_ofPhase _), Option.toList_none, List.append_nil]
      rcases hanswer : writer.run.storeAnswer scene rules answer with i | result
      · exact ⟨calls, htried, (List.append_nil _).symm⟩
      · exact ⟨calls, htried, (List.append_nil _).symm⟩
  | putCrashed c rules beats message =>
      have hcalls : calls = [writer.job.set, writer.job.put] := h
      rw [Stage.begun?_of_after rfl, hcalls]
      exact ⟨_, false, Tried.put, rfl⟩
  | @deleteGoesOn c result call call' hcall =>
      rcases h with ⟨tried, htried, hcalls⟩
      refine ⟨tried, htried.later (hunset fun c heq => by cases heq) hover, ?_⟩
      rw [hcalls, List.append_assoc, asked_goesOn hcall rfl rfl rfl]
  | @deleteEnded c result call answer hended =>
      rcases h with ⟨tried, htried, hcalls⟩
      rw [Stage.begun?_of_after (Stage.isUnderWay_ofPhase _), Option.toList_none, List.append_nil]
      exact ⟨tried, call.hasBegun, htried.later (hunset fun c heq => by cases heq) hover, hcalls⟩
  | deleteCrashed c result beats message =>
      rcases h with ⟨tried, htried, hcalls⟩
      rw [Stage.begun?_of_after rfl, Option.toList_none, List.append_nil]
      exact ⟨tried, true, htried.later (hunset fun c heq => by cases heq) hover, hcalls⟩

/-- A transaction that has ended, has set its locks and whose context has gone on
has called the store once. -/
theorem Asked.of_set {e : Client.TaskEnd} (h : Asked job deeds lapsed calls (.ended e))
    (hset : ∃ now items, .set now items ∈ deeds) (hover : lapsed = false) :
    ∃ made, calls = job.set :: job.put :: asked made job.delete := by
  rcases h with ⟨tried, made, htried, hcalls⟩
  rcases hset with ⟨now, items, hmem⟩
  cases htried with
  | unset made' hunset => exact absurd hmem (hunset now items)
  | late hlate =>
      rw [hover] at hlate
      cases hlate
  | put => exact ⟨made, hcalls⟩

end Moves

/-!
## The calls of a world
-/

namespace World

/-- What the writer at a position begins in its next move. -/
def begunBy (w : World) (i : Nat) (writer : Writer) : List (Nat × Call) :=
  ((Stage.begun? writer.job writer.run.stage (w.next writer).run.stage).map (Prod.mk i)).toList

/-- Steps from one world to another, and the calls that the transactions begin in
them, the first call first. -/
inductive Asks (start : World) : World -> List (Nat × Call) -> Prop where
  | start : Asks start start []
  | moved {w : World} {calls : List (Nat × Call)} {i : Nat} {writer : Writer}
      (h : Asks start w calls) (hwriter : w.writers[i]? = some writer) :
      Asks start (w.moved i writer) (calls ++ w.begunBy i writer)
  | stored {w : World} {calls : List (Nat × Call)} (h : Asks start w calls)
      (items : List CacheItem) : Asks start (w.stored items) calls
  | erased {w : World} {calls : List (Nat × Call)} (h : Asks start w calls)
      (slots : List String) : Asks start (w.erased slots) calls
  | meanwhile {w : World} {calls : List (Nat × Call)} (h : Asks start w calls) {scene : Scene}
      (hquiet : w.scene.Quiet scene) : Asks start { w with scene := scene } calls

/-- The calls of the transaction at a position. -/
def callsBy (i : Nat) (calls : List (Nat × Call)) : List Call :=
  calls.filterMap fun call => if call.1 = i then some call.2 else none

theorem callsBy_append (i : Nat) (calls more : List (Nat × Call)) :
    callsBy i (calls ++ more) = callsBy i calls ++ callsBy i more :=
  List.filterMap_append

theorem callsBy_begunBy_self (w : World) (i : Nat) (writer : Writer) :
    callsBy i (w.begunBy i writer) =
      (Stage.begun? writer.job writer.run.stage (w.next writer).run.stage).toList := by
  rw [begunBy]
  cases Stage.begun? writer.job writer.run.stage (w.next writer).run.stage with
  | none => rfl
  | some call => simp [callsBy]

theorem callsBy_begunBy_of_ne {i j : Nat} (h : i ≠ j) (w : World) (writer : Writer) :
    callsBy j (w.begunBy i writer) = [] := by
  rw [begunBy]
  cases Stage.begun? writer.job writer.run.stage (w.next writer).run.stage with
  | none => rfl
  | some call => simp [callsBy, h]

theorem mem_callsBy {i : Nat} {call : Call} {calls : List (Nat × Call)} :
    call ∈ callsBy i calls ↔ (i, call) ∈ calls := by
  rw [callsBy, List.mem_filterMap]
  constructor
  · rintro ⟨⟨j, call'⟩, hmem, heq⟩
    by_cases hj : j = i
    · rw [if_pos hj, Option.some.injEq] at heq
      rw [← hj, ← heq]
      exact hmem
    · rw [if_neg hj] at heq
      cases heq
  · intro hmem
    exact ⟨(i, call), hmem, if_pos rfl⟩

section Steps

variable {start w w' : World} {calls : List (Nat × Call)}

theorem Asks.reaches (h : Asks start w calls) : Reaches start w := by
  induction h with
  | start => exact Relation.ReflTransGen.refl
  | moved h hwriter ih => exact ih.tail (Step.moved hwriter)
  | stored h items ih => exact ih.tail (Step.stored items)
  | erased h slots ih => exact ih.tail (Step.erased slots)
  | meanwhile h hquiet ih => exact ih.tail (Step.meanwhile hquiet)

theorem Asks.exists_step (h : Asks start w calls) (hstep : Step w w') :
    ∃ more, Asks start w' (calls ++ more) := by
  have hnone {w' : World} (h : Asks start w' calls) : ∃ more, Asks start w' (calls ++ more) :=
    ⟨[], by rwa [List.append_nil]⟩
  cases hstep with
  | moved hwriter => exact ⟨_, h.moved hwriter⟩
  | stored items => exact hnone (h.stored items)
  | erased slots => exact hnone (h.erased slots)
  | meanwhile hquiet => exact hnone (h.meanwhile hquiet)

/-- However a world was reached, some calls were begun on the way. -/
theorem Asks.exists_reaches (h : Asks start w calls) (hreach : Reaches w w') :
    ∃ more, Asks start w' (calls ++ more) := by
  induction hreach with
  | refl => exact ⟨[], by rwa [List.append_nil]⟩
  | tail hfirst hstep ih =>
      rcases ih with ⟨more, hmore⟩
      rcases hmore.exists_step hstep with ⟨last, hlast⟩
      exact ⟨more ++ last, by rwa [List.append_assoc] at hlast⟩

/-- What each transaction has begun so far. -/
theorem Asks.asked (h : Asks start w calls) (hfresh : start.Fresh) {i : Nat} {writer : Writer}
    (hwriter : w.writers[i]? = some writer) :
    Asked writer.job (w.deedsOf i) (writer.run.ctx.isOver w.scene.tokens w.scene.now)
      (callsBy i calls) writer.run.stage := by
  have hstays {between w' : World} {calls : List (Nat × Call)} {writer : Writer}
      (ih : Asked writer.job (between.deedsOf i)
        (writer.run.ctx.isOver between.scene.tokens between.scene.now) (callsBy i calls)
        writer.run.stage)
      (hstep : Step between w') (hdeeds : w'.deedsOf i = between.deedsOf i) :
      Asked writer.job (w'.deedsOf i) (writer.run.ctx.isOver w'.scene.tokens w'.scene.now)
        (callsBy i calls) writer.run.stage := by
    rw [hdeeds]
    exact ih.later (fun _ hunset => hunset) hstep.adds.isOver
  induction h generalizing writer with
  | start =>
      rw [hfresh.opening writer (List.mem_of_getElem? hwriter), deedsOf, hfresh.history]
      exact ⟨fun now items hmem => absurd hmem List.not_mem_nil, rfl⟩
  | @moved between calls j mover hbefore hmover ih =>
      have hstep : Step between (between.moved j mover) := Step.moved hmover
      rw [callsBy_append]
      rcases getElem?_moved hwriter with ⟨hij, hnext⟩ | ⟨hij, hsame⟩
      · have hmoved := mover.run.moved_move (between.sceneOf mover)
        have hjob : writer.job = mover.job := by
          rw [hnext]
          exact (between.continues_next mover).job_eq
        have hctx : writer.run.ctx = mover.run.ctx := congrArg Job.ctx hjob
        rw [hij] at ih ⊢
        rw [callsBy_begunBy_self, deedsOf_moved_self, hjob, hctx, hnext]
        have hbegun : Asked mover.job (between.deedsOf j)
            (mover.run.ctx.isOver (between.sceneOf mover).tokens (between.sceneOf mover).now)
            (callsBy j calls) mover.run.stage := ih hmover
        exact hbegun.turns (mover.run.turns_move (between.sceneOf mover))
          (fun hwriting hunset => hunset.leads hmoved.stage hwriting) hstep.adds.isOver
      · rw [callsBy_begunBy_of_ne (Ne.symm hij), List.append_nil]
        exact hstays (ih hsame) hstep (deedsOf_moved_of_ne hij between mover)
  | stored h items ih => exact hstays (ih hwriter) (Step.stored items) rfl
  | erased h slots ih => exact hstays (ih hwriter) (Step.erased slots) rfl
  | meanwhile h hquiet ih => exact hstays (ih hwriter) (Step.meanwhile hquiet) rfl

/-- Nobody but a transaction of the world begins a call. -/
theorem Asks.known (h : Asks start w calls) : ∀ call ∈ calls, call.1 < w.writers.length := by
  induction h with
  | start =>
      intro call hmem
      cases hmem
  | @moved between calls i writer hbefore hwriter ih =>
      intro call hmem
      rw [World.moved, List.length_set]
      rcases List.mem_append.mp hmem with hold | hnew
      · exact ih call hold
      · rw [begunBy, Option.mem_toList, Option.map_eq_some_iff] at hnew
        rcases hnew with ⟨begun, _, heq⟩
        rw [← heq]
        exact (List.getElem?_eq_some_iff.mp hwriter).1
  | stored h items ih => exact ih
  | erased h slots ih => exact ih
  | meanwhile h hquiet ih => exact ih

end Steps

/-- The calls that are begun in moves of the writers at some positions, one after
another. -/
def callsIn (w : World) : List Nat -> List (Nat × Call)
  | [] => []
  | i :: rest =>
      match w.writers[i]? with
      | some writer => w.begunBy i writer ++ (w.moved i writer).callsIn rest
      | none => w.callsIn rest

theorem Asks.turns {start w : World} {calls : List (Nat × Call)} (h : Asks start w calls)
    (ids : List Nat) : Asks start (w.turns ids) (calls ++ w.callsIn ids) := by
  induction ids generalizing w calls with
  | nil =>
      rw [callsIn, List.append_nil]
      exact h
  | cons i rest ih =>
      unfold World.turns callsIn
      cases hwriter : w.writers[i]? with
      | none => exact ih h
      | some writer =>
          dsimp only
          rw [← List.append_assoc]
          exact ih (h.moved hwriter)

end World

/-!
## The calls of the store
-/

/-- The keys and values that a call gives to the store. -/
def putOf? : Call -> Option (List Key × List Value)
  | .put keys values => some (keys, values)
  | .set _ => none
  | .delete _ => none

theorem putOf?_eq_some_iff {call : Call} {keys : List Key} {values : List Value} :
    putOf? call = some (keys, values) ↔ call = .put keys values := by
  cases call with
  | put keys' values' => simp [putOf?]
  | set items | delete slots => simp [putOf?]

/-- What the store is given, and by the transactions at which positions. -/
def putsIn (calls : List (Nat × Call)) : List (Nat × List Key × List Value) :=
  calls.filterMap fun call => (putOf? call.2).map (Prod.mk call.1)

theorem mem_putsIn {i : Nat} {keys : List Key} {values : List Value} {calls : List (Nat × Call)} :
    (i, keys, values) ∈ putsIn calls ↔ (i, .put keys values) ∈ calls := by
  rw [putsIn, List.mem_filterMap]
  constructor
  · rintro ⟨⟨j, call⟩, hmem, heq⟩
    rcases Option.map_eq_some_iff.mp heq with ⟨given, hgiven, hsame⟩
    cases hsame
    rw [← putOf?_eq_some_iff.mp hgiven]
    exact hmem
  · intro hmem
    exact ⟨_, hmem, rfl⟩

theorem putsIn_cons (call : Nat × Call) (rest : List (Nat × Call)) :
    putsIn (call :: rest) = ((putOf? call.2).map (Prod.mk call.1)).toList ++ putsIn rest := by
  rw [putsIn, List.filterMap_cons]
  cases putOf? call.2 <;> rfl

/-- A transaction gives to the store as often as it calls it. -/
theorem count_fst_putsIn (i : Nat) (calls : List (Nat × Call)) :
    ((putsIn calls).map Prod.fst).count i = ((World.callsBy i calls).filterMap putOf?).length := by
  induction calls with
  | nil => rfl
  | cons call rest ih =>
      rcases call with ⟨j, call⟩
      have hcalls : World.callsBy i ((j, call) :: rest) =
          (if j = i then [call] else []) ++ World.callsBy i rest := by
        rw [World.callsBy, List.filterMap_cons]
        by_cases hj : j = i
        · rw [if_pos hj, if_pos hj]
          rfl
        · rw [if_neg hj, if_neg hj]
          rfl
      rw [putsIn_cons, hcalls, List.map_append, List.count_append, List.filterMap_append,
        List.length_append, ih]
      congr 1
      by_cases hj : j = i
      · rw [if_pos hj, hj, List.filterMap_cons]
        cases putOf? call <;> simp
      · rw [if_neg hj]
        cases putOf? call <;> simp [hj]

/-- If no transaction calls the store twice, no two calls are the same. -/
theorem nodup_putsIn {calls : List (Nat × Call)}
    (h : ∀ i, ((World.callsBy i calls).filterMap putOf?).length <= 1) : (putsIn calls).Nodup := by
  apply List.Nodup.of_map Prod.fst
  rw [List.nodup_iff_count_le_one]
  intro i
  rw [count_fst_putsIn]
  exact h i

/-- If the transaction at every position calls the store once, there is one call
for every position. -/
theorem putsIn_perm {α : Type} {xs : List α} {f : α -> List Key × List Value}
    {calls : List (Nat × Call)} (hknown : ∀ call ∈ calls, call.1 < xs.length)
    (honce : ∀ (i : Nat) (x : α), xs[i]? = some x ->
      (World.callsBy i calls).filterMap putOf? = [f x]) :
    (putsIn calls).Perm (xs.zipIdx.map fun x => (x.2, f x.1)) := by
  have hputs : (putsIn calls).Nodup := by
    apply nodup_putsIn
    intro i
    cases hx : xs[i]? with
    | some x =>
        rw [honce i x hx]
        exact Nat.le_refl 1
    | none =>
        have hnone : World.callsBy i calls = [] := by
          apply List.eq_nil_iff_forall_not_mem.mpr
          intro call hmem
          have hlt := hknown _ (World.mem_callsBy.mp hmem)
          exact absurd (List.getElem?_eq_none_iff.mp hx) (Nat.not_le.mpr hlt)
        rw [hnone]
        exact Nat.zero_le 1
  have hexpected : (xs.zipIdx.map fun x => (x.2, f x.1)).Nodup := by
    apply List.Nodup.of_map Prod.fst
    have hpositions : (xs.zipIdx.map fun x => (x.2, f x.1)).map Prod.fst =
        xs.zipIdx.map Prod.snd := List.map_map
    rw [hpositions, List.zipIdx_map_snd]
    exact List.nodup_range'
  apply (List.perm_ext_iff_of_nodup hputs hexpected).mpr
  rintro ⟨i, keys, values⟩
  rw [mem_putsIn, List.mem_map, ← World.mem_callsBy]
  constructor
  · intro hmem
    have hlt := hknown _ (World.mem_callsBy.mp hmem)
    have hx := List.getElem?_eq_getElem hlt
    have hput : (keys, values) ∈ (World.callsBy i calls).filterMap putOf? :=
      List.mem_filterMap.mpr ⟨_, hmem, rfl⟩
    rw [honce i _ hx, List.mem_singleton] at hput
    refine ⟨(xs[i], i), List.mem_zipIdx_iff_getElem?.mpr hx, ?_⟩
    rw [hput]
  · rintro ⟨⟨x, j⟩, hmem, heq⟩
    injection heq with hj hgiven
    dsimp only at hj hgiven
    rw [hj] at hmem
    have hput : (keys, values) ∈ (World.callsBy i calls).filterMap putOf? := by
      rw [honce i x (List.mem_zipIdx_iff_getElem?.mp hmem), hgiven]
      exact List.mem_singleton_self _
    rcases List.mem_filterMap.mp hput with ⟨call, hcall, hof⟩
    rw [← putOf?_eq_some_iff.mp hof]
    exact hcall

end Simulation
end WriteLatch
