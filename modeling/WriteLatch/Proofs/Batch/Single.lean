import WriteLatch.Proofs.Batch.Outcome
import WriteLatch.Proofs.Interleaving.Likeness
import WriteLatch.Proofs.Interleaving.Traffic

/-!
# A write of one key

A write of one key runs the transaction of a write of many with that key alone.
It does not split the request and does not merge outcomes, but picks the slot of
the key from what the transaction has come to.  Both say the same of the key,
and what they do to the cache, the store and the one who is reported to is the
same.
-/

namespace WriteLatch

theorem Span.split_one {limit : Nat} (h : limit < wordCount) :
    Span.split 1 limit = [Client.single] := by
  have haddressed : IsAddressed 1 limit := ⟨by decide, h⟩
  have hcount : pieceCount 1 limit = 1 := by
    rw [pieceCount, Nat.add_sub_cancel_left]
    exact Nat.div_self (by omega)
  have hpiece := haddressed.piece_eq (i := 0) (by omega)
  rw [Nat.zero_mul, Nat.zero_add, Nat.min_eq_right (Nat.le_max_right limit 1)] at hpiece
  rw [split, hcount, List.range_one, List.map_singleton, hpiece]
  rfl

namespace Batch

/-- One piece alone comes to what it was answered. -/
theorem merge_singleton (span : Span) (result : CallResult) :
    merge [span] [result] =
      match conform span result with
      | .ok keys => .ok keys
      | .error f => .error ⟨slotsOf span (.error f)⟩ := by
  simp only [merge, List.zip_cons_cons, List.zip_nil_right, List.map_cons, List.map_nil,
    List.flatMap_singleton]
  cases conform span result with
  | ok keys => simp [allKeys?, keys?]
  | error f => rfl

end Batch

namespace Client

/-!
## The outcome of one key
-/

/-- A result for single keys names a failure, as it otherwise would be keys. -/
def TaskEnd.IsProper (e : TaskEnd) : Prop :=
  ∀ slots, e.result = .error (.positional slots) -> 0 < slots.failedCount

/-- What a write of many says where a write of that key alone says this. -/
def inMany : Slot -> Except WriteFailure (List Key)
  | .ok k => .ok [k]
  | .error f => .error (.positional ⟨[.error f]⟩)

/-- Both say the same of a key that may be written. -/
structure Agree (one : Slot) (many : Except WriteFailure (List Key)) : Prop where
  written : ∀ k, one = .ok k ↔ many = .ok [k]
  failed : ∀ f, one = .error f ↔ many = .error (.positional ⟨[.error f]⟩)

theorem agree_inMany (slot : Slot) : Agree slot (inMany slot) := by
  cases slot with
  | ok k => exact ⟨fun k' => by simp [inMany], fun f => by simp [inMany]⟩
  | error f => exact ⟨fun k => by simp [inMany], fun f' => by simp [inMany]⟩

theorem pieces_one {c : Client} (h : c.batchSize < wordCount) (key : Key) (value : Value) :
    c.pieces [key] [value] = [⟨single, [key], [value]⟩] := by
  rw [pieces, List.length_singleton, Span.split_one h]
  rfl

theorem outcomeOf_one {c : Client} (h : c.batchSize < wordCount) (key : Key) (value : Value)
    (ends : List TaskEnd) : c.outcomeOf [key] [value] ends = merged [single] ends := by
  rw [outcomeOf, pieces_one h]
  rfl

/-- A result that fits one key has one key, one slot, or one failure. -/
theorem conform_single_cases (result : CallResult) :
    (∃ k, Batch.conform single result = .ok [k]) ∨
      (∃ slot, Batch.conform single result = .error (.positional ⟨[slot]⟩) ∧
        result = .error (.positional ⟨[slot]⟩)) ∨
      ∃ f, Batch.conform single result = .error (.wholesale f) := by
  cases hmisfit : Batch.misfit? single result with
  | some n => exact Or.inr (Or.inr ⟨_, Batch.conform_of_misfit?_eq_some hmisfit⟩)
  | none =>
      rw [Batch.conform_of_misfit?_eq_none hmisfit]
      have hfits := (Batch.misfit?_eq_none_iff single result).mp hmisfit
      match result with
      | .ok keys =>
          rcases List.length_eq_one_iff.mp (hfits keys.length rfl) with ⟨k, hk⟩
          exact Or.inl ⟨k, congrArg Except.ok hk⟩
      | .error (.positional ⟨slots⟩) =>
          rcases List.length_eq_one_iff.mp (hfits slots.length rfl) with ⟨slot, hslot⟩
          rw [hslot]
          exact Or.inr (Or.inl ⟨slot, rfl, rfl⟩)
      | .error (.wholesale f) => exact Or.inr (Or.inr ⟨f, rfl⟩)

/-- There is always a slot to pick. -/
theorem conform_single_ne_nil (result : CallResult) :
    Batch.conform single result ≠ .ok [] ∧
      Batch.conform single result ≠ .error (.positional ⟨[]⟩) := by
  rcases conform_single_cases result with ⟨k, hk⟩ | ⟨slot, hslot, _⟩ | ⟨f, hf⟩
  · rw [hk]
    exact ⟨by simp, by simp⟩
  · rw [hslot]
    exact ⟨by simp, by simp⟩
  · rw [hf]
    exact ⟨by simp, by simp⟩

theorem merged_single {e : TaskEnd} (h : e.IsProper) : merged [single] [e] = inMany (outcome e) := by
  rw [merged, List.map_singleton, Batch.merge_singleton, outcome]
  rcases conform_single_cases e.result with ⟨k, hk⟩ | ⟨slot, hslot, hresult⟩ | ⟨f, hf⟩
  · rw [hk]
    rfl
  · rw [hslot]
    cases slot with
    | error f => rfl
    | ok k => exact absurd (h _ hresult) (Nat.lt_irrefl 0)
  · rw [hf]
    rfl

end Client

namespace Simulation

namespace Schedule

/-- Who waits for the last task alone is told how that task has ended. -/
theorem ends?_last {s : Schedule} {n : Nat} (hlength : s.tasks.length = n + 1)
    {ends : List Client.TaskEnd} (h : s.ends? ⟨n, n + 1⟩ = some ends) :
    ∃ task e, s.tasks[n]? = some task ∧ task.run.end? = some e ∧ ends = [e] := by
  have hlt : n < s.tasks.length := by omega
  have hslice : Span.slice ⟨n, n + 1⟩ s.tasks = [s.tasks[n]] := by
    rw [Span.slice, Span.size, Nat.add_sub_cancel_left, List.drop_eq_getElem_cons hlt]
    rfl
  rw [ends?, hslice, mapM_eq_some_iff] at h
  rcases List.map_eq_singleton_iff.mp h.symm with ⟨e, hends, hend⟩
  exact ⟨s.tasks[n], e, List.getElem?_eq_getElem hlt, hend.symm, hends⟩

end Schedule

namespace Session

/-- What a write of one key and a write of many with that key alone return, and
what they leave behind. -/
structure Agree (key : Key) (value : Value) (one many : Session × Outcome) : Prop where
  invalid : ∀ d, (Request.check [key] [value] = .error d ∧ one.2 = .slot (.error (.invalid d))) ↔
    many.2 = .written (.error (.invalid d))
  written : ∀ k, one.2 = .slot (.ok k) ↔ many.2 = .written (.ok [k])
  failed : Request.check [key] [value] = .ok () ->
    ∀ f, one.2 = .slot (.error f) ↔ many.2 = .written (.error (.positional ⟨[.error f]⟩))
  abandoned : one.2 = .abandoned ↔ many.2 = .abandoned
  returned : one.2 = .abandoned ∨ ∃ slot, one.2 = .slot slot
  client : many.1.client = one.1.client
  schedule : one.1.schedule.Matches many.1.schedule
  journal : one.1.scene.journal.Matches many.1.scene.journal

variable {s : Session} {ctx : Context} {key : Key} {value : Value} {giveUp : Option Millis}

theorem agree_invalid {d : Defect} (h : Request.check [key] [value] = .error d) :
    Agree key value (s.writeOne ctx key value giveUp) (s.writeMany ctx [key] [value] giveUp) := by
  rw [writeOne, writeMany, h]
  constructor
  case schedule => exact s.schedule.matches_refl
  case journal => exact s.scene.journal.matches_refl
  case client => rfl
  case returned => exact Or.inr ⟨_, rfl⟩
  case failed =>
    intro hcheck
    cases h.symm.trans hcheck
  all_goals simp [h]

theorem agree_abandoned {one many : Session} (hclient : many.client = one.client)
    (hschedule : one.schedule.Matches many.schedule) :
    Agree key value (one, .abandoned) (many, .abandoned) := by
  constructor
  case schedule => exact hschedule
  case journal => exact hschedule.scene.journal
  case client => exact hclient
  case returned => exact Or.inl rfl
  all_goals simp

theorem agree_slot (h : Request.check [key] [value] = .ok ()) {one many : Session}
    (hclient : many.client = one.client) (hschedule : one.schedule.Matches many.schedule)
    (slot : Slot) : Agree key value (one, .slot slot) (many, .written (Client.inMany slot)) := by
  have hslot := Client.agree_inMany slot
  constructor
  case schedule => exact hschedule
  case journal => exact hschedule.scene.journal
  case client => exact hclient
  case returned => exact Or.inr ⟨slot, rfl⟩
  case invalid =>
    intro d
    rw [h]
    cases slot <;> simp [Client.inMany]
  case written =>
    intro k
    simpa using hslot.written k
  case failed =>
    intro _ f
    simpa using hslot.failed f
  case abandoned => simp

theorem matches_recordMisfits {scene scene' : Scene} (h : scene.Matches scene')
    (outcomes : List (Span × CallResult)) :
    (recordMisfits scene outcomes).Matches (recordMisfits scene' outcomes) := by
  unfold recordMisfits
  induction outcomes generalizing scene scene' with
  | nil => exact h
  | cons outcome rest ih =>
      rw [List.foldl_cons, List.foldl_cons]
      cases Batch.misfit? outcome.1 outcome.2 with
      | none => exact ih h
      | some n => exact ih (h.event _)

/-- Both start the same transaction. -/
theorem matches_started (hsize : s.client.batchSize < wordCount) (ctx : Context) (key : Key)
    (value : Value) :
    (s.startMany ctx (s.client.pieces [key] [value]) 1).2 = s.schedule.nextSpan 1 ∧
      (s.schedule.spawn [⟨.single, { ctx := ctx, keys := [key], values := [value] }⟩]).Matches
        (s.startMany ctx (s.client.pieces [key] [value]) 1).1.schedule := by
  have hnoted (e : Event) (he : e.isOfMany = true) (n m : Nat) :
      s.scene.Matches (((s.scene.event e).count .keys n).count .pieces m) :=
    ((s.scene.matches_event he).trans (Scene.matches_count _ _ _)).trans
      (Scene.matches_count _ _ _)
  rw [Client.pieces_one hsize]
  refine ⟨rfl, hnoted _ rfl _ _, ?_, rfl, rfl⟩
  simp [startMany, withScene, Schedule.spawn, Schedule.runs]

/-- Both wait for the end of the same transaction, and are told of it or give up
together. -/
theorem exists_awaited (hsize : s.client.batchSize < wordCount) (ctx : Context) (key : Key)
    (value : Value) (stop : Option Millis) :
    ∃ one many ends,
      (s.schedule.spawn [⟨.single, { ctx := ctx, keys := [key], values := [value] }⟩]).await
        (s.schedule.nextSpan 1) stop = (one, ends) ∧
      (s.startMany ctx (s.client.pieces [key] [value]) 1).1.schedule.await
        (s.startMany ctx (s.client.pieces [key] [value]) 1).2 stop = (many, ends) ∧
      one.Matches many ∧
      (ends = none ∨ ∃ task e, one.tasks[s.schedule.tasks.length]? = some task ∧
        task.run.end? = some e ∧ ends = some [e]) := by
  rcases matches_started hsize ctx key value with ⟨hspan, hstarted⟩
  generalize hspawned : s.schedule.spawn
    [⟨.single, { ctx := ctx, keys := [key], values := [value] }⟩] = spawned at hstarted ⊢
  have hlength : spawned.tasks.length = s.schedule.tasks.length + 1 := by
    rw [← hspawned, Schedule.spawn, List.length_append, List.length_singleton]
  rcases (Schedule.matches_await hstarted (s.schedule.nextSpan 1) stop).exists_eq with
    ⟨one, many, ends, hone, hmany, hmatches⟩
  refine ⟨one, many, ends, hone, ?_, hmatches, ?_⟩
  · rw [hspan]
    exact hmany
  · have hcount := (spawned.advances_await (s.schedule.nextSpan 1) stop).length_tasks
    rw [hone, hlength] at hcount
    cases ends with
    | none => exact Or.inl rfl
    | some ends =>
        have hended : (spawned.await (s.schedule.nextSpan 1) stop).1.ends?
            (s.schedule.nextSpan 1) = some ends :=
          Schedule.ends?_of_await (congrArg Prod.snd hone)
        rw [hone] at hended
        rcases Schedule.ends?_last hcount hended with ⟨task, e, htask, hend, hsole⟩
        exact Or.inr ⟨task, e, htask, hend, congrArg some hsole⟩

/-- Both return the same and leave the same behind, if the transaction ends with
slots only where one of them is a failure. -/
theorem agree_write (hsize : s.client.batchSize < wordCount)
    (hproper : ∀ task e,
      (s.writeOne ctx key value giveUp).1.schedule.tasks[s.schedule.tasks.length]? = some task ->
        task.run.end? = some e -> e.IsProper) :
    Agree key value (s.writeOne ctx key value giveUp) (s.writeMany ctx [key] [value] giveUp) := by
  cases hcheck : Request.check [key] [value] with
  | error d => exact agree_invalid hcheck
  | ok u =>
      have hclient : (s.startMany (s.client.bounded s.scene.now ctx)
          (s.client.pieces [key] [value]) 1).1.client = s.client := rfl
      rcases exists_awaited hsize (s.client.bounded s.scene.now ctx) key value
        (s.giveUpAt giveUp) with ⟨one, many, ends, hone, hmany, hmatches, hended⟩
      unfold writeOne at hproper ⊢
      unfold writeMany
      rw [hcheck] at hproper ⊢
      dsimp only [List.length_singleton, List.isEmpty_cons] at hproper ⊢
      rw [hone] at hproper ⊢
      generalize s.startMany (s.client.bounded s.scene.now ctx)
        (s.client.pieces [key] [value]) 1 = started at hmany hclient ⊢
      rcases started with ⟨started, span⟩
      dsimp only at hmany hclient hproper ⊢
      rw [hmany]
      rcases hended with hnone | ⟨task, e, htask, hend, hsole⟩
      · rw [hnone]
        exact agree_abandoned hclient hmatches
      · rw [hsole] at hproper ⊢
        -- An answer of the wrong length is recorded by both, the outcome by one of them.
        have hrecorded := (matches_recordMisfits hmatches.scene
          [(Client.single, e.result)]).trans
            (Scene.matches_event _ (e := .written (Client.merged [Client.single] [e]).isOk) rfl)
        rw [Client.pieces_one hsize]
        change Agree key value (_, .slot (Client.outcome e))
          (_, .written (Client.merged [Client.single] [e]))
        rw [Client.merged_single (hproper task e htask hend)]
        apply agree_slot hcheck
        · exact hclient
        · exact ⟨hrecorded, hmatches.runs, hmatches.ready, hmatches.deferred⟩

/-- A write of one key and a write of many with that key alone run the same
transaction.  However it ends, both say the same of the key, and there is always
a slot to pick.  So in every session, whatever the cache and the store do and
whenever the caller gives up, both return the same and make the same calls.
This takes it that slots are returned only where one of them is a failure. -/
theorem single_write_agrees {client : Client} (hsize : client.batchSize < wordCount) (key : Key)
    (value : Value) :
    (∀ (scene : Scene) (ctx : Context),
      (World.dispatched client scene ctx [key] [value]).writers =
        [Writer.single client.config.lockScheme (client.bounded scene.now ctx) key value]) ∧
    (∀ e : Client.TaskEnd,
      (Batch.conform Client.single e.result ≠ .ok [] ∧
        Batch.conform Client.single e.result ≠ .error (.positional ⟨[]⟩)) ∧
      (e.IsProper -> Client.Agree (Client.outcome e) (client.outcomeOf [key] [value] [e]))) ∧
    ∀ (s : Session) (ctx : Context) (giveUp : Option Millis), s.client = client ->
      (∀ task e,
        (s.writeOne ctx key value giveUp).1.schedule.tasks[s.schedule.tasks.length]? = some task ->
          task.run.end? = some e -> e.IsProper) ->
        Agree key value (s.writeOne ctx key value giveUp)
          (s.writeMany ctx [key] [value] giveUp) := by
  refine ⟨?_, ?_, ?_⟩
  · intro scene ctx
    rw [World.dispatched, Client.pieces_one hsize]
    rfl
  · intro e
    refine ⟨Client.conform_single_ne_nil e.result, ?_⟩
    intro hproper
    rw [Client.outcomeOf_one hsize, Client.merged_single hproper]
    exact Client.agree_inMany _
  · intro s ctx giveUp hclient hproper
    rw [← hclient] at hsize
    exact agree_write hsize hproper

/-- A session with a store that refuses a key. -/
def refusing : Session :=
  ⟨⟨{}, 1⟩,
    { scene := (Scene.newRoot
        { faults := { store := [{ only := some "\"Item\",1", reject := some (.rejected "no") }] } }
        "root").2 }⟩

/-- The store answers with one slot, and the failure in it is what both return. -/
theorem single_write_agrees_refusing :
    1 < wordCount ∧
      (refusing.writeOne (Context.root "root" {}).1 (.numbered "Item" 1) (.int 1) none).2 =
        .slot (.error (.rejected "no")) ∧
      (refusing.writeMany (Context.root "root" {}).1 [.numbered "Item" 1] [.int 1] none).2 =
        .written (.error (.positional ⟨[.error (.rejected "no")]⟩)) := by
  have hsize : Client.batchSize ⟨{}, 1⟩ < wordCount := by decide
  have hended : ((refusing.writeOne (Context.root "root" {}).1 (.numbered "Item" 1) (.int 1)
      none).1.schedule.tasks[0]?.bind fun task => task.run.end?) =
        some (.finished (.error (.positional ⟨[.error (.rejected "no")]⟩))) := rfl
  have hall := @single_write_agrees ⟨{}, 1⟩ hsize (.numbered "Item" 1) (.int 1)
  have hagree := hall.2.2 refusing (Context.root "root" {}).1 none rfl fun task e htask hend => by
    have htask' : (refusing.writeOne (Context.root "root" {}).1 (.numbered "Item" 1) (.int 1)
      none).1.schedule.tasks[0]? = some task := htask
    rw [htask', Option.bind_some, hend, Option.some.injEq] at hended
    rw [hended]
    intro slots hslots
    cases hslots
    decide
  exact ⟨hsize, rfl, (hagree.failed rfl _).mp rfl⟩

end Session
end Simulation
end WriteLatch
