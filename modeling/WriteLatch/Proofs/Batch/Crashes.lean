import WriteLatch.Proofs.Batch.Refusals
import WriteLatch.Proofs.Locks.Overflow

/-!
# Writes that crash

Over a store and a cache without faults, what a client is told of a key is the
failure of a worker only if its locks were to be set past the end of the clock.
Then it is told so of every key that has a lock, unless the context of the write
ends before.  Neither the time allowed for a write nor the size of its pieces can
make it crash.
-/

namespace WriteLatch

open Transaction (IsCalm wholesale)

/-!
## Failures of workers in an outcome
-/

/-- An answer of the wrong length is no failure of a worker. -/
theorem Batch.isWorker_of_conform {span : Span} {result : CallResult} (h : IsCalm result)
    {f : Failure} (hmem : .error f ∈ slotsOf span (conform span result)) : f.isWorker = false := by
  cases hmisfit : misfit? span result with
  | some n =>
      rw [conform_of_misfit?_eq_some hmisfit] at hmem
      cases List.eq_of_mem_replicate hmem
      rfl
  | none =>
      rw [conform_of_misfit?_eq_none hmisfit] at hmem
      match result with
      | .ok keys =>
          rcases List.mem_map.mp hmem with ⟨k, _, hslot⟩
          cases hslot
      | .error (.positional slots) => exact h f hmem
      | .error (.wholesale f') =>
          cases List.eq_of_mem_replicate hmem
          exact h

namespace Client

theorem isWorker_of_merged {spans : List Span} {ends : List TaskEnd}
    (h : ∀ e ∈ ends, IsCalm e.result) {f : Failure}
    (hmem : .error f ∈ slotsOf (merged spans ends)) : f.isWorker = false := by
  rw [slotsOf_merged, List.mem_flatMap] at hmem
  rcases hmem with ⟨piece, hpiece, hslot⟩
  exact Batch.isWorker_of_conform (h piece.2 (List.of_mem_zip hpiece).2) hslot

theorem outcome_mem_slotsOf (e : TaskEnd) :
    outcome e ∈ Batch.slotsOf single (Batch.conform single e.result) := by
  unfold outcome
  rcases conform_single_cases e.result with ⟨k, hk⟩ | ⟨slot, hslot, _⟩ | ⟨f, hf⟩
  · rw [hk]
    exact List.mem_singleton.mpr rfl
  · rw [hslot]
    exact List.mem_singleton.mpr rfl
  · rw [hf]
    exact List.mem_singleton.mpr rfl

theorem isWorker_of_outcome {e : TaskEnd} (h : IsCalm e.result) {f : Failure}
    (hslot : outcome e = .error f) : f.isWorker = false :=
  Batch.isWorker_of_conform h (hslot ▸ outcome_mem_slotsOf e)

theorem outcome_of_wholesale {e : TaskEnd} {f : Failure} (h : e.result = wholesale f) :
    outcome e = .error f := by
  rw [outcome, h]
  rfl

/-- The time allowed for a write cannot move its deadline past the end of the clock. -/
theorem deadline_bounded (client : Client) {timeout : Millis}
    (htimeout : client.config.writeTimeout = some timeout) (hword : timeout < wordCount)
    {now : Millis} (hnow : now + wordCount <= Cache.clockEnd) (ctx : Context) :
    now + timeout < Cache.clockEnd ∧
      ∃ d, (client.bounded now ctx).deadline = some d ∧ d <= now + timeout := by
  refine ⟨Nat.lt_of_lt_of_le (Nat.add_lt_add_left hword now) hnow, ?_⟩
  rw [bounded, htimeout]
  exact ctx.withTimeout_deadline_le now timeout

end Client

/-- No sum of positions goes past the last machine word. -/
theorem Span.IsAddressed.sum_lt {count limit : Nat} (h : IsAddressed count limit) {i : Nat}
    (hi : i < pieceCount count limit) : i * max limit 1 + max limit 1 < wordCount := by
  rw [← Nat.succ_mul]
  exact Nat.lt_of_le_of_lt (Nat.mul_le_mul_right _ hi) h.pieceCount_mul_lt

namespace Simulation

/-!
## The ends of the transactions
-/

/-- What stops a transaction whose locks overflow: the crash, or the end of its
context. -/
def Scene.Stops (ctx : Context) (scene : Scene) (f : Failure) : Prop :=
  f = Failure.ofCrash Cache.overflowMessage ∨
    ∃ i, scene.moment.ends ctx i = true ∧ f = Interruption.failure i

section MayEnd

variable {ctx : Context} {scene : Scene} {e : Client.TaskEnd}

theorem Scene.MayEnd.isCalm (h : scene.MayEnd ctx False e) : IsCalm e.result := by
  cases h with
  | calm hcalm hfits => exact hcalm
  | @interrupted i hends => exact Transaction.isCalm_interrupted i
  | crashed hoverflows => exact hoverflows.elim

theorem Scene.MayEnd.exists_stops (h : scene.MayEnd ctx True e) :
    ∃ f, scene.Stops ctx f ∧ e.result = wholesale f := by
  cases h with
  | calm hcalm hfits => exact absurd trivial hfits
  | @interrupted i hends => exact ⟨i.failure, Or.inr ⟨i, hends, rfl⟩, rfl⟩
  | crashed hoverflows => exact ⟨_, Or.inl rfl, rfl⟩

end MayEnd

/-- Transactions that have been added last are about to begin. -/
theorem Crew.goesPlainly_of_runs {crew : Crew} {k : Nat} {ctx : Context} {overflows : Prop}
    {span : Span} {before added : List Run} (hscene : crew.scene.IsUntroubled k)
    (hruns : crew.runs = before ++ added) (hspan : span.start = before.length)
    (hadded : ∀ run ∈ added, run.ctx = ctx ∧ run.stage = .opening ∧
      (crew.scene.scheme.Overflows run.keys crew.scene.cacheNow ↔ overflows)) :
    crew.GoesPlainly span k ctx overflows := by
  refine ⟨hscene, ?_⟩
  rintro i run hrun ⟨hstart, _⟩
  rw [hspan] at hstart
  rw [hruns, List.getElem?_append_right hstart] at hrun
  rcases hadded run (List.mem_of_getElem? hrun) with ⟨hctx, hstage, hoverflows⟩
  refine ⟨hctx, hoverflows, ?_⟩
  rw [hstage]
  trivial

namespace Session

/-!
## What becomes of a write
-/

/-- The schedule after a task was started for one key. -/
def startedOne (s : Session) (ctx : Context) (key : Key) (value : Value) : Schedule :=
  s.schedule.spawn [⟨.single,
    { ctx := s.client.bounded s.scene.now ctx, keys := [key], values := [value] }⟩]

/-- However the transactions of a request take turns, what the client is told has
the property, and so it has when the write returns. -/
structure WritesMany (s : Session) (ctx : Context) (keys : List Key) (values : List Value)
    (p : Scene -> Except WriteFailure (List Key) -> Prop) : Prop where
  courses : ∀ crew : Crew, ((s.started ctx keys values).schedule.crew []).Reaches crew ->
    ∀ ends, crew.ends? (s.spanFor keys values) = some ends ->
      p crew.scene (s.client.outcomeOf keys values ends)
  write : ∀ giveUp, (s.writeMany ctx keys values giveUp).2 = .abandoned ∨
    ∃ outcome, (s.writeMany ctx keys values giveUp).2 = .written outcome ∧
      p (s.writeMany ctx keys values giveUp).1.scene outcome

/-- The same of a request for one key. -/
structure WritesOne (s : Session) (ctx : Context) (key : Key) (value : Value)
    (p : Scene -> Slot -> Prop) : Prop where
  courses : ∀ crew : Crew, ((s.startedOne ctx key value).crew []).Reaches crew ->
    ∀ e, crew.ends? (s.schedule.nextSpan 1) = some [e] -> p crew.scene (Client.outcome e)
  write : ∀ giveUp, (s.writeOne ctx key value giveUp).2 = .abandoned ∨
    ∃ slot, (s.writeOne ctx key value giveUp).2 = .slot slot ∧
      p (s.writeOne ctx key value giveUp).1.scene slot

section Writes

variable {s : Session} {ctx : Context} {keys : List Key} {values : List Value} {key : Key}
  {value : Value}

theorem writesMany_of_courses {p : Scene -> Except WriteFailure (List Key) -> Prop}
    (hcheck : Request.check keys values = .ok ()) (hkeys : keys.isEmpty = false)
    (h : ∀ crew : Crew, ((s.started ctx keys values).schedule.crew []).Reaches crew ->
      ∀ ends, crew.ends? (s.spanFor keys values) = some ends ->
        p crew.scene (s.client.outcomeOf keys values ends)) :
    s.WritesMany ctx keys values p := by
  refine ⟨h, ?_⟩
  intro giveUp
  refine (outcome_writeMany hcheck hkeys giveUp).imp id ?_
  rintro ⟨ends, hends, houtcome⟩
  exact ⟨_, houtcome, h _ (advances_writeMany hcheck hkeys []) ends hends⟩

theorem writesOne_of_courses {p : Scene -> Slot -> Prop}
    (hcheck : Request.check [key] [value] = .ok ())
    (h : ∀ crew : Crew, ((s.startedOne ctx key value).crew []).Reaches crew ->
      ∀ e, crew.ends? (s.schedule.nextSpan 1) = some [e] -> p crew.scene (Client.outcome e)) :
    s.WritesOne ctx key value p := by
  refine ⟨h, ?_⟩
  intro giveUp
  have hcourse : Schedule.Advances (s.startedOne ctx key value)
      (s.writeOne ctx key value giveUp).1.schedule := advances_writeOne hcheck
  have hreached := h _ (hcourse [])
  unfold writeOne at hreached ⊢
  simp only [hcheck] at hreached ⊢
  generalize hawaited : (s.schedule.spawn _).await _ _ = awaited at hreached ⊢
  rcases awaited with ⟨schedule, ends⟩
  dsimp only at hreached ⊢
  split at hreached
  · rename_i e
    exact Or.inr ⟨_, rfl, hreached e (Schedule.ends?_crew_of_await hawaited rfl)⟩
  · exact Or.inl rfl

theorem goesPlainly_started {k : Nat} {overflows : Prop} (hscene : s.scene.IsUntroubled k)
    (hpieces : ∀ piece ∈ s.client.pieces keys values,
      (s.scene.scheme.Overflows piece.keys s.scene.cacheNow ↔ overflows)) :
    ((s.started ctx keys values).schedule.crew []).GoesPlainly (s.spanFor keys values) k
      (s.client.bounded s.scene.now ctx) overflows := by
  have htended := s.tended_started ctx keys values
  have hstart : (s.spanFor keys values).start = (s.schedule.tasks.map Task.run).length := by
    rw [List.length_map]
    rfl
  refine Crew.goesPlainly_of_runs (hscene.passes htended.passes) (s.runs_started ctx keys values)
    hstart ?_
  intro run hmem
  rcases List.mem_map.mp hmem with ⟨piece, hpiece, heq⟩
  have hsame : ((s.started ctx keys values).schedule.crew []).scene =
      (s.started ctx keys values).scene := rfl
  rw [← heq, hsame, htended.scheme, htended.cacheNow]
  exact ⟨rfl, rfl, hpieces piece hpiece⟩

theorem goesPlainly_startedOne {k : Nat} {overflows : Prop} (hscene : s.scene.IsUntroubled k)
    (hkey : s.scene.scheme.Overflows [key] s.scene.cacheNow ↔ overflows) :
    ((s.startedOne ctx key value).crew []).GoesPlainly (s.schedule.nextSpan 1) k
      (s.client.bounded s.scene.now ctx) overflows := by
  have hruns : ((s.startedOne ctx key value).crew []).runs = s.schedule.tasks.map Task.run ++
      [{ ctx := s.client.bounded s.scene.now ctx, keys := [key], values := [value] }] := by
    rw [startedOne, Schedule.crew, Schedule.spawn, List.append_nil, List.map_append]
    rfl
  have hstart : (s.schedule.nextSpan 1).start = (s.schedule.tasks.map Task.run).length := by
    rw [List.length_map]
    rfl
  refine Crew.goesPlainly_of_runs hscene hruns hstart ?_
  intro run hmem
  rw [List.mem_singleton.mp hmem]
  exact ⟨rfl, rfl, hkey⟩

/-!
### Within the clock
-/

section Within

variable {k : Nat} (hscene : s.scene.IsUntroubled k)
  (hstorable : s.scene.scheme.IsStorable s.scene.cacheNow)
include hscene hstorable

theorem writesMany_within (hcheck : Request.check keys values = .ok ()) :
    s.WritesMany ctx keys values fun _ outcome =>
      ∀ f, .error f ∈ Client.slotsOf outcome -> f.isWorker = false := by
  have hcourses : ∀ crew : Crew, ((s.started ctx keys values).schedule.crew []).Reaches crew ->
      ∀ ends, crew.ends? (s.spanFor keys values) = some ends ->
        ∀ f, .error f ∈ Client.slotsOf (s.client.outcomeOf keys values ends) ->
          f.isWorker = false := by
    intro crew hreach ends hends f hmem
    have hplainly : ((s.started ctx keys values).schedule.crew []).GoesPlainly
        (s.spanFor keys values) k (s.client.bounded s.scene.now ctx) False :=
      goesPlainly_started hscene fun piece _ => iff_false_intro fun h => h.past hstorable
    exact Client.isWorker_of_merged
      (fun e he => ((hplainly.reaches hreach).mayEnd hends e he).isCalm) hmem
  cases hkeys : keys.isEmpty with
  | false => exact writesMany_of_courses hcheck hkeys hcourses
  | true =>
      refine ⟨hcourses, ?_⟩
      intro giveUp
      rw [writeMany, hcheck, hkeys]
      refine Or.inr ⟨_, rfl, ?_⟩
      intro f hmem
      cases hmem

theorem writesOne_within (hcheck : Request.check [key] [value] = .ok ()) :
    s.WritesOne ctx key value fun _ slot => ∀ f, slot = .error f -> f.isWorker = false := by
  apply writesOne_of_courses hcheck
  intro crew hreach e hends f hslot
  have hplainly : ((s.startedOne ctx key value).crew []).GoesPlainly (s.schedule.nextSpan 1) k
      (s.client.bounded s.scene.now ctx) False :=
    goesPlainly_startedOne hscene (iff_false_intro fun h => h.past hstorable)
  exact Client.isWorker_of_outcome
    ((hplainly.reaches hreach).mayEnd hends e List.mem_cons_self).isCalm hslot

end Within

/-!
### Past the end of the clock
-/

section Past

variable {k : Nat} (hscene : s.scene.IsUntroubled k)
  (hpast : ¬ s.scene.scheme.IsStorable s.scene.cacheNow)
include hscene hpast

/-- Every piece has a lock to set. -/
theorem writesMany_past (hcheck : Request.check keys values = .ok ())
    (hkeys : keys.isEmpty = false) (haddressed : Span.IsAddressed keys.length s.client.batchSize)
    (hcomplete : ∀ key ∈ keys, key.isComplete = true) :
    s.WritesMany ctx keys values fun scene outcome =>
      ∃ slots, outcome = .error (.positional slots) ∧ slots.size = keys.length ∧
        ∀ slot ∈ slots.toList, ∃ f, scene.Stops (s.client.bounded s.scene.now ctx) f ∧
          slot = .error f := by
  apply writesMany_of_courses hcheck hkeys
  intro crew hreach ends hends
  have hpieces : ∀ piece ∈ s.client.pieces keys values,
      (s.scene.scheme.Overflows piece.keys s.scene.cacheNow ↔ True) := by
    intro piece hpiece
    rcases Client.exists_mem_of_mem_pieces haddressed hpiece with ⟨key, hkey, hmem⟩
    exact iff_true_intro ⟨⟨key, hkey, hcomplete key hmem⟩, hpast⟩
  have hplainly : ((s.started ctx keys values).schedule.crew []).GoesPlainly
      (s.spanFor keys values) k (s.client.bounded s.scene.now ctx) True :=
    goesPlainly_started hscene hpieces
  have hlength := length_of_ends? hreach hends
  have hstopped : ∀ e ∈ ends, ∃ f, crew.scene.Stops (s.client.bounded s.scene.now ctx) f ∧
      e.result = wholesale f :=
    fun e he => ((hplainly.reaches hreach).mayEnd hends e he).exists_stops
  rcases Client.exists_slots_of_pieces hkeys hlength hstopped with ⟨slots, houtcome, hslots⟩
  have hsize := Client.length_slotsOf_outcomeOf haddressed hlength
  rw [houtcome] at hsize
  exact ⟨slots, houtcome, hsize, hslots⟩

theorem writesOne_past (hcheck : Request.check [key] [value] = .ok ())
    (hcomplete : key.isComplete = true) :
    s.WritesOne ctx key value fun scene slot =>
      ∃ f, scene.Stops (s.client.bounded s.scene.now ctx) f ∧ slot = .error f := by
  apply writesOne_of_courses hcheck
  intro crew hreach e hends
  have hplainly : ((s.startedOne ctx key value).crew []).GoesPlainly (s.schedule.nextSpan 1) k
      (s.client.bounded s.scene.now ctx) True :=
    goesPlainly_startedOne hscene
      (iff_true_intro ⟨⟨key, List.mem_cons_self, hcomplete⟩, hpast⟩)
  rcases ((hplainly.reaches hreach).mayEnd hends e List.mem_cons_self).exists_stops with
    ⟨f, hstops, hresult⟩
  exact ⟨f, hstops, Client.outcome_of_wholesale hresult⟩

end Past
end Writes

/-!
### Whole sessions
-/

/-- In a session in which nobody gives the store or the cache any faults, no write
fails by a worker while the clock can show the end of the locks.  When it cannot,
every key with a lock fails by the crash of its worker, unless the context of the
write ends before.  The deadline of a write and the ends of its pieces are always
within bounds. -/
theorem worker_fails_past_the_clock {config : Config} {store : Store} {announced : Nat}
    {reporting : Reporting} {s : Session}
    (hcreate : create config store announced reporting = .ok s) {sts : List Step}
    (hplain : ∀ st ∈ sts, st.givesRules = false) :
    (config.lockScheme.IsStorable (s.steps sts).1.scene.cacheNow ->
      (∀ ctx keys values, Request.check keys values = .ok () ->
        (s.steps sts).1.WritesMany ctx keys values fun _ outcome =>
          ∀ f, .error f ∈ Client.slotsOf outcome -> f.isWorker = false) ∧
      ∀ ctx key value, Request.check [key] [value] = .ok () ->
        (s.steps sts).1.WritesOne ctx key value fun _ slot =>
          ∀ f, slot = .error f -> f.isWorker = false) ∧
    (¬ config.lockScheme.IsStorable (s.steps sts).1.scene.cacheNow ->
      (∀ ctx keys values, Request.check keys values = .ok () -> keys.isEmpty = false ->
        Span.IsAddressed keys.length s.client.batchSize ->
        (∀ key ∈ keys, key.isComplete = true) ->
          (s.steps sts).1.WritesMany ctx keys values fun scene outcome =>
            ∃ slots, outcome = .error (.positional slots) ∧ slots.size = keys.length ∧
              ∀ slot ∈ slots.toList, ∃ f,
                scene.Stops (s.client.bounded (s.steps sts).1.scene.now ctx) f ∧
                  slot = .error f) ∧
      ∀ ctx key value, Request.check [key] [value] = .ok () -> key.isComplete = true ->
        (s.steps sts).1.WritesOne ctx key value fun scene slot =>
          ∃ f, scene.Stops (s.client.bounded (s.steps sts).1.scene.now ctx) f ∧
            slot = .error f) ∧
    (∀ timeout, config.writeTimeout = some timeout -> timeout < wordCount ->
      ∀ now ctx, now + wordCount <= Cache.clockEnd -> now + timeout < Cache.clockEnd ∧
        ∃ d, (s.client.bounded now ctx).deadline = some d ∧ d <= now + timeout) ∧
    ∀ count, Span.IsAddressed count s.client.batchSize ->
      ∀ i < Span.pieceCount count s.client.batchSize,
        i * max s.client.batchSize 1 + max s.client.batchSize 1 < wordCount := by
  rcases exists_eq_of_create hcreate with ⟨htasks, hscheme, _, _⟩
  have hconfig : s.client.config = config := by rw [eq_of_create hcreate]
  have hfaults : s.scene.faults = {} := by
    rw [eq_of_create hcreate]
    rfl
  rcases settings_steps hscheme sts with ⟨hclient, hsame⟩
  have hscene : (s.steps sts).1.scene.IsUntroubled (s.steps sts).1.scene.tokens.issued := by
    refine ⟨?_, Nat.le_refl _, isTidy_steps htasks hscheme (isTidy_of_create hcreate) sts⟩
    exact lasts_steps (p := fun scene => scene.faults = {})
      (fun hpasses h => hpasses.faults.trans h) htasks hscheme
      (fun st hmem _ _ hpasses h => (hpasses.faults (hplain st hmem)).trans h) hfaults
  have hlocks : (s.steps sts).1.scene.scheme = config.lockScheme := by
    rw [hsame, hscheme, hconfig]
  rw [← hlocks, ← hconfig, ← hclient]
  refine ⟨fun hstorable => ⟨?_, ?_⟩, fun hpast => ⟨?_, ?_⟩, ?_, ?_⟩
  · exact fun ctx keys values hcheck => writesMany_within hscene hstorable hcheck
  · exact fun ctx key value hcheck => writesOne_within hscene hstorable hcheck
  · exact fun ctx keys values hcheck hkeys haddressed hcomplete =>
      writesMany_past hscene hpast hcheck hkeys haddressed hcomplete
  · exact fun ctx key value hcheck hcomplete => writesOne_past hscene hpast hcheck hcomplete
  · exact fun timeout htimeout hword now ctx hnow =>
      (s.steps sts).1.client.deadline_bounded htimeout hword hnow ctx
  · exact fun count haddressed i hi => haddressed.sum_lt hi

/-- A client whose locks are to last as many seconds as a machine word can say. -/
def endless : Session :=
  let config : Config := { lockSeconds := 18446744073709551615 }
  ⟨⟨config, 500⟩, {
    scene := { (Scene.newRoot {} "root").2 with
      scheme := config.lockScheme
      contexts := [("root", (Scene.newRoot {} "root").1)] } }⟩

theorem worker_fails_past_the_clock_endless :
    create { lockSeconds := 18446744073709551615 } {} 500 .recorded = .ok endless ∧
      (∀ st ∈ [Step.cacheWait], st.givesRules = false) ∧
      ¬ endless.client.config.lockScheme.IsStorable
        (endless.steps [.cacheWait]).1.scene.cacheNow ∧
      (endless.steps [.cacheWait]).1.WritesMany (endless.contextNamed "root")
        [.numbered "Item" 1, .numbered "Item" 2] [.int 1, .int 2] fun scene outcome =>
          ∃ slots, outcome = .error (.positional slots) ∧ slots.size = 2 ∧
            ∀ slot ∈ slots.toList, ∃ f, scene.Stops (endless.contextNamed "root") f ∧
              slot = .error f := by
  have hcreate : create { lockSeconds := 18446744073709551615 } {} 500 .recorded =
      .ok endless := rfl
  have hplain : ∀ st ∈ [Step.cacheWait], st.givesRules = false := by
    intro st hmem
    rw [List.mem_singleton.mp hmem]
    rfl
  have hpast : ¬ endless.client.config.lockScheme.IsStorable
      (endless.steps [.cacheWait]).1.scene.cacheNow := by
    rintro (hforever | hbefore)
    · exact absurd hforever (by decide)
    · exact absurd hbefore (by decide)
  have hcomplete : ∀ key ∈ [Key.numbered "Item" 1, Key.numbered "Item" 2],
      key.isComplete = true := by decide
  exact ⟨hcreate, hplain, hpast, ((worker_fails_past_the_clock hcreate hplain).2.1 hpast).1
    _ _ _ rfl rfl ⟨by decide, by decide⟩ hcomplete⟩

/-- The settings were accepted and the requests are valid, and the worker of every
key crashes. -/
theorem worker_fails_endless :
    create { lockSeconds := 18446744073709551615 } {} 500 .recorded = .ok endless ∧
      Request.check [.numbered "Item" 1] [.int 1] = .ok () ∧
      (endless.writeOne (endless.contextNamed "root") (.numbered "Item" 1) (.int 1) none).2 =
        .slot (.error (Failure.ofCrash Cache.overflowMessage)) ∧
      (endless.writeMany (endless.contextNamed "root") [.numbered "Item" 1] [.int 1] none).2 =
        .written (.error (.positional ⟨[.error (Failure.ofCrash Cache.overflowMessage)]⟩)) ∧
      (Failure.ofCrash Cache.overflowMessage).isWorker = true :=
  ⟨rfl, rfl, rfl, rfl, rfl⟩

end Session
end Simulation
end WriteLatch
