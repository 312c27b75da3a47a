import WriteLatch.Proofs.Batch.Merging
import WriteLatch.Proofs.Batch.Refusals
import WriteLatch.Proofs.Interleaving.Register

/-!
# Counted failures

Pieces are counted when their tasks are started, and a failed piece when its
task ends with an error.  The outcome of a request is put together later, and
there a piece fails also if its task has crashed or has returned the wrong
number of keys.  Such a piece is not counted, so the count of a request falls
short by just as many.
-/

namespace WriteLatch

namespace Client

/-!
## Ends of tasks
-/

namespace TaskEnd

def isCrash : TaskEnd -> Bool
  | .finished _ => false
  | .crashed _ => true

/-- The transaction came to keys, but not to one for each key of the span. -/
def isMisfit (span : Span) : TaskEnd -> Bool
  | .finished (.ok keys) => keys.length != span.size
  | .finished (.error _) => false
  | .crashed _ => false

/-- An error, and not keys, is put into the outcome of the request for the span. -/
def failsIn (span : Span) (e : TaskEnd) : Bool :=
  !(Batch.conform span e.result).isOk

theorem failsIn_error (span : Span) (f : CallFailure) :
    failsIn span (.finished (.error f)) = true := by
  rw [failsIn, result]
  cases hconform : Batch.conform span (.error f) with
  | ok keys => cases (Batch.eq_ok_of_conform hconform).1
  | error f' => rfl

theorem failsIn_ok (span : Span) (keys : List Key) :
    failsIn span (.finished (.ok keys)) = (keys.length != span.size) := by
  have hconforms := Batch.conforms_conform span (.ok keys)
  rw [failsIn, result]
  by_cases hsize : keys.length = span.size
  · have hkept := hconforms.kept fun n hn => by
      cases hn
      exact hsize
    rw [hkept, bne_eq_false_iff_eq.mpr hsize]
    rfl
  · rw [hconforms.replaced keys.length rfl hsize, bne_iff_ne.mpr hsize]
    rfl

/-- A piece fails for one of three reasons, and never for two of them. -/
theorem failsIn_cases (span : Span) (e : TaskEnd) :
    (if failsIn span e then 1 else 0) =
      (if e.isError then 1 else 0) + (if e.isCrash then 1 else 0) +
        if e.isMisfit span then 1 else 0 := by
  cases e with
  | crashed message => rfl
  | finished result =>
      cases result with
      | error f =>
          rw [failsIn_error]
          rfl
      | ok keys =>
          rw [failsIn_ok]
          exact (Nat.zero_add _).symm

end TaskEnd

/-- How many pieces fail in the outcome of a request. -/
def failedIn (spans : List Span) (ends : List TaskEnd) : Nat :=
  (spans.zip ends).countP fun piece => piece.2.failsIn piece.1

/-- How many pieces have returned the wrong number of keys. -/
def misfitsIn (spans : List Span) (ends : List TaskEnd) : Nat :=
  (spans.zip ends).countP fun piece => piece.2.isMisfit piece.1

theorem failedIn_eq {spans : List Span} {ends : List TaskEnd}
    (hlength : ends.length = spans.length) :
    failedIn spans ends =
      ends.countP TaskEnd.isError + ends.countP TaskEnd.isCrash + misfitsIn spans ends := by
  induction spans generalizing ends with
  | nil =>
      rw [List.length_eq_zero_iff.mp hlength]
      rfl
  | cons span spans ih =>
      cases ends with
      | nil => cases hlength
      | cons e ends =>
          have hrest := ih (Nat.succ.inj hlength)
          have hfirst := TaskEnd.failsIn_cases span e
          rw [failedIn, misfitsIn] at hrest ⊢
          rw [List.zip_cons_cons, List.countP_cons, List.countP_cons, List.countP_cons,
            List.countP_cons, hrest]
          dsimp only
          omega

end Client

namespace Simulation

/-!
## Sessions
-/

namespace Session

theorem counters_recordMisfits (scene : Scene) (outcomes : List (Span × CallResult)) :
    (recordMisfits scene outcomes).journal.counters = scene.journal.counters := by
  unfold recordMisfits
  induction outcomes generalizing scene with
  | nil => rfl
  | cons outcome rest ih =>
      rw [List.foldl_cons]
      cases Batch.misfit? outcome.1 outcome.2 with
      | none => exact ih scene
      | some n => exact ih _

section Steps

variable (s : Session) (ctx : Context) (keys : List Key) (values : List Value)
  (giveUp : Option Millis)

/-- When tasks are started for a request, all of them are counted as pieces. -/
theorem register_started :
    (s.started ctx keys values).schedule.register = { s.schedule.register with
      tasks := s.schedule.register.tasks ++ ((s.client.pieces keys values).map fun piece =>
        Purpose.piece piece.span.start).map fun purpose => (purpose, none)
      pieces := s.schedule.register.pieces + (s.client.pieces keys values).length } := by
  have htotal (c d : Counter) (j : Journal) (n : Nat) : (j.count c n).total d =
      if d = c then j.total d + n else j.total d := j.total_count c d n
  apply Register.ext
  · simp only [started, startMany, withScene, Schedule.spawn, Schedule.register, List.map_append,
      List.map_map]
    rfl
  · exact (htotal .pieces .pieces _ _).trans (congrArg (· + _) (htotal .keys .pieces _ _))
  · exact (htotal .pieces .failedPieces _ _).trans (htotal .keys .failedPieces _ _)

theorem proceeds_started : s.schedule.Proceeds (s.started ctx keys values).schedule := by
  have hstep := Register.Step.started (r := s.schedule.register)
    ((s.client.pieces keys values).map fun piece => Purpose.piece piece.span.start)
  rw [countP_isPiece] at hstep
  rw [Schedule.Proceeds, register_started]
  exact Relation.ReflTransGen.single hstep

theorem register_finishMany (spans : List Span) (ends : List Client.TaskEnd) :
    (s.finishMany spans ends).1.schedule.register = s.schedule.register :=
  Schedule.register_eq rfl
    (Journal.countsNoPiece_of_counters (counters_recordMisfits s.scene _))

variable {s ctx keys values giveUp}

/-- From the start of its tasks on, a request proceeds like any others. -/
theorem proceeds_of_started (hcheck : Request.check keys values = .ok ())
    (hkeys : keys.isEmpty = false) :
    (s.started ctx keys values).schedule.Proceeds
      (s.writeMany ctx keys values giveUp).1.schedule := by
  have hawait := (s.started ctx keys values).schedule.proceeds_await (s.spanFor keys values)
    (s.giveUpAt giveUp)
  rw [writeMany_eq hcheck hkeys giveUp]
  generalize (s.started ctx keys values).schedule.await _ _ = awaited at hawait ⊢
  rcases awaited with ⟨schedule, ends⟩
  cases ends with
  | none => exact hawait
  | some ends =>
      exact hawait.trans (Schedule.proceeds_of_eq (register_finishMany ⟨s.client, schedule⟩ _ ends))

theorem proceeds_writeMany (s : Session) (ctx : Context) (keys : List Key) (values : List Value)
    (giveUp : Option Millis) :
    s.schedule.Proceeds (s.writeMany ctx keys values giveUp).1.schedule := by
  cases hcheck : Request.check keys values with
  | error d =>
      rw [writeMany, hcheck]
      exact Schedule.proceeds_of_eq rfl
  | ok u =>
      cases hkeys : keys.isEmpty with
      | true =>
          rw [writeMany, hcheck]
          dsimp only
          rw [if_pos hkeys]
          exact Schedule.proceeds_of_eq rfl
      | false => exact (proceeds_started s ctx keys values).trans (proceeds_of_started hcheck hkeys)

/-- A task for a request for one key is not one for a piece. -/
theorem proceeds_writeOne (s : Session) (ctx : Context) (key : Key) (value : Value)
    (giveUp : Option Millis) :
    s.schedule.Proceeds (s.writeOne ctx key value giveUp).1.schedule := by
  unfold writeOne
  cases Request.check [key] [value] with
  | error d => exact Schedule.proceeds_of_eq rfl
  | ok u =>
      dsimp only
      generalize hrun : Run.mk (s.client.bounded s.scene.now ctx) [key] [value] .opening 0 = run
      have hspawned : s.schedule.Proceeds (s.schedule.spawn [⟨.single, run⟩]) := by
        have hstep := Register.Step.started (r := s.schedule.register) [.single]
        have hregister : (s.schedule.spawn [⟨.single, run⟩]).register = { s.schedule.register with
            tasks := s.schedule.register.tasks ++ [(.single, none)] } := by
          rw [← hrun]
          apply Register.ext
          · simp only [Schedule.spawn, Schedule.register, List.map_append]
            rfl
          · rfl
          · rfl
        rw [Schedule.Proceeds, hregister]
        exact Relation.ReflTransGen.single hstep
      have hawait := (s.schedule.spawn [⟨.single, run⟩]).proceeds_await (s.schedule.nextSpan 1)
        (s.giveUpAt giveUp)
      generalize Schedule.await _ _ _ = awaited at hawait ⊢
      rcases awaited with ⟨schedule, ends⟩
      dsimp only at hawait ⊢
      split
      · refine (hspawned.trans hawait).trans (Schedule.proceeds_of_eq ?_)
        exact Schedule.register_eq rfl
          (Journal.countsNoPiece_of_counters (counters_recordMisfits schedule.scene _))
      · exact hspawned.trans hawait

theorem proceeds_transact (s : Session) (ctx : Context) (keys : List Key) (values : List Value)
    (giveUp : Option Millis) :
    s.schedule.Proceeds (s.transact ctx keys values giveUp).1.schedule := by
  unfold transact
  dsimp only
  have hawait := s.schedule.proceeds_awaitOutside { ctx := ctx, keys := keys, values := values }
    (s.giveUpAt giveUp)
  generalize Schedule.awaitOutside _ _ _ = awaited at hawait ⊢
  rcases awaited with ⟨schedule, e⟩
  dsimp only
  split <;> exact hawait

theorem proceeds_take (s : Session) (st : Step) :
    s.schedule.Proceeds (s.take st).1.schedule := by
  cases hst : st.isAside with
  | true =>
      have hpasses := passesBy_take (s := s) hst
      have htasks := congrArg (List.map fun task => (task.purpose, task.run.end?)) hpasses.tasks
      apply Schedule.proceeds_of_eq
      exact Schedule.register_eq htasks
        (Journal.countsNoPiece_of_counters (congrArg Journal.counters hpasses.journal))
  | false =>
      cases st with
      | writeMany ctx keys values giveUp => exact s.proceeds_writeMany _ keys values giveUp
      | writeOne ctx key value giveUp => exact s.proceeds_writeOne _ key value giveUp
      | transact ctx keys values giveUp => exact s.proceeds_transact _ keys values giveUp
      | advance duration => exact s.schedule.proceeds_wait duration
      | _ => cases hst

theorem proceeds_steps (s : Session) (sts : List Step) :
    s.schedule.Proceeds (s.steps sts).1.schedule := by
  induction sts generalizing s with
  | nil => exact Schedule.proceeds_of_eq rfl
  | cons st rest ih =>
      have hturned : (s.step st).1.schedule.register = (s.take st).1.schedule.register :=
        Schedule.register_eq rfl (Journal.countsNoPiece_of_counters rfl)
      have hstep : s.schedule.Proceeds (s.step st).1.schedule := by
        rw [Schedule.Proceeds, hturned]
        exact s.proceeds_take st
      exact hstep.trans (ih (s.step st).1)

end Steps

/-!
## Counts of a request
-/

def total (s : Session) (c : Counter) : Nat :=
  s.scene.journal.total c

/-- What has been counted of a request that has come to an outcome. -/
structure IsCounted (s after : Session) (keys : List Key) (values : List Value)
    (ends : List Client.TaskEnd) : Prop where
  length : ends.length = (s.client.pieces keys values).length
  /-- What has not been counted for its tasks is for those of other requests. -/
  failedPieces : after.total .failedPieces =
    (after.schedule.tasks.take s.schedule.tasks.length).countP Task.hasFailed +
      ends.countP Client.TaskEnd.isError
  alone : s.AllEnded ->
    after.total .failedPieces = s.total .failedPieces + ends.countP Client.TaskEnd.isError
  failedIn : Client.failedIn ((s.client.pieces keys values).map Client.Piece.span) ends =
    ends.countP Client.TaskEnd.isError + ends.countP Client.TaskEnd.isCrash +
      Client.misfitsIn ((s.client.pieces keys values).map Client.Piece.span) ends
  /-- Just then the failed pieces of the outcome are those that have been counted. -/
  agrees : s.AllEnded -> (after.total .failedPieces = s.total .failedPieces +
      Client.failedIn ((s.client.pieces keys values).map Client.Piece.span) ends ↔
    ends.countP Client.TaskEnd.isCrash = 0 ∧
      Client.misfitsIn ((s.client.pieces keys values).map Client.Piece.span) ends = 0)

/-- A request counts its pieces, and it counts those of them that have come to an
error when it comes to its outcome. -/
structure CountsFailures (s : Session) (ctx : Context) (keys : List Key) (values : List Value)
    (giveUp : Option Millis) : Prop where
  pieces : (s.writeMany ctx keys values giveUp).1.total .pieces =
    s.total .pieces + (s.client.pieces keys values).length
  returned : ∀ result, (s.writeMany ctx keys values giveUp).2 = .written result ->
    ∃ ends, result = s.client.outcomeOf keys values ends ∧
      s.IsCounted (s.writeMany ctx keys values giveUp).1 keys values ends

section Counted

variable {s : Session} {ctx : Context} {keys : List Key} {values : List Value}
  {giveUp : Option Millis} (hcheck : Request.check keys values = .ok ())
  (hkeys : keys.isEmpty = false)
include hcheck hkeys

/-- No tasks but those of its pieces are started for a request. -/
theorem purposes_writeMany :
    (s.writeMany ctx keys values giveUp).1.schedule.register.tasks.map Prod.fst =
      s.schedule.register.tasks.map Prod.fst ++ (s.client.pieces keys values).map fun piece =>
        Purpose.piece piece.span.start := by
  have hproceeds : (s.started ctx keys values).schedule.Proceeds
      (s.writeMany ctx keys values giveUp).1.schedule := proceeds_of_started hcheck hkeys
  have hprefix := Register.Reaches.purposes hproceeds
  have hadvances : Schedule.Advances (s.started ctx keys values).schedule
      (s.writeMany ctx keys values giveUp).1.schedule := advances_writeMany hcheck hkeys
  have hlength : ((s.started ctx keys values).schedule.register.tasks.map Prod.fst).length =
      ((s.writeMany ctx keys values giveUp).1.schedule.register.tasks.map Prod.fst).length := by
    simp only [List.length_map, Schedule.register]
    exact hadvances.length_tasks.symm
  rw [← hprefix.eq_of_length hlength, register_started]
  dsimp only
  rw [List.map_append, Register.map_fst_started]

theorem total_pieces_writeMany (hbalanced : s.schedule.register.IsBalanced) :
    (s.writeMany ctx keys values giveUp).1.total .pieces =
      s.total .pieces + (s.client.pieces keys values).length := by
  have hafter := (Register.Reaches.isBalanced (s.proceeds_writeMany ctx keys values giveUp)
    hbalanced).pieces
  rw [purposes_writeMany hcheck hkeys, List.countP_append, ← hbalanced.pieces, countP_isPiece]
    at hafter
  exact hafter

/-- The tasks that were started for a request that has an outcome have ended, and
the outcome is what they have come to. -/
theorem exists_ends_writeMany {result : Except WriteFailure (List Key)}
    (h : (s.writeMany ctx keys values giveUp).2 = .written result) :
    ∃ ends, result = s.client.outcomeOf keys values ends ∧
      ends.length = (s.client.pieces keys values).length ∧
      ((s.writeMany ctx keys values giveUp).1.schedule.register.tasks.drop
        s.schedule.tasks.length).map Prod.snd = ends.map some := by
  rcases outcome_writeMany hcheck hkeys giveUp with hnone | ⟨ends, hends, hresult⟩
  · rw [hnone] at h
    cases h
  · have hreach : ((s.started ctx keys values).schedule.crew []).Reaches
        ((s.writeMany ctx keys values giveUp).1.schedule.crew []) :=
      advances_writeMany hcheck hkeys []
    have hlength : ((s.writeMany ctx keys values giveUp).1.schedule.tasks.map Task.run).length =
        s.schedule.tasks.length + (s.client.pieces keys values).length := by
      have hruns := hreach.length_runs
      rw [runs_started, List.length_append, List.length_map, List.length_map, Schedule.crew,
        List.append_nil] at hruns
      exact hruns
    have hall := mapM_eq_some_iff.mp hends
    rw [Schedule.crew, List.append_nil, Span.slice, List.take_of_length_le, ← List.map_drop,
      List.map_map] at hall
    · rw [h, Outcome.written.injEq] at hresult
      refine ⟨ends, hresult, length_of_ends? hreach hends, ?_⟩
      rw [Schedule.register, ← List.map_drop, List.map_map]
      exact hall
    · rw [List.length_drop, hlength, spanFor, Schedule.nextSpan, Span.size]

/-- Of the tasks that were started for a request those count that have come to an
error. -/
theorem countP_hasFailed_writeMany {ends : List Client.TaskEnd}
    (hends : ((s.writeMany ctx keys values giveUp).1.schedule.register.tasks.drop
      s.schedule.tasks.length).map Prod.snd = ends.map some) :
    ((s.writeMany ctx keys values giveUp).1.schedule.register.tasks.drop
      s.schedule.tasks.length).countP Register.hasFailed =
        ends.countP Client.TaskEnd.isError := by
  refine Register.countP_hasFailed ?_ hends
  intro task hmem
  have hpurpose : task.1 ∈ ((s.writeMany ctx keys values giveUp).1.schedule.register.tasks.map
      Prod.fst).drop s.schedule.tasks.length := by
    rw [← List.map_drop]
    exact List.mem_map_of_mem hmem
  have htasks : (s.schedule.register.tasks.map Prod.fst).length = s.schedule.tasks.length := by
    rw [List.length_map, Schedule.register, List.length_map]
  rw [purposes_writeMany hcheck hkeys, ← htasks, List.drop_left] at hpurpose
  rcases List.mem_map.mp hpurpose with ⟨piece, _, heq⟩
  rw [← heq]
  rfl

theorem countsFailures (hbalanced : s.schedule.register.IsBalanced) :
    s.CountsFailures ctx keys values giveUp := by
  have hproceeds := s.proceeds_writeMany ctx keys values giveUp
  refine ⟨total_pieces_writeMany hcheck hkeys hbalanced, ?_⟩
  intro result hresult
  rcases exists_ends_writeMany hcheck hkeys hresult with ⟨ends, houtcome, hlength, hends⟩
  refine ⟨ends, houtcome, ?_⟩
  have hown := countP_hasFailed_writeMany hcheck hkeys hends
  have hbefore := hbalanced.failedPieces
  have hafter := (Register.Reaches.isBalanced hproceeds hbalanced).failedPieces
  have htasks : s.schedule.register.tasks.length = s.schedule.tasks.length := List.length_map _
  generalize (s.writeMany ctx keys values giveUp).1 = after at hproceeds hown hafter ⊢
  rw [← List.take_append_drop s.schedule.tasks.length after.schedule.register.tasks,
    List.countP_append, hown] at hafter
  have hmatching : ends.length = ((s.client.pieces keys values).map Client.Piece.span).length := by
    rw [hlength, List.length_map]
  have hfailed := Client.failedIn_eq hmatching
  have halone (hended : s.AllEnded) : after.total .failedPieces =
      s.total .failedPieces + ends.countP Client.TaskEnd.isError := by
    have hothers := Register.Reaches.take_eq hproceeds (by
      intro task hmem
      rcases List.mem_map.mp hmem with ⟨started, hstarted, heq⟩
      rw [← heq]
      exact hended started hstarted)
    rw [htasks] at hothers
    rw [hothers, ← hbefore] at hafter
    exact hafter
  constructor
  case length => exact hlength
  case failedPieces =>
    rw [Schedule.register, ← List.map_take, List.countP_map] at hafter
    exact hafter
  case alone => exact halone
  case failedIn => exact hfailed
  case agrees =>
    intro hended
    rw [halone hended, hfailed]
    omega

end Counted

/-- In every session the counters say how many pieces there were and how many of
their tasks have come to an error.  A piece that fails in the outcome of its request
is counted unless its task has crashed or has returned the wrong number of keys. -/
theorem failed_pieces_counted {config : Config} {store : Store} {announced : Nat}
    {reporting : Reporting} {s : Session}
    (hcreate : create config store announced reporting = .ok s) (sts : List Step) :
    (∀ r, Register.Reaches {} r -> r.IsBalanced) ∧
      Register.Reaches {} (s.steps sts).1.schedule.register ∧
      ∀ ctx keys values giveUp, Request.check keys values = .ok () -> keys.isEmpty = false ->
        (s.steps sts).1.CountsFailures ctx keys values giveUp := by
  have hfirst : Register.IsBalanced {} := ⟨rfl, rfl⟩
  have hbalanced (r : Register) (h : Register.Reaches {} r) : r.IsBalanced := h.isBalanced hfirst
  have hreach : Register.Reaches {} (s.steps sts).1.schedule.register := by
    have hnew : s.schedule.register = {} := by
      rw [eq_of_create hcreate]
      rfl
    rw [← hnew]
    exact s.proceeds_steps sts
  refine ⟨hbalanced, hreach, ?_⟩
  intro ctx keys values giveUp hcheck hkeys
  exact countsFailures hcheck hkeys (hbalanced _ hreach)

/-- The store crashes under one key and fails under another. -/
def halfFailing : Session :=
  (tracing.steps [.storeRules [{ only := some "\"Item\",2", trouble := { crash := some "boom" } },
    { only := some "\"Item\",3", trouble := { fail := some .cancelled } }]]).1

/-- Two of three pieces fail in the outcome, and one of them is counted. -/
theorem failed_pieces_counted_halfFailing :
    create { maxBatchSize := some 1 } {} 500 .traced = .ok tracing ∧
      halfFailing.CountsFailures (tracing.contextNamed "root")
        [.numbered "Item" 1, .numbered "Item" 2, .numbered "Item" 3] [.int 1, .int 2, .int 3]
        none ∧
      (halfFailing.writeMany (tracing.contextNamed "root")
        [.numbered "Item" 1, .numbered "Item" 2, .numbered "Item" 3] [.int 1, .int 2, .int 3]
        none).1.total .failedPieces = 1 := by
  have hcreate : create { maxBatchSize := some 1 } {} 500 .traced = .ok tracing := rfl
  exact ⟨hcreate, (failed_pieces_counted hcreate _).2.2 _ _ _ _ rfl rfl, rfl⟩

def crashing : Session :=
  (tracing.steps [.storeRules [{ trouble := { crash := some "boom" } }]]).1

/-- A piece whose task has crashed fails in the outcome of its request, and its
failure is not counted. -/
theorem uncounted_crash :
    Request.check [.numbered "Item" 1] [.int 1] = .ok () ∧ crashing.AllEnded ∧
      crashing.total .failedPieces = 0 ∧
      ∃ ends, (crashing.writeMany (crashing.contextNamed "root") [.numbered "Item" 1] [.int 1]
          none).2 = .written (crashing.client.outcomeOf [.numbered "Item" 1] [.int 1] ends) ∧
        Client.failedIn ((crashing.client.pieces [.numbered "Item" 1] [.int 1]).map
          Client.Piece.span) ends = 1 ∧
        (crashing.writeMany (crashing.contextNamed "root") [.numbered "Item" 1] [.int 1]
          none).1.total .failedPieces = 0 :=
  ⟨rfl, fun _ hmem => (List.not_mem_nil hmem).elim, rfl, [.crashed "boom"], rfl, rfl, rfl⟩

end Session
end Simulation
end WriteLatch
