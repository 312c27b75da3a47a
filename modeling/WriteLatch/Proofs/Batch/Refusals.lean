import Mathlib.Algebra.BigOperators.Group.List.Basic
import WriteLatch.Proofs.Batch.Faultless
import WriteLatch.Proofs.Batch.Lateness
import WriteLatch.Proofs.Protocol.Promptness

/-!
# Requests that come too late

A request whose context is over when it is made is cut into pieces all the same,
but none of them is written, however their transactions take turns.  Every slot
says why the context is over, and there is one report for every piece.  The
caller is answered, unless the caller gives up before.
-/

namespace WriteLatch

/-!
## Requests of which every piece has failed
-/

namespace Client

variable {spans : List Span} {ends : List TaskEnd}

/-- If every piece of a request has failed as a whole, each slot has the failure of
its piece. -/
theorem exists_slots_of_failed {p : Failure -> Prop} (hlength : ends.length = spans.length)
    (hsome : spans ≠ []) (h : ∀ e ∈ ends, ∃ f, p f ∧ e.result = Transaction.wholesale f) :
    ∃ slots, merged spans ends = .error (.positional slots) ∧
      ∀ slot ∈ slots.toList, ∃ f, p f ∧ slot = .error f := by
  have hfailed (piece : Span × TaskEnd) (hmem : piece ∈ spans.zip ends) :
      ∃ f, p f ∧ Batch.conform piece.1 piece.2.result = Transaction.wholesale f := by
    rcases h piece.2 (List.of_mem_zip hmem).2 with ⟨f, hf, hresult⟩
    rw [hresult]
    exact ⟨f, hf, rfl⟩
  have hslots : ∀ slot ∈ slotsOf (merged spans ends), ∃ f, p f ∧ slot = .error f := by
    intro slot hmem
    rw [slotsOf_merged, List.mem_flatMap] at hmem
    rcases hmem with ⟨piece, hpiece, hslot⟩
    rcases hfailed piece hpiece with ⟨f, hf, hconform⟩
    rw [hconform] at hslot
    exact ⟨f, hf, List.eq_of_mem_replicate hslot⟩
  cases hresult : Batch.merge spans (ends.map TaskEnd.result) with
  | error slots =>
      have hmerged : merged spans ends = .error (.positional slots) := by
        rw [merged, hresult]
        rfl
      rw [hmerged] at hslots
      exact ⟨slots, hmerged, hslots⟩
  | ok keys =>
      have hall := Batch.exists_merge_eq_ok_iff.mp ⟨keys, hresult⟩
      have hpos : 0 < (spans.zip ends).length := by
        rw [List.length_zip, hlength, Nat.min_self]
        exact List.length_pos_iff.mpr hsome
      rcases List.exists_mem_of_length_pos hpos with ⟨piece, hmem⟩
      rcases hfailed piece hmem with ⟨f, _, hconform⟩
      have hmapped : (piece.1, piece.2.result) ∈ spans.zip (ends.map TaskEnd.result) := by
        rw [List.zip_map_right]
        exact List.mem_map_of_mem (f := Prod.map id TaskEnd.result) hmem
      rcases hall _ hmapped with ⟨keys', hkeys⟩
      cases hconform.symm.trans hkeys

/-- There are pieces if there are keys, so a request has slots when all pieces have
failed. -/
theorem exists_slots_of_pieces {c : Client} {keys : List Key} {values : List Value}
    {p : Failure -> Prop} (hkeys : keys.isEmpty = false)
    (hlength : ends.length = (c.pieces keys values).length)
    (h : ∀ e ∈ ends, ∃ f, p f ∧ e.result = Transaction.wholesale f) :
    ∃ slots, c.outcomeOf keys values ends = .error (.positional slots) ∧
      ∀ slot ∈ slots.toList, ∃ f, p f ∧ slot = .error f := by
  have hspans : (c.pieces keys values).map Piece.span ≠ [] := by
    intro hnone
    have hcount := congrArg List.length hnone
    rw [List.length_map, length_pieces, Span.length_split, List.length_nil] at hcount
    have hcover := Span.le_pieceCount_mul keys.length c.batchSize
    rw [hcount, Nat.zero_mul, Nat.le_zero, List.length_eq_zero_iff] at hcover
    rw [hcover] at hkeys
    cases hkeys
  have hsame : ends.length = ((c.pieces keys values).map Piece.span).length := by
    rw [hlength, List.length_map]
  exact exists_slots_of_failed hsame hspans h

end Client

namespace Simulation

/-- Who is answered was waiting for transactions of the crew, and all of them have
ended. -/
theorem Schedule.ends?_crew_of_await {s schedule schedule' : Schedule} {span : Span}
    {giveUp : Option Millis} {ends : List Client.TaskEnd}
    (h : s.await span giveUp = (schedule, some ends)) (htasks : schedule'.tasks = schedule.tasks) :
    (schedule'.crew []).ends? span = some ends := by
  have hends := ends?_of_await (congrArg Prod.snd h)
  rw [h, ends?_eq, runs, ← htasks] at hends
  rw [Crew.ends?, crew, List.append_nil]
  exact hends

/-!
## Whole requests
-/

namespace Session

def AllEnded (s : Session) : Prop :=
  ∀ task ∈ s.schedule.tasks, task.hasEnded = true

/-- All tasks have ended, and no turn is to be taken. -/
structure IsIdle (s : Session) : Prop where
  ended : s.AllEnded
  ready : s.schedule.ready = []
  deferred : s.schedule.deferred = []

/-- The session after tasks were started for a request. -/
def started (s : Session) (ctx : Context) (keys : List Key) (values : List Value) : Session :=
  (s.startMany (s.client.bounded s.scene.now ctx) (s.client.pieces keys values) keys.length).1

/-- The positions of the tasks of the next request. -/
def spanFor (s : Session) (keys : List Key) (values : List Value) : Span :=
  s.schedule.nextSpan (s.client.pieces keys values).length

section Started

variable {s : Session} {ctx : Context} {keys : List Key} {values : List Value}
  {first : Interruption}

theorem tended_started (s : Session) (ctx : Context) (keys : List Key) (values : List Value) :
    s.scene.Tended (s.started ctx keys values).scene :=
  tended_counted s.scene _ keys.length (s.client.pieces keys values).length

theorem runs_started (s : Session) (ctx : Context) (keys : List Key) (values : List Value) :
    ((s.started ctx keys values).schedule.crew []).runs =
      s.schedule.tasks.map Task.run ++ (s.client.pieces keys values).map fun piece =>
        { ctx := s.client.bounded s.scene.now ctx, keys := piece.keys, values := piece.values } := by
  rw [started, startMany, Schedule.crew, Schedule.spawn]
  simp only [List.append_nil, List.map_append, List.map_map]
  rfl

end Started

/-!
### What becomes of a request that is late
-/

section Late

variable {s : Session} {ctx : Context} {keys : List Key} {values : List Value}
  {first : Interruption}

theorem length_of_ends? {crew : Crew} {ends : List Client.TaskEnd}
    (hreach : ((s.started ctx keys values).schedule.crew []).Reaches crew)
    (h : crew.ends? (s.spanFor keys values) = some ends) :
    ends.length = (s.client.pieces keys values).length := by
  have hruns := hreach.length_runs
  rw [runs_started, List.length_append, List.length_map, List.length_map] at hruns
  have hstop : (s.spanFor keys values).stop <= crew.runs.length := by
    rw [hruns, spanFor, Schedule.nextSpan]
  have hlength := congrArg List.length (mapM_eq_some_iff.mp h)
  rw [List.length_map, List.length_map, Span.length_slice hstop, spanFor, Schedule.nextSpan,
    Span.size, Nat.add_sub_cancel_left] at hlength
  exact hlength.symm

theorem writeMany_eq (hcheck : Request.check keys values = .ok ())
    (hkeys : keys.isEmpty = false) (giveUp : Option Millis) :
    s.writeMany ctx keys values giveUp =
      match (s.started ctx keys values).schedule.await (s.spanFor keys values)
          (s.giveUpAt giveUp) with
      | (schedule, some ends) =>
          finishMany { s with schedule := schedule }
            ((s.client.pieces keys values).map Client.Piece.span) ends
      | (schedule, none) => ({ s with schedule := schedule }, .abandoned) := by
  have hclient : (s.started ctx keys values).client = s.client := rfl
  have hspan : (s.startMany (s.client.bounded s.scene.now ctx) (s.client.pieces keys values)
      keys.length).2 = s.spanFor keys values := rfl
  unfold writeMany
  simp only [hcheck, hkeys, Bool.false_eq_true, if_false, hspan]
  rw [started] at hclient ⊢
  generalize s.startMany _ (s.client.pieces keys values) keys.length = begun at hclient ⊢
  rcases begun with ⟨⟨client, schedule⟩, span⟩
  dsimp only at hclient ⊢
  rw [hclient]
  generalize schedule.await _ _ = awaited
  rcases awaited with ⟨schedule', ends⟩
  cases ends <;> rfl

/-- Who is answered is told how the tasks have ended. -/
theorem outcome_writeMany (hcheck : Request.check keys values = .ok ())
    (hkeys : keys.isEmpty = false) (giveUp : Option Millis) :
    (s.writeMany ctx keys values giveUp).2 = .abandoned ∨
      ∃ ends, ((s.writeMany ctx keys values giveUp).1.schedule.crew []).ends?
          (s.spanFor keys values) = some ends ∧
        (s.writeMany ctx keys values giveUp).2 = .written (s.client.outcomeOf keys values ends) := by
  rw [writeMany_eq hcheck hkeys giveUp]
  generalize hawaited : (s.started ctx keys values).schedule.await _ _ = awaited
  rcases awaited with ⟨schedule, ends⟩
  cases ends with
  | none => exact Or.inl rfl
  | some ends => exact Or.inr ⟨ends, Schedule.ends?_crew_of_await hawaited rfl, rfl⟩

end Late

/-!
### What lasts in a session
-/

theorem isTidy_of_create {config : Config} {store : Store} {announced : Nat}
    {reporting : Reporting} {s : Session} (h : create config store announced reporting = .ok s) :
    s.scene.IsTidy := by
  rw [eq_of_create h]
  constructor
  · intro t hmem
    cases hmem
  · intro entry hmem
    rw [List.mem_singleton.mp hmem]
    exact Nat.zero_lt_one

end Session

/-- What lasts while time passes, and lasts in what else happens, lasts for ever. -/
theorem Books.Reaches.lasts {p : Scene -> Prop}
    (hpasses : ∀ {before after : Scene}, before.Passes after -> p before -> p after)
    {b b' : Books} (h : Reaches (fun before after => p before -> p after) b b')
    (hfirst : p b.scene) : p b'.scene := by
  induction h with
  | refl => exact hfirst
  | @tail between b' hreach hstep ih =>
      cases hstep with
      | @moved i a ha =>
          have hscheme : between.scene.Passes (between.sceneOf a) :=
            Scene.passes_of_tokens (Nat.le_refl _) rfl rfl rfl
          exact hpasses (hscheme.trans ((between.sceneOf a).passes_move a.writer.run)) ih
      | called client ctx pieces hsplit | ran ctx scheme job hsplit => exact ih
      | meanwhile hwithin => exact hwithin ih
      | turned =>
          have hturned : between.scene.Passes between.turned.scene :=
            Scene.passes_of_tokens (Nat.le_refl _) rfl rfl rfl
          exact hpasses hturned ih

namespace Session

theorem lasts_steps {p : Scene -> Prop}
    (hpasses : ∀ {before after : Scene}, before.Passes after -> p before -> p after) {s : Session}
    (htasks : s.schedule.tasks = []) (hscheme : s.scene.scheme = s.client.config.lockScheme)
    {sts : List Step}
    (haside : ∀ st ∈ sts, ∀ {s s' : Session}, PassesBy st s s' -> p s.scene -> p s'.scene)
    (hfirst : p s.scene) : p (s.steps sts).1.scene := by
  have hentered : ∃ alone, Enters (fun before after => p before -> p after) s []
      (s.steps sts).1 (alone ++ []) ((s.steps sts).2.map Page.journal) ∧
        alone.length = sts.countP Step.runsAlone :=
    exists_enters_steps (fun htended => hpasses htended.passes) [] hscheme haside
  rcases hentered with ⟨alone, henters, _⟩
  rcases henters.books _ (hosts_of_tasks htasks) with ⟨b, hreach, hhosts, _⟩
  have hlast := hreach.lasts hpasses hfirst
  rw [hhosts.scene] at hlast
  exact hlast

theorem settings_steps {s : Session} (hscheme : s.scene.scheme = s.client.config.lockScheme)
    (sts : List Step) :
    (s.steps sts).1.client = s.client ∧ (s.steps sts).1.scene.scheme = s.scene.scheme := by
  have hentered : ∃ alone, Enters (fun _ _ => True) s [] (s.steps sts).1 (alone ++ [])
      ((s.steps sts).2.map Page.journal) ∧ alone.length = sts.countP Step.runsAlone :=
    exists_enters_steps (fun _ => trivial) [] hscheme (fun _ _ _ _ _ => trivial)
  rcases hentered with ⟨alone, henters, _⟩
  exact ⟨henters.client, henters.scheme⟩

theorem isTidy_steps {s : Session} (htasks : s.schedule.tasks = [])
    (hscheme : s.scene.scheme = s.client.config.lockScheme) (htidy : s.scene.IsTidy)
    (sts : List Step) : (s.steps sts).1.scene.IsTidy :=
  lasts_steps (fun hpasses htidy => htidy.passes hpasses) htasks hscheme
    (fun _ _ _ _ hpasses => hpasses.tidy) htidy

/-!
### Whole sessions
-/

end Session
end Simulation
end WriteLatch
