import WriteLatch.Proofs.Interleaving.Smooth
import WriteLatch.Proofs.Locks.Quiescence
import WriteLatch.Proofs.Protocol.Lapses

/-!
# Locks past the end of the clock

A lock is set with the instant at which it expires.  If that lies past the end of
the clock, the lock cannot be set, and the task that tries to crashes.  As long as
the collaborators do nothing but their work, that is the only way in which a
transaction crashes, and it happens to every transaction with a lock to set, unless
its context ends first.
-/

namespace WriteLatch

def Failure.isWorker : Failure -> Bool
  | .worker _ => true
  | _ => false

namespace Transaction

/-- No failure in the result is one of a worker. -/
def IsCalm : CallResult -> Prop
  | .ok _ => True
  | .error (.wholesale f) => f.isWorker = false
  | .error (.positional slots) => ∀ f, .error f ∈ slots.toList -> f.isWorker = false

theorem isCalm_interrupted (i : Interruption) : IsCalm (wholesale i.failure) := by
  cases i <;> rfl

end Transaction

namespace Store

open Transaction (IsCalm)

theorem isWorker_of_writeAll {s : Store} {entries : List (Key × Value)} {f : Failure}
    (h : .error f ∈ (s.writeAll entries).1) : f.isWorker = false := by
  induction entries generalizing s with
  | nil => cases h
  | cons entry rest ih =>
      rcases entry with ⟨k, v⟩
      have hslot : .error f ∈ (s.write k v).1 :: ((s.write k v).2.writeAll rest).1 := h
      rcases List.mem_cons.mp hslot with hfirst | hrest
      · cases haccepts : s.accepts (k, v) with
        | true =>
            rw [write_of_accepts haccepts] at hfirst
            cases hfirst
        | false =>
            rw [write_of_not_accepts haccepts] at hfirst
            cases hfirst
            rfl
      · exact ih hrest

/-- The store has no workers that could fail. -/
theorem isCalm_putAll (s : Store) (keys : List Key) (values : List Value) :
    IsCalm (s.putAll keys values).1 := by
  have hslots (slots : List Slot) (h : ∀ f, .error f ∈ slots -> f.isWorker = false) :
      IsCalm (resultOf slots) := by
    rcases resultOf_cases slots with ⟨keys, _, hresult⟩ | ⟨_, hresult⟩
    · rw [hresult]
      trivial
    · rw [hresult]
      exact h
  unfold putAll
  dsimp only
  split
  · rfl
  · split
    · rfl
    · exact hslots _ fun f hmem => isWorker_of_writeAll hmem

end Store

namespace LockScheme

variable {scheme : LockScheme} {now : Millis}

theorem isStorable_lockItem_iff (k : Key) :
    Cache.isStorable now (scheme.lockItem k) = true ↔ scheme.IsStorable now := by
  have hlifetime : (scheme.lockItem k).lifetime = scheme.lifetime := rfl
  constructor
  · intro h
    by_cases hforever : scheme.lifetime = 0
    · exact Or.inl hforever
    · rw [Cache.isStorable, Cache.expiryOf, hlifetime, if_neg hforever] at h
      exact Or.inr (of_decide_eq_true h)
  · exact fun h => h.isStorable_lockItem k

/-- There is a lock to set for some of the keys, and its expiry is past the end of
the clock. -/
structure Overflows (scheme : LockScheme) (keys : List Key) (now : Millis) : Prop where
  lock : ∃ k ∈ keys, k.isComplete = true
  past : ¬ scheme.IsStorable now

/-- The locks cannot be set just if the expiry of one of them is past the end of
the clock. -/
theorem overflows_iff {keys : List Key} {c : Cache} :
    scheme.Overflows keys now ↔ ∃ c', c.setAll now (scheme.lockItems keys) = .error c' := by
  constructor
  · rintro ⟨⟨k, hk, hcomplete⟩, hpast⟩
    rw [lockItems]
    cases hkeys : keys.filter Key.isComplete with
    | nil =>
        have hmem : k ∈ keys.filter Key.isComplete := List.mem_filter.mpr ⟨hk, hcomplete⟩
        rw [hkeys] at hmem
        cases hmem
    | cons first rest =>
        have hfirst : ¬ Cache.isStorable now (scheme.lockItem first) = true :=
          fun h => hpast ((isStorable_lockItem_iff first).mp h)
        exact ⟨c, by rw [List.map_cons, Cache.setAll_cons, if_neg hfirst]⟩
  · rintro ⟨c', herror⟩
    have hfails : ¬ ∀ item ∈ scheme.lockItems keys, Cache.isStorable now item = true := by
      intro hall
      rw [Cache.setAll_of_storable hall] at herror
      cases herror
    rw [not_forall] at hfails
    rcases hfails with ⟨item, hfails⟩
    rw [Classical.not_imp] at hfails
    rcases hfails with ⟨hmem, hpast⟩
    rcases List.mem_map.mp hmem with ⟨k, hk, hitem⟩
    rw [← hitem] at hpast
    exact ⟨⟨k, List.mem_filter.mp hk⟩, fun h => hpast (h.isStorable_lockItem k)⟩

end LockScheme

/-- A token of its own is cancelled only with the other's, and with the same deadline
one context ends when the other does. -/
theorem Context.IsPrivate.interruption?_eq {k : Nat} {c parent : Context}
    (h : c.IsPrivate k parent) (hdeadline : c.deadline = parent.deadline) {ts : Tokens}
    (hbelow : ∀ t ∈ ts.cancelled, t.number < k) (now : Millis) :
    c.interruption? ts now = parent.interruption? ts now := by
  rw [Context.interruption?, Context.interruption?, h.isCancelled_eq hbelow, Context.isLate,
    Context.isLate, hdeadline]

namespace Simulation

open Transaction (IsCalm wholesale)

/-!
## Moves without faults
-/

/-- Nothing happens in the call but its work. -/
def Stage.IsUntroubled : Stage -> Prop
  | .opening => True
  | .locking _ call => call.IsPlain
  | .writing _ rules call => rules = [] ∧ call.IsPlain
  | .releasing _ _ call => call.IsPlain
  | .ended _ => True

/-- What a move makes of a stage if nothing happens in the calls but their work. -/
inductive PlainTurn (run : Run) (scene : Scene) : Stage -> Stage -> Prop where
  | rests (stage : Stage) : PlainTurn run scene stage stage
  | opened : PlainTurn run scene .opening (.locking (run.ctx.child scene.tokens).1 .notBegun)
  | setBegins (c : Context) :
      PlainTurn run scene (.locking c .notBegun) (.locking c (.serving []))
  | setInterrupted {c : Context} {i : Interruption} (h : scene.interruption? c = some i) :
      PlainTurn run scene (.locking c .notBegun) (.releasing c (wholesale i.failure) .notBegun)
  | set (c : Context) (h : ¬ scene.scheme.Overflows run.keys scene.cacheNow) :
      PlainTurn run scene (.locking c (.serving [])) (.writing c [] .notBegun)
  | overflows (c : Context) (h : scene.scheme.Overflows run.keys scene.cacheNow) :
      PlainTurn run scene (.locking c (.serving [])) (.ended (.crashed Cache.overflowMessage))
  | putBegins (c : Context) :
      PlainTurn run scene (.writing c [] .notBegun) (.writing c [] (.serving []))
  | putInterrupted (c : Context) {i : Interruption} (h : scene.interruption? run.ctx = some i) :
      PlainTurn run scene (.writing c [] .notBegun) (.releasing c (wholesale i.failure) .notBegun)
  | put (c : Context) :
      PlainTurn run scene (.writing c [] (.serving []))
        (.releasing c (scene.store.putAll run.keys run.values).1 .notBegun)
  | deleteBegins (c : Context) (result : CallResult) :
      PlainTurn run scene (.releasing c result .notBegun) (.releasing c result (.serving []))
  | deleteEnded (c : Context) (result : CallResult) (call : Progress (List String)) :
      PlainTurn run scene (.releasing c result call) (.ended (.finished result))

section Moves

variable {run : Run} {scene : Scene}

theorem plainTurn_opening (hplain : scene.faults = {}) :
    PlainTurn run scene .opening (run.openContext scene).2.stage := by
  have hrule : (scene.call CollaboratorCall.newContext).faults.cache.context = {} := by
    have hfaults : (scene.call CollaboratorCall.newContext).faults = scene.faults := rfl
    rw [hfaults, hplain]
  unfold Run.openContext
  simp only [hrule, Option.map_none, Option.getD_none]
  exact PlainTurn.opened

theorem plainTurn_locking (hplain : scene.faults = {}) {c : Context}
    {call : Progress (List String)} (hstage : run.stage = .locking c call)
    (hcall : call.IsPlain) :
    PlainTurn run scene (.locking c call) (run.advance scene).2.1.stage := by
  cases call with
  | notBegun =>
      simp only [Run.advance, hstage, hplain]
      cases hover : scene.interruption? c with
      | some i => exact PlainTurn.setInterrupted hover
      | none =>
          dsimp only
          split
          · rw [hstage]
            exact PlainTurn.rests _
          · exact PlainTurn.setBegins c
  | serving beats =>
      cases hcall
      simp only [Run.advance, hstage, Scene.serve, Run.setLocks]
      cases hset : scene.cache.setAll scene.cacheNow (run.lockItems scene) with
      | ok cache =>
          apply PlainTurn.set
          intro hoverflows
          rcases LockScheme.overflows_iff.mp hoverflows with ⟨c', herror⟩
          cases hset.symm.trans herror
      | error cache => exact PlainTurn.overflows c (LockScheme.overflows_iff.mpr ⟨cache, hset⟩)
  | paused resume rest => exact hcall.elim

theorem plainTurn_writing (hplain : scene.faults = {}) {c : Context} {call : Progress Failure}
    (hstage : run.stage = .writing c [] call) (hcall : call.IsPlain) :
    PlainTurn run scene (.writing c [] call) (run.advance scene).2.1.stage := by
  cases call with
  | notBegun =>
      simp only [Run.advance, hstage]
      cases hover : scene.interruption? run.ctx with
      | some i => exact PlainTurn.putInterrupted c hover
      | none =>
          dsimp only
          split
          · rw [hstage]
            exact PlainTurn.rests _
          · rw [scene.faults_lookForLocks run.keys, hplain]
            exact PlainTurn.putBegins c
  | serving beats =>
      cases hcall
      have hsame : answerAfter [] run.keys (scene.store.putAll run.keys run.values).1 =
          (scene.store.putAll run.keys run.values).1 :=
        answerAfter_putAll (fun rule hmem => by cases hmem) _ _ _
      have hput : PlainTurn run scene (.writing c [] (.serving [])) (.releasing c
          (answerAfter [] run.keys (scene.store.putAll run.keys run.values).1) .notBegun) := by
        rw [hsame]
        exact PlainTurn.put c
      simp only [Run.advance, hstage, Scene.serve]
      exact hput
  | paused resume rest => exact hcall.elim

theorem plainTurn_releasing (hplain : scene.faults = {}) {c : Context} {result : CallResult}
    {call : Progress (List String)} (hstage : run.stage = .releasing c result call)
    (hcall : call.IsPlain) :
    PlainTurn run scene (.releasing c result call) (run.advance scene).2.1.stage := by
  have hended (mid : Scene) (answer : CacheAnswer) : PlainTurn run scene (.releasing c result call)
      (run.releaseAnswered mid result answer).2.stage := by
    rw [Run.stage_releaseAnswered]
    exact PlainTurn.deleteEnded c result call
  cases call with
  | notBegun =>
      simp only [Run.advance, hstage, hplain]
      cases scene.interruption? c with
      | some i => exact hended scene _
      | none =>
          dsimp only
          split
          · rw [hstage]
            exact PlainTurn.rests _
          · exact PlainTurn.deleteBegins c result
  | serving beats =>
      cases hcall
      simp only [Run.advance, hstage, Scene.serve]
      exact hended _ _
  | paused resume rest => exact hcall.elim

theorem plainTurn_move (hplain : scene.faults = {}) (hstage : run.stage.IsUntroubled) :
    PlainTurn run scene run.stage (run.move scene).2.1.stage := by
  rw [run.run_move scene]
  cases hcurrent : run.stage with
  | opening =>
      simp only [Run.advance, hcurrent]
      exact plainTurn_opening hplain
  | locking c call =>
      rw [hcurrent] at hstage
      exact plainTurn_locking hplain hcurrent hstage
  | writing c rules call =>
      rw [hcurrent] at hstage
      rcases hstage with ⟨hrules, hcall⟩
      rw [hrules] at hcurrent ⊢
      exact plainTurn_writing hplain hcurrent hcall
  | releasing c result call =>
      rw [hcurrent] at hstage
      exact plainTurn_releasing hplain hcurrent hstage
  | ended e =>
      simp only [Run.advance, hcurrent]
      exact PlainTurn.rests _

end Moves

/-!
## One transaction
-/

/-- How a transaction may end: with no failure of a worker, or in a crash because its
locks overflow.  If they do, it ends in no other way before its context does. -/
inductive Scene.MayEnd (ctx : Context) (overflows : Prop) (scene : Scene) :
    Client.TaskEnd -> Prop where
  | calm {result : CallResult} (hcalm : IsCalm result) (hfits : ¬ overflows) :
      MayEnd ctx overflows scene (.finished result)
  | interrupted {i : Interruption} (hends : scene.moment.ends ctx i = true) :
      MayEnd ctx overflows scene (.finished (wholesale i.failure))
  | crashed (hoverflows : overflows) :
      MayEnd ctx overflows scene (.crashed Cache.overflowMessage)

/-- How far a transaction may have come that was given its context in a scene without
faults. -/
def Stage.MayHold (k : Nat) (ctx : Context) (overflows : Prop) (scene : Scene) : Stage -> Prop
  | .opening => True
  | .locking c call => c.IsPrivate k ctx ∧ c.deadline = ctx.deadline ∧ call.IsPlain
  | .writing _ rules call => ¬ overflows ∧ rules = [] ∧ call.IsPlain
  | .releasing _ result call => scene.MayEnd ctx overflows (.finished result) ∧ call.IsPlain
  | .ended e => scene.MayEnd ctx overflows e

/-- The collaborators have no faults, and no token from the given number on has a name or
is cancelled. -/
structure Scene.IsUntroubled (k : Nat) (scene : Scene) : Prop where
  faults : scene.faults = {}
  issued : k <= scene.tokens.issued
  names : scene.NamesBelow k

theorem Scene.IsUntroubled.passes {k : Nat} {before after : Scene} (h : before.IsUntroubled k)
    (hpasses : before.Passes after) : after.IsUntroubled k where
  faults := hpasses.faults.trans h.faults
  issued := Nat.le_trans h.issued hpasses.issued
  names := h.names.passes hpasses

section MayHold

variable {k : Nat} {ctx : Context} {overflows : Prop} {scene : Scene} {stage : Stage}

theorem Scene.MayEnd.passes {after : Scene} {e : Client.TaskEnd}
    (h : scene.MayEnd ctx overflows e) (hpasses : scene.Passes after) :
    after.MayEnd ctx overflows e := by
  cases h with
  | calm hcalm hfits => exact MayEnd.calm hcalm hfits
  | interrupted hends => exact MayEnd.interrupted (hpasses.precedes.ends hends)
  | crashed hoverflows => exact MayEnd.crashed hoverflows

theorem Stage.MayHold.passes {after : Scene} (h : stage.MayHold k ctx overflows scene)
    (hpasses : scene.Passes after) : stage.MayHold k ctx overflows after := by
  cases stage with
  | opening => trivial
  | locking c call | writing c rules call => exact h
  | releasing c result call => exact ⟨h.1.passes hpasses, h.2⟩
  | ended e => exact Scene.MayEnd.passes h hpasses

theorem Stage.MayHold.isUntroubled (h : stage.MayHold k ctx overflows scene) :
    stage.IsUntroubled := by
  cases stage with
  | opening | ended e => trivial
  | locking c call => exact h.2.2
  | writing c rules call | releasing c result call => exact h.2

/-- The context for the cache ends when the other one does. -/
theorem Scene.IsUntroubled.ends_of_interruption? (h : scene.IsUntroubled k) {c : Context}
    (hc : c.IsPrivate k ctx) (hdeadline : c.deadline = ctx.deadline) {i : Interruption}
    (hover : scene.interruption? c = some i) : scene.moment.ends ctx i = true := by
  apply Moment.ends_of_interruption?
  rw [← hover]
  exact (hc.interruption?_eq hdeadline h.names.cancelled _).symm

theorem mayHold_move {run : Run} (hscene : scene.IsUntroubled k) (hctx : run.ctx = ctx)
    (hoverflows : scene.scheme.Overflows run.keys scene.cacheNow ↔ overflows)
    (h : run.stage.MayHold k ctx overflows scene) :
    (run.move scene).2.1.stage.MayHold k ctx overflows scene := by
  have hturn : PlainTurn run scene run.stage (run.move scene).2.1.stage :=
    plainTurn_move hscene.faults h.isUntroubled
  generalize run.stage = stage at h hturn
  generalize (run.move scene).2.1.stage = next at hturn ⊢
  cases hturn with
  | rests stage => exact h
  | opened =>
      rw [hctx]
      exact ⟨⟨ctx.within_child scene.tokens, _, hscene.issued, rfl⟩, rfl, trivial⟩
  | setBegins c => exact ⟨h.1, h.2.1, rfl⟩
  | setInterrupted hover =>
      exact ⟨Scene.MayEnd.interrupted (hscene.ends_of_interruption? h.1 h.2.1 hover), trivial⟩
  | set c hfits => exact ⟨fun hover => hfits (hoverflows.mpr hover), rfl, trivial⟩
  | overflows c hover => exact Scene.MayEnd.crashed (hoverflows.mp hover)
  | putBegins c => exact ⟨h.1, rfl, rfl⟩
  | putInterrupted c hover =>
      rw [hctx] at hover
      exact ⟨Scene.MayEnd.interrupted (Moment.ends_of_interruption? hover), trivial⟩
  | put c => exact ⟨Scene.MayEnd.calm (scene.store.isCalm_putAll _ _) h.1, trivial⟩
  | deleteBegins c result => exact ⟨h.1, rfl⟩
  | deleteEnded c result call => exact h.1

end MayHold

/-!
## A crew
-/

/-- A move leaves the clock of the cache alone. -/
theorem Run.cacheNow_move (run : Run) (scene : Scene) :
    (run.move scene).1.cacheNow = scene.cacheNow :=
  eq_of_move (f := Scene.cacheNow) (fun h => by rw [h.same])
    (fun scene name => by
      unfold Scene.cancelNamed
      cases scene.contexts.lookup name <;> rfl)
    (fun _ _ => rfl) run scene

namespace Crew

variable {crew crew' : Crew} {span : Span} {k : Nat} {ctx : Context} {overflows : Prop}

/-- The transactions at the positions of a span are under the same context in a scene
without faults, and their locks overflow or not. -/
structure GoesPlainly (span : Span) (k : Nat) (ctx : Context) (overflows : Prop) (crew : Crew) :
    Prop where
  scene : crew.scene.IsUntroubled k
  runs : ∀ i run, crew.runs[i]? = some run -> span.start <= i ∧ i < span.stop ->
    run.ctx = ctx ∧ (crew.scene.scheme.Overflows run.keys crew.scene.cacheNow ↔ overflows) ∧
      run.stage.MayHold k ctx overflows crew.scene

theorem GoesPlainly.reaches (h : crew.GoesPlainly span k ctx overflows)
    (hreach : crew.Reaches crew') : crew'.GoesPlainly span k ctx overflows := by
  have hruns := hreach.forall_runs
    (p := fun scene run => scene.IsUntroubled k ∧ run.ctx = ctx ∧
      (scene.scheme.Overflows run.keys scene.cacheNow ↔ overflows) ∧
        run.stage.MayHold k ctx overflows scene)
    (q := fun i => span.start <= i ∧ i < span.stop) ?_ ?_ ?_ ?_
  · exact ⟨h.scene.passes hreach.passes, fun i run hrun hspan => (hruns i run hrun hspan).2⟩
  · rintro scene run ⟨hscene, hctx, hoverflows, hholds⟩
    have hpasses := scene.passes_move run
    have hmoved := run.moved_move scene
    refine ⟨hscene.passes hpasses, hmoved.ctx.trans hctx, ?_,
      (mayHold_move hscene hctx hoverflows hholds).passes hpasses⟩
    rw [run.scheme_move, run.cacheNow_move, hmoved.keys]
    exact hoverflows
  · rintro scene run other ⟨hscene, hctx, hoverflows, hholds⟩
    have hpasses := scene.passes_move other
    refine ⟨hscene.passes hpasses, hctx, ?_, hholds.passes hpasses⟩
    rw [other.scheme_move, other.cacheNow_move]
    exact hoverflows
  · rintro scene scene' run htended ⟨hscene, hctx, hoverflows, hholds⟩
    refine ⟨hscene.passes htended.passes, hctx, ?_, hholds.passes htended.passes⟩
    rw [htended.scheme, htended.cacheNow]
    exact hoverflows
  · intro i run hrun hspan
    exact ⟨h.scene, h.runs i run hrun hspan⟩

theorem GoesPlainly.mayEnd (h : crew.GoesPlainly span k ctx overflows)
    {ends : List Client.TaskEnd} (hends : crew.ends? span = some ends) :
    ∀ e ∈ ends, crew.scene.MayEnd ctx overflows e := by
  intro e hmem
  rcases exists_run_of_ends? hends hmem with ⟨i, run, hrun, hspan, hend⟩
  have hholds := (h.runs i run hrun hspan).2.2
  rw [Run.stage_of_end? hend] at hholds
  exact hholds

end Crew
end Simulation
end WriteLatch
