import WriteLatch.Proofs.Protocol.Reports
import WriteLatch.Proofs.Store.Replies

/-!
# Transactions that come too late

A transaction whose context is over before it begins is still given a context for
the cache, which is over as well.  So it calls nobody, ends with what has ended
its context, and reports that it has not deleted its locks.  Its moves leave the
store and the cache alone, whatever the other transactions do.
-/

namespace WriteLatch

namespace Span

variable {α : Type} {span : Span} {xs : List α} {x : α}

theorem exists_getElem?_of_mem_slice (h : x ∈ span.slice xs) :
    ∃ i, span.start <= i ∧ i < span.stop ∧ xs[i]? = some x := by
  rcases List.mem_iff_getElem?.mp h with ⟨j, hj⟩
  rw [slice, List.getElem?_take] at hj
  by_cases hlt : j < span.size
  · rw [if_pos hlt, List.getElem?_drop] at hj
    rw [size] at hlt
    exact ⟨span.start + j, Nat.le_add_right _ _, by omega, hj⟩
  · rw [if_neg hlt] at hj
    cases hj

theorem length_slice (hstop : span.stop <= xs.length) : (span.slice xs).length = span.size := by
  rw [slice, List.length_take, List.length_drop, size]
  omega

end Span

/-!
## Contexts in private
-/

/-- Within the other context, and with a token of its own right under the other's,
whose number is not below the given one. -/
structure Context.IsPrivate (k : Nat) (c parent : Context) : Prop where
  within : c.Within parent
  token : ∃ n, k <= n ∧ c.token = ⟨n :: parent.token.chain⟩

/-- A token of its own that nobody knows is cancelled only with the other. -/
theorem Context.IsPrivate.isCancelled_eq {k : Nat} {c parent : Context} (h : c.IsPrivate k parent)
    {ts : Tokens} (hbelow : ∀ t ∈ ts.cancelled, t.number < k) :
    ts.isCancelled c.token = ts.isCancelled parent.token := by
  rcases h.token with ⟨n, hn, htoken⟩
  have hunder (t : Token) (hmem : t ∈ ts.cancelled) :
      c.token.isUnder t = true ↔ parent.token.isUnder t = true := by
    rw [htoken, Token.isUnder, Token.isUnder, List.isSuffixOf_iff_suffix,
      List.isSuffixOf_iff_suffix, List.suffix_cons_iff]
    constructor
    · rintro (hself | hparent)
      · have hlt := hbelow t hmem
        rw [Token.number, hself] at hlt
        exact absurd hlt (Nat.not_lt.mpr hn)
      · exact hparent
    · exact Or.inr
  rw [Bool.eq_iff_iff, Tokens.isCancelled, Tokens.isCancelled, List.any_eq_true, List.any_eq_true]
  constructor
  · rintro ⟨t, hmem, h⟩
    exact ⟨t, hmem, (hunder t hmem).mp h⟩
  · rintro ⟨t, hmem, h⟩
    exact ⟨t, hmem, (hunder t hmem).mpr h⟩

namespace Simulation

/-!
## Scenes in which a context is over
-/

namespace Scene

/-- The context has ended in the given way, and contexts for the cache are given. -/
structure Lapsed (k : Nat) (ctx : Context) (first : Interruption) (scene : Scene) : Prop where
  gives : scene.faults.cache.context.fail = none
  issued : k <= scene.tokens.issued
  names : scene.NamesBelow k
  ended : scene.moment.ends ctx first = true

/-- What the context has ended with: the way in which it ended first, or the way in
which it is over now. -/
def Blames (ctx : Context) (first : Interruption) (scene : Scene) (i : Interruption) : Prop :=
  i = first ∨ scene.interruption? ctx = some i

theorem Passes.precedes {before after : Scene} (h : before.Passes after) :
    before.moment.Precedes after.moment :=
  ⟨h.now, h.cancelled⟩

theorem cache_cancelNamed (scene : Scene) (name : String) :
    (scene.cancelNamed name).cache = scene.cache := by
  unfold cancelNamed
  cases scene.contexts.lookup name <;> rfl

section Over

variable {k : Nat} {ctx : Context} {first : Interruption} {scene : Scene}

theorem interruption?_of_cancelled (h : scene.moment.ends ctx .cancelled = true) :
    scene.interruption? ctx = some .cancelled := by
  have hcancelled : scene.tokens.isCancelled ctx.token = true := h
  rw [interruption?, Context.interruption?, if_pos hcancelled]

theorem interruption?_of_late (hfree : scene.tokens.isCancelled ctx.token = false)
    (hlate : ctx.isLate scene.now = true) :
    scene.interruption? ctx = some .deadlineExceeded := by
  rw [interruption?, Context.interruption?, hfree, if_neg Bool.false_ne_true, if_pos hlate]

theorem Lapsed.passes {after : Scene} (h : scene.Lapsed k ctx first)
    (hpasses : scene.Passes after) : after.Lapsed k ctx first where
  gives := by
    rw [hpasses.faults]
    exact h.gives
  issued := Nat.le_trans h.issued hpasses.issued
  names := h.names.passes hpasses
  ended := hpasses.precedes.ends h.ended

/-- A cancellation lasts, and a context that is not cancelled is over by its
deadline. -/
theorem Blames.passes {after : Scene} {i : Interruption} (h : scene.Blames ctx first i)
    (hlapsed : scene.Lapsed k ctx first) (hpasses : scene.Passes after) :
    after.Blames ctx first i := by
  rcases h with hfirst | hover
  · exact Or.inl hfirst
  · have hends : scene.moment.ends ctx i = true := Moment.ends_of_interruption? hover
    cases i with
    | cancelled => exact Or.inr (interruption?_of_cancelled (hpasses.precedes.ends hends))
    | deadlineExceeded =>
        cases first with
        | deadlineExceeded => exact Or.inl rfl
        | cancelled => cases (interruption?_of_cancelled hlapsed.ended).symm.trans hover

/-- A context in private is over with the other one, and for the same reason. -/
theorem Lapsed.exists_blamed (h : scene.Lapsed k ctx first) {c : Context}
    (hc : c.IsPrivate k ctx) :
    ∃ i, scene.interruption? c = some i ∧ scene.Blames ctx first i := by
  have hsame := hc.isCancelled_eq h.names.cancelled
  cases hcancelled : scene.tokens.isCancelled ctx.token with
  | true =>
      exact ⟨.cancelled, interruption?_of_cancelled (hsame.trans hcancelled),
        Or.inr (interruption?_of_cancelled hcancelled)⟩
  | false =>
      have hlate : ctx.isLate scene.now = true := by
        cases first with
        | deadlineExceeded => exact h.ended
        | cancelled => cases hcancelled.symm.trans h.ended
      have hover : c.isOver scene.tokens scene.now = true := by
        apply hc.within.isOver
        rw [Context.isOver_eq, hlate, Bool.or_true]
      rw [Context.isOver_eq, hsame, hcancelled, Bool.false_or] at hover
      exact ⟨.deadlineExceeded, interruption?_of_late (hsame.trans hcancelled) hover,
        Or.inr (interruption?_of_late hcancelled hlate)⟩

end Over
end Scene

/-!
## One transaction
-/

/-- The stages of a transaction whose context was over before it began. -/
inductive Stage.IsShut (k : Nat) (ctx : Context) (first : Interruption) (scene : Scene) :
    Stage -> Prop where
  | opening : IsShut k ctx first scene .opening
  | locking {c : Context} (hc : c.IsPrivate k ctx) :
      IsShut k ctx first scene (.locking c .notBegun)
  | releasing {c : Context} {i : Interruption} (hc : c.IsPrivate k ctx)
      (hi : scene.Blames ctx first i) :
      IsShut k ctx first scene (.releasing c (Transaction.wholesale i.failure) .notBegun)
  | ended {i : Interruption} (hi : scene.Blames ctx first i) :
      IsShut k ctx first scene (.ended (.finished (Transaction.wholesale i.failure)))

/-- How many moves are left for a transaction that came too late. -/
def Stage.movesLeft : Stage -> Nat
  | .opening => 3
  | .locking _ _ => 2
  | .writing _ _ _ => 2
  | .releasing _ _ _ => 1
  | .ended _ => 0

theorem Stage.movesLeft_le (stage : Stage) : stage.movesLeft <= 3 := by
  cases stage <;> simp [movesLeft]

section Shut

variable {k : Nat} {ctx : Context} {first : Interruption} {scene : Scene}

theorem Stage.IsShut.passes {after : Scene} {stage : Stage} (h : stage.IsShut k ctx first scene)
    (hlapsed : scene.Lapsed k ctx first) (hpasses : scene.Passes after) :
    stage.IsShut k ctx first after := by
  cases h with
  | opening => exact IsShut.opening
  | locking hc => exact IsShut.locking hc
  | releasing hc hi => exact IsShut.releasing hc (hi.passes hlapsed hpasses)
  | ended hi => exact IsShut.ended (hi.passes hlapsed hpasses)

namespace Run

variable {run : Run}

def goesOn (run : Run) : Bool :=
  run.end?.isNone

/-- The context that is given for the cache is a private one. -/
theorem exists_private_of_gives (hlapsed : scene.Lapsed k ctx first) (hctx : run.ctx = ctx) :
    ∃ c, (run.openContext scene).2 = run.inPhase (.locking c) ∧ c.IsPrivate k ctx := by
  have hissued : ((scene.faults.cache.context.cancel.map
      (scene.call .newContext).cancelNamed).getD (scene.call .newContext)).tokens.issued =
        scene.tokens.issued := by
    cases scene.faults.cache.context.cancel with
    | none => rfl
    | some name =>
        change ((scene.call .newContext).cancelNamed name).tokens.issued = scene.tokens.issued
        unfold Scene.cancelNamed
        cases (scene.call CollaboratorCall.newContext).contexts.lookup name <;> rfl
  have hfaults : (scene.call .newContext).faults = scene.faults := rfl
  unfold openContext
  dsimp only
  rw [hfaults, hlapsed.gives]
  generalize ((scene.faults.cache.context.cancel.map
    (scene.call .newContext).cancelNamed).getD (scene.call .newContext)) = mid at hissued ⊢
  refine ⟨_, rfl, ?_⟩
  have hchild : (mid.deriveFrom run.ctx).1.IsPrivate k ctx := by
    rw [← hctx]
    exact ⟨run.ctx.within_child mid.tokens, _, hissued ▸ hlapsed.issued, rfl⟩
  cases scene.faults.cache.context.timeout with
  | none => exact hchild
  | some timeout =>
      rcases hchild with ⟨hwithin, n, hn, htoken⟩
      refine ⟨hwithin.withTimeout _ timeout, n, hn, ?_⟩
      exact (Context.token_withTimeout _ _ timeout).trans htoken

/-- What a move makes of a transaction that came too late. -/
structure Shuts (run : Run) (k : Nat) (ctx : Context) (first : Interruption) (scene after : Scene)
    (next : Run) (pace : Pace) : Prop where
  store : after.store = scene.store
  cache : after.cache = scene.cache
  cancelled : scene.faults.cache.context.cancel = none ->
    after.tokens.cancelled = scene.tokens.cancelled
  shut : next.stage.IsShut k ctx first scene
  /-- There is one report when the transaction ends, and no other. -/
  reports : ((run.release? scene).bind run.report?).toList.length +
    (if next.goesOn then 1 else 0) = if run.goesOn then 1 else 0
  goesOn : run.end? = none -> pace = .goesOn ∧ next.stage.movesLeft < run.stage.movesLeft
  rests : run.end?.isSome = true -> pace = .waits ∧ next = run

theorem cache_openContext (run : Run) (scene : Scene) :
    (run.openContext scene).1.cache = scene.cache :=
  eq_of_openContext (f := Scene.cache) Scene.cache_cancelNamed (fun _ _ => rfl) run scene

theorem cancelled_openContext (run : Run) {scene : Scene}
    (hcancel : scene.faults.cache.context.cancel = none) :
    (run.openContext scene).1.tokens.cancelled = scene.tokens.cancelled := by
  have hfaults : (scene.call .newContext).faults = scene.faults := rfl
  unfold openContext
  dsimp only
  rw [hfaults, hcancel]
  cases scene.faults.cache.context.fail <;> rfl

theorem tokens_releaseAnswered (run : Run) (scene : Scene) (result : CallResult)
    (answer : CacheAnswer) : (run.releaseAnswered scene result answer).1.tokens = scene.tokens := by
  rw [(run.works_releaseAnswered scene result answer).same]

theorem shuts_opening (hctx : run.ctx = ctx) (hlapsed : scene.Lapsed k ctx first)
    (hstage : run.stage = .opening) :
    run.Shuts k ctx first scene (run.openContext scene).1 (run.openContext scene).2 .goesOn := by
  have hgoesOn : run.end? = none := by rw [end?, hstage]
  rcases exists_private_of_gives hlapsed hctx with ⟨c, hopened, hc⟩
  rw [hopened]
  constructor
  case store => exact run.store_openContext scene
  case cache => exact run.cache_openContext scene
  case cancelled => exact run.cancelled_openContext
  case shut => exact Stage.IsShut.locking hc
  case reports =>
    rw [Run.goesOn, Run.goesOn, hgoesOn, release?, hstage]
    rfl
  case goesOn =>
    rw [hstage]
    exact fun _ => ⟨rfl, Nat.lt_succ_self _⟩
  case rests =>
    rw [hgoesOn]
    exact fun h => by cases h

theorem shuts_locking {c : Context} (hlapsed : scene.Lapsed k ctx first)
    (hc : c.IsPrivate k ctx) (hstage : run.stage = .locking c .notBegun) :
    run.Shuts k ctx first scene (run.advance scene).1 (run.advance scene).2.1
      (run.advance scene).2.2 := by
  have hgoesOn : run.end? = none := by rw [end?, hstage]
  rcases hlapsed.exists_blamed hc with ⟨i, hover, hi⟩
  simp only [advance, hstage, hover]
  constructor
  case store => rfl
  case cache => rfl
  case cancelled => exact fun _ => rfl
  case shut => exact Stage.IsShut.releasing hc hi
  case reports =>
    rw [Run.goesOn, Run.goesOn, hgoesOn, release?, hstage]
    rfl
  case goesOn =>
    rw [hstage]
    exact fun _ => ⟨rfl, Nat.lt_succ_self _⟩
  case rests =>
    rw [hgoesOn]
    exact fun h => by cases h

theorem shuts_releasing {c : Context} {i : Interruption} (hlapsed : scene.Lapsed k ctx first)
    (hc : c.IsPrivate k ctx) (hi : scene.Blames ctx first i)
    (hstage : run.stage = .releasing c (Transaction.wholesale i.failure) .notBegun) :
    run.Shuts k ctx first scene (run.advance scene).1 (run.advance scene).2.1
      (run.advance scene).2.2 := by
  have hgoesOn : run.end? = none := by rw [end?, hstage]
  rcases hlapsed.exists_blamed hc with ⟨i', hover, _⟩
  simp only [advance, hstage, hover]
  constructor
  case store => exact run.store_releaseAnswered scene _ _
  case cache => exact scene.cache_afterReport run.ctx (.interrupted i')
  case cancelled =>
    exact fun _ => congrArg Tokens.cancelled (run.tokens_releaseAnswered scene _ _)
  case shut => exact Stage.IsShut.ended hi
  case reports =>
    rw [Run.goesOn, Run.goesOn, hgoesOn, release?, hstage]
    dsimp only
    rw [Scene.callEnd?, hover]
    rfl
  case goesOn =>
    rw [hstage]
    exact fun _ => ⟨rfl, Nat.lt_succ_self _⟩
  case rests =>
    rw [hgoesOn]
    exact fun h => by cases h

theorem shuts_ended {e : Client.TaskEnd} (h : run.stage.IsShut k ctx first scene)
    (hstage : run.stage = .ended e) :
    run.Shuts k ctx first scene (run.advance scene).1 (run.advance scene).2.1
      (run.advance scene).2.2 := by
  simp only [advance, hstage]
  constructor
  case store => rfl
  case cache => rfl
  case cancelled => exact fun _ => rfl
  case shut => exact h
  case reports =>
    rw [release?, hstage]
    exact Nat.zero_add _
  case goesOn =>
    rw [end?, hstage]
    exact fun h => by cases h
  case rests => exact fun _ => ⟨rfl, rfl⟩

theorem shuts_move (hctx : run.ctx = ctx) (hlapsed : scene.Lapsed k ctx first)
    (h : run.stage.IsShut k ctx first scene) :
    run.Shuts k ctx first scene (run.move scene).1 (run.move scene).2.1 (run.move scene).2.2 := by
  have hadvance : run.Shuts k ctx first scene (run.advance scene).1 (run.advance scene).2.1
      (run.advance scene).2.2 := by
    generalize hstage : run.stage = stage at h
    cases h with
    | opening =>
        simp only [advance, hstage]
        exact shuts_opening hctx hlapsed hstage
    | locking hc => exact shuts_locking hlapsed hc hstage
    | releasing hc hi => exact shuts_releasing hlapsed hc hi hstage
    | ended hi => exact shuts_ended (hstage ▸ Stage.IsShut.ended hi) hstage
  rcases run.exists_move_eq scene with ⟨lineage, hmove⟩
  rw [hmove]
  exact ⟨hadvance.store, hadvance.cache, hadvance.cancelled, hadvance.shut, hadvance.reports,
    hadvance.goesOn, hadvance.rests⟩

/-- A transaction that came too late ends in one turn. -/
theorem ended_advanceFor {fuel : Nat} (hctx : run.ctx = ctx) (hlapsed : scene.Lapsed k ctx first)
    (h : run.stage.IsShut k ctx first scene) (hfuel : run.stage.movesLeft < fuel) :
    (advanceFor fuel run scene).2.1.end?.isSome = true := by
  induction fuel generalizing run scene with
  | zero => exact absurd hfuel (Nat.not_lt_zero _)
  | succ fuel ih =>
      have hshuts := shuts_move hctx hlapsed h
      have hpasses := scene.passes_move run
      have hnext := (run.moved_move scene).ctx
      unfold advanceFor
      generalize run.move scene = moved at hshuts hpasses hnext
      rcases moved with ⟨after, next, pace⟩
      cases hend : run.end? with
      | none =>
          rcases hshuts.goesOn hend with ⟨hpace, hlt⟩
          dsimp only at hpace hlt
          rw [hpace]
          exact ih (hnext.trans hctx) (hlapsed.passes hpasses)
            (hshuts.shut.passes hlapsed hpasses) (by omega)
      | some e =>
          rcases hshuts.rests (Option.isSome_iff_exists.mpr ⟨e, hend⟩) with ⟨hpace, hsame⟩
          dsimp only at hpace hsame
          rw [hpace, hsame]
          exact Option.isSome_iff_exists.mpr ⟨e, hend⟩

end Run
end Shut

/-!
## A crew
-/

theorem Scene.Tended.passes {before after : Scene} (h : before.Tended after) :
    before.Passes after :=
  Scene.passes_of_tokens h.now h.faults h.contexts h.tokens

/-- A transaction that has ended moves no more. -/
theorem Run.move_of_end? {run : Run} {e : Client.TaskEnd} (h : run.end? = some e) (scene : Scene) :
    run.move scene = (scene, run, .waits) := by
  have hstage := stage_of_end? h
  simp only [move, advance, hstage, h, cacheContext?]

namespace Crew

variable {crew crew' : Crew} {span : Span} {k : Nat} {ctx : Context} {first : Interruption}

theorem Goes.passes (h : crew.Goes crew') : crew.scene.Passes crew'.scene := by
  cases h with
  | @moved i run hrun => exact crew.scene.passes_move run
  | tended htended => exact htended.passes

theorem Reaches.passes (h : crew.Reaches crew') : crew.scene.Passes crew'.scene := by
  induction h with
  | refl => exact crew.scene.works_refl.passes
  | tail hfirst hstep ih => exact ih.trans hstep.passes

/-- The transactions at the positions of a span came too late. -/
structure Lapsed (span : Span) (k : Nat) (ctx : Context) (first : Interruption) (crew : Crew) :
    Prop where
  scene : crew.scene.Lapsed k ctx first
  runs : ∀ i run, crew.runs[i]? = some run -> span.start <= i -> i < span.stop ->
    run.ctx = ctx ∧ run.stage.IsShut k ctx first crew.scene

/-- They go on being too late, whatever the transactions outside the span do. -/
theorem Lapsed.reaches (h : crew.Lapsed span k ctx first) (hreach : crew.Reaches crew') :
    crew'.Lapsed span k ctx first := by
  have hruns := hreach.forall_runs
    (p := fun scene run => scene.Lapsed k ctx first ∧ run.ctx = ctx ∧
      run.stage.IsShut k ctx first scene)
    (q := fun i => span.start <= i ∧ i < span.stop) ?_ ?_ ?_ ?_
  · refine ⟨h.scene.passes hreach.passes, ?_⟩
    intro i run hrun hstart hstop
    exact (hruns i run hrun ⟨hstart, hstop⟩).2
  · rintro scene run ⟨hlapsed, hctx, hshut⟩
    have hpasses := scene.passes_move run
    exact ⟨hlapsed.passes hpasses, (run.moved_move scene).ctx.trans hctx,
      (Run.shuts_move hctx hlapsed hshut).shut.passes hlapsed hpasses⟩
  · rintro scene run other ⟨hlapsed, hctx, hshut⟩
    have hpasses := scene.passes_move other
    exact ⟨hlapsed.passes hpasses, hctx, hshut.passes hlapsed hpasses⟩
  · rintro scene scene' run htended ⟨hlapsed, hctx, hshut⟩
    exact ⟨hlapsed.passes htended.passes, hctx, hshut.passes hlapsed htended.passes⟩
  · rintro i run hrun ⟨hstart, hstop⟩
    exact ⟨h.scene, h.runs i run hrun hstart hstop⟩

/-- All others have ended, nothing has been stored or erased since, and what has
been reported and what still has to end make up a number. -/
structure Quits (span : Span) (start : Scene) (count : Nat) (crew : Crew) : Prop where
  others : ∀ i run, crew.runs[i]? = some run -> i < span.start ∨ span.stop <= i ->
    run.end?.isSome = true
  store : crew.scene.store = start.store
  cache : crew.scene.cache = start.cache
  /-- If the cache cancels nothing, nobody does. -/
  cancelled : crew.scene.faults.cache.context.cancel = none ->
    crew.scene.tokens.cancelled = start.tokens.cancelled
  reports : ∃ reports, crew.scene.tally = start.tally.after reports ∧
    reports.length + crew.runs.countP Run.goesOn = count

theorem Quits.moved {start : Scene} {count : Nat} (h : crew.Quits span start count)
    (hlapsed : crew.Lapsed span k ctx first) {i : Nat} {run : Run}
    (hrun : crew.runs[i]? = some run) (hstart : span.start <= i) (hstop : i < span.stop) :
    Quits span start count
      ⟨(run.move crew.scene).1, crew.runs.set i (run.move crew.scene).2.1⟩ := by
  rcases hlapsed.runs i run hrun hstart hstop with ⟨hctx, hshut⟩
  have hshuts := Run.shuts_move hctx hlapsed.scene hshut
  constructor
  case others =>
    intro j other hother houtside
    have hij : i ≠ j := by omega
    rw [List.getElem?_set_ne hij] at hother
    exact h.others j other hother houtside
  case store => exact hshuts.store.trans h.store
  case cache => exact hshuts.cache.trans h.cache
  case cancelled =>
    intro hcancel
    rw [(crew.scene.passes_move run).faults] at hcancel
    exact (hshuts.cancelled hcancel).trans (h.cancelled hcancel)
  case reports =>
    rcases h.reports with ⟨reports, htally, hcount⟩
    refine ⟨reports ++ ((run.release? crew.scene).bind run.report?).toList, ?_, ?_⟩
    · rw [run.tally_move crew.scene, htally, Tally.after_after]
    · have hone := hshuts.reports
      rcases List.getElem?_eq_some_iff.mp hrun with ⟨hlt, hget⟩
      have hfewer := List.boole_getElem_le_countP (p := Run.goesOn) hlt
      rw [hget] at hfewer
      dsimp only
      rw [List.countP_set hlt, hget, List.length_append]
      omega

theorem Quits.goes {start : Scene} {count : Nat} (h : crew.Quits span start count)
    (hlapsed : crew.Lapsed span k ctx first) (hgoes : crew.Goes crew') :
    crew'.Quits span start count := by
  cases hgoes with
  | @moved i run hrun =>
      by_cases hspan : span.start <= i ∧ i < span.stop
      · exact h.moved hlapsed hrun hspan.1 hspan.2
      · have hended := h.others i run hrun (by omega)
        rcases Option.isSome_iff_exists.mp hended with ⟨e, he⟩
        rcases List.getElem?_eq_some_iff.mp hrun with ⟨hlt, hget⟩
        rw [run.move_of_end? he, ← hget, List.set_getElem_self]
        exact h
  | tended htended =>
      refine ⟨h.others, htended.store.trans h.store, htended.cache.trans h.cache, ?_, ?_⟩
      · intro hcancel
        rw [htended.faults] at hcancel
        rw [htended.tokens]
        exact h.cancelled hcancel
      rcases h.reports with ⟨reports, htally, hcount⟩
      exact ⟨reports, htended.tally.trans htally, hcount⟩

theorem Quits.reaches {start : Scene} {count : Nat} (h : crew.Quits span start count)
    (hlapsed : crew.Lapsed span k ctx first) (hreach : crew.Reaches crew') :
    crew'.Quits span start count := by
  induction hreach with
  | refl => exact h
  | tail hfirst hstep ih => exact ih.goes (hlapsed.reaches hfirst) hstep

/-!
### The ends of the transactions in a span
-/

/-- The ends of the transactions at the positions of a span, once all have ended. -/
def ends? (crew : Crew) (span : Span) : Option (List Client.TaskEnd) :=
  (span.slice crew.runs).mapM Run.end?

variable {ends : List Client.TaskEnd}

/-- Every one of the ends is that of a transaction at a position of the span. -/
theorem exists_run_of_ends? (hends : crew.ends? span = some ends) {e : Client.TaskEnd}
    (hmem : e ∈ ends) : ∃ i run, crew.runs[i]? = some run ∧
      (span.start <= i ∧ i < span.stop) ∧ run.end? = some e := by
  have hin : some e ∈ (span.slice crew.runs).map Run.end? := by
    rw [mapM_eq_some_iff.mp hends]
    exact List.mem_map_of_mem hmem
  rcases List.mem_map.mp hin with ⟨run, hrun, hend⟩
  rcases Span.exists_getElem?_of_mem_slice hrun with ⟨i, hstart, hstop, hget⟩
  exact ⟨i, run, hget, ⟨hstart, hstop⟩, hend⟩

/-- Who came too late ends with what ended the context. -/
theorem Lapsed.exists_blamed (h : crew.Lapsed span k ctx first)
    (hends : crew.ends? span = some ends) :
    ∀ e ∈ ends, ∃ i, crew.scene.Blames ctx first i ∧
      e = .finished (Transaction.wholesale i.failure) := by
  intro e hmem
  rcases exists_run_of_ends? hends hmem with ⟨j, run, hget, ⟨hstart, hstop⟩, hend⟩
  rcases h.runs j run hget hstart hstop with ⟨_, hshut⟩
  rw [Run.stage_of_end? hend] at hshut
  cases hshut with
  | @ended i hi => exact ⟨i, hi, rfl⟩

end Crew
end Simulation
end WriteLatch
