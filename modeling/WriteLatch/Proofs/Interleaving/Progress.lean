import Mathlib.Data.Prod.Lex
import Mathlib.Order.WellFounded
import WriteLatch.Proofs.Interleaving.Calls
import WriteLatch.Proofs.Interleaving.Dispatch
import WriteLatch.Proofs.Store.Replies

/-!
# Transactions come to an end

A transaction that may take a turn and whose pause is over gets nearer to its
end with every move: a later stage, a call begun, or fewer beats of it left.
Nobody else can take it further away.  So whatever has happened so far, all
transactions of a world can come to their ends.
-/

namespace WriteLatch
namespace Simulation

/-!
## What is left to do
-/

/-- The calls that are due, whether the one that is next has to begin, and how
long it will be served. -/
abbrev ToGo : Type :=
  Nat ×ₗ Nat ×ₗ Nat

/-- A pause counts for one beat more than what follows it. -/
def Progress.toGo {ε : Type} : Progress ε -> Nat ×ₗ Nat
  | .notBegun => toLex (1, 0)
  | .serving beats => toLex (0, 2 * beats.length)
  | .paused _ beats => toLex (0, 2 * beats.length + 1)

namespace Stage

def toGo : Stage -> ToGo
  | .opening => toLex (4, toLex (0, 0))
  | .locking _ call => toLex (3, call.toGo)
  | .writing _ _ call => toLex (2, call.toGo)
  | .releasing _ _ call => toLex (1, call.toGo)
  | .ended _ => toLex (0, toLex (0, 0))

theorem toGo_lt {a b : Nat} {c d : Nat ×ₗ Nat} (h : a < b) :
    (toLex (a, c) : ToGo) < toLex (b, d) :=
  Prod.Lex.toLex_lt_toLex.mpr (Or.inl h)

theorem toGo_lt_right {a : Nat} {c d : Nat ×ₗ Nat} (h : c < d) :
    (toLex (a, c) : ToGo) < toLex (a, d) :=
  Prod.Lex.toLex_lt_toLex.mpr (Or.inr ⟨rfl, h⟩)

end Stage

/-- What is left of a call after a pause is less than before. -/
theorem Scene.length_lt_of_serve {ε : Type} {scene : Scene} {beats rest : List (Beat ε)}
    {resume : Millis} (h : (scene.serve beats).2 = .paused resume rest ∨
      (scene.serve beats).2 = .gaveWay resume rest) : rest.length < beats.length := by
  induction beats generalizing scene with
  | nil => rcases h with h | h <;> cases h
  | cons beat beats ih =>
      cases beat with
      | cancel name => exact Nat.lt_succ_of_lt (ih h)
      | crash message => rcases h with h | h <;> cases h
      | fail e => rcases h with h | h <;> cases h
      | pause duration =>
          unfold serve at h
          by_cases hspent : scene.allowance = 0
          · rw [if_pos hspent] at h
            rcases h with h | h
            · cases h
            · cases h
              exact Nat.lt_succ_self _
          · rw [if_neg hspent] at h
            by_cases hzero : duration = 0
            · rw [if_pos hzero] at h
              exact Nat.lt_succ_of_lt (ih h)
            · rw [if_neg hzero] at h
              rcases h with h | h
              · cases h
                exact Nat.lt_succ_self _
              · cases h

theorem GoesOn.toGo_lt {ε : Type} {scene : Scene} {c : Context} {beats : List (Beat ε)}
    {call call' : Progress ε} (h : GoesOn scene c beats call call') : call'.toGo < call.toGo := by
  cases h with
  | begins hover => exact Prod.Lex.toLex_lt_toLex.mpr (Or.inl Nat.zero_lt_one)
  | pauses hserved =>
      have hlt := Scene.length_lt_of_serve hserved
      exact Prod.Lex.toLex_lt_toLex.mpr (Or.inr ⟨rfl, by omega⟩)
  | resumes resume rest hover =>
      exact Prod.Lex.toLex_lt_toLex.mpr (Or.inr ⟨rfl, Nat.lt_succ_self _⟩)

/-- A move that leads anywhere leads nearer to the end. -/
theorem Turns.toGo_lt {run : Run} {scene : Scene} {stage stage' : Stage} {store : Store}
    (h : Turns run scene stage store stage') (hmoves : stage' ≠ stage) :
    stage'.toGo < stage.toGo := by
  cases h with
  | rests stage => exact absurd rfl hmoves
  | @opened answer hanswer => cases answer <;> exact Stage.toGo_lt (by decide)
  | setGoesOn hcall | putGoesOn hrules hcall | deleteGoesOn hcall =>
      exact Stage.toGo_lt_right hcall.toGo_lt
  | @setEnded c call answer hended =>
      rcases answer with i | (causes | u) <;> exact Stage.toGo_lt (by decide)
  | @putEnded c rules call answer hended =>
      cases hanswer : run.storeAnswer scene rules answer <;> exact Stage.toGo_lt (by decide)
  | deleteEnded hended => exact Stage.toGo_lt (by decide)
  | setCrashed c beats message | putCrashed c rules beats message
  | deleteCrashed c result beats message => exact Stage.toGo_lt (by decide)

/-!
## One move
-/

namespace Run

variable {run : Run} {scene : Scene}

/-- The transaction may take a turn: it does not have to give way, and its pause
is over. -/
structure IsDue (run : Run) (scene : Scene) : Prop where
  allowance : scene.allowance ≠ 0
  resumes : ∀ c resume, run.waiting? = some (c, resume) -> resume <= scene.now

theorem stage_locking_ne {c : Context} {call : Progress (List String)}
    (hstage : run.stage = .locking c call) (hdue : run.IsDue scene) :
    (run.advance scene).2.1.stage ≠ .locking c call := by
  cases call with
  | notBegun =>
      simp only [advance, hstage]
      cases scene.interruption? c with
      | some i => exact Stage.noConfusion
      | none =>
          simp only [hdue.allowance, if_false]
          intro h
          cases h
  | serving beats =>
      simp only [advance, hstage]
      rcases scene.serve beats with ⟨mid, served⟩
      cases served with
      | paused resume rest | gaveWay resume rest =>
          intro h
          cases h
      | crashed message | failed causes => exact Stage.noConfusion
      | completed =>
          dsimp only
          unfold setLocks
          cases mid.cache.setAll mid.cacheNow (run.lockItems mid) with
          | ok cache => exact Stage.noConfusion
          | error cache => exact Stage.noConfusion
  | paused resume rest =>
      have hresumes : resume <= scene.now := by
        apply hdue.resumes c
        rw [waiting?, hstage]
      simp only [advance, hstage]
      cases scene.interruption? c with
      | some i => exact Stage.noConfusion
      | none =>
          simp only [hresumes, if_true]
          intro h
          cases h

theorem stage_writing_ne {c : Context} {rules : List StoreRule} {call : Progress Failure}
    (hstage : run.stage = .writing c rules call) (hdue : run.IsDue scene) :
    (run.advance scene).2.1.stage ≠ .writing c rules call := by
  cases call with
  | notBegun =>
      simp only [advance, hstage]
      cases scene.interruption? run.ctx with
      | some i => exact Stage.noConfusion
      | none =>
          simp only [hdue.allowance, if_false]
          intro h
          cases h
  | serving beats =>
      simp only [advance, hstage]
      rcases scene.serve beats with ⟨mid, served⟩
      cases served with
      | paused resume rest | gaveWay resume rest =>
          intro h
          cases h
      | crashed message | failed f | completed => exact Stage.noConfusion
  | paused resume rest =>
      have hresumes : resume <= scene.now := by
        apply hdue.resumes run.ctx
        rw [waiting?, hstage]
      simp only [advance, hstage]
      cases scene.interruption? run.ctx with
      | some i => exact Stage.noConfusion
      | none =>
          simp only [hresumes, if_true]
          intro h
          cases h

theorem stage_releaseAnswered (run : Run) (scene : Scene) (result : CallResult)
    (answer : CacheAnswer) :
    (run.releaseAnswered scene result answer).2.stage = .ended (.finished result) := by
  unfold releaseAnswered
  cases Transaction.releaseCauses? answer <;> rfl

theorem stage_releasing_ne {c : Context} {result : CallResult} {call : Progress (List String)}
    (hstage : run.stage = .releasing c result call) (hdue : run.IsDue scene) :
    (run.advance scene).2.1.stage ≠ .releasing c result call := by
  have hended (scene : Scene) (answer : CacheAnswer) :
      (run.releaseAnswered scene result answer).2.stage ≠ .releasing c result call := by
    rw [stage_releaseAnswered]
    exact Stage.noConfusion
  cases call with
  | notBegun =>
      simp only [advance, hstage]
      cases scene.interruption? c with
      | some i => exact hended scene _
      | none =>
          simp only [hdue.allowance, if_false]
          intro h
          cases h
  | serving beats =>
      simp only [advance, hstage]
      rcases scene.serve beats with ⟨mid, served⟩
      cases served with
      | paused resume rest | gaveWay resume rest =>
          intro h
          cases h
      | crashed message => exact Stage.noConfusion
      | failed causes => exact hended mid _
      | completed => exact hended _ _
  | paused resume rest =>
      have hresumes : resume <= scene.now := by
        apply hdue.resumes c
        rw [waiting?, hstage]
      simp only [advance, hstage]
      cases scene.interruption? c with
      | some i => exact hended _ _
      | none =>
          simp only [hresumes, if_true]
          intro h
          cases h

/-- A transaction that is due and has not ended leads on. -/
theorem stage_move_ne (hgoesOn : run.end? = none) (hdue : run.IsDue scene) :
    (run.move scene).2.1.stage ≠ run.stage := by
  rw [run_move]
  cases hstage : run.stage with
  | opening =>
      rcases run.openContext_spec scene with ⟨opening, hnext, _⟩
      simp only [advance, hstage, hnext]
      cases opening <;> exact Stage.noConfusion
  | locking c call => exact stage_locking_ne hstage hdue
  | writing c rules call => exact stage_writing_ne hstage hdue
  | releasing c result call => exact stage_releasing_ne hstage hdue
  | ended e =>
      rw [end?, hstage] at hgoesOn
      cases hgoesOn

theorem toGo_move_lt (hgoesOn : run.end? = none) (hdue : run.IsDue scene) :
    (run.move scene).2.1.stage.toGo < run.stage.toGo :=
  (run.turns_move scene).toGo_lt (stage_move_ne hgoesOn hdue)

end Run

/-!
## All transactions
-/

namespace World

/-- How the transactions of a world have ended, once all of them have. -/
def ends? (w : World) : Option (List Client.TaskEnd) :=
  w.writers.mapM fun writer => writer.run.end?

/-- The world at an instant, or now if that is later, at the start of a turn. -/
def later (w : World) (instant : Millis) : World :=
  { w with scene := Scene.newTurn { w.scene with now := max w.scene.now instant } }

theorem quiet_later (w : World) (instant : Millis) : w.scene.Quiet (w.later instant).scene :=
  ⟨Nat.le_max_left _ _, Nat.le_refl _, fun _ h => h, w.scene.cache.fades_refl _, rfl⟩

/-- An instant at which a transaction is due. -/
def dueAt (run : Run) : Millis :=
  (run.waiting?.map Prod.snd).getD 0

theorem isDue_later (w : World) (writer : Writer) :
    writer.run.IsDue ((w.later (dueAt writer.run)).sceneOf writer) := by
  constructor
  · exact Nat.succ_ne_zero _
  · intro c resume hwaiting
    change resume <= max w.scene.now (dueAt writer.run)
    rw [dueAt, hwaiting]
    exact Nat.le_max_right _ _

theorem isSome_end?_of_ends? {w : World} {ends : List Client.TaskEnd} (h : w.ends? = some ends)
    {writer : Writer} (hmem : writer ∈ w.writers) : writer.run.end?.isSome = true := by
  have hin : writer.run.end? ∈ ends.map some := by
    rw [← mapM_eq_some_iff.mp h]
    exact List.mem_map_of_mem hmem
  rcases List.mem_map.mp hin with ⟨e, _, heq⟩
  rw [← heq]
  rfl

theorem getElem?_of_ends? {w : World} {ends : List Client.TaskEnd} (h : w.ends? = some ends)
    (i : Nat) : (w.writers[i]?.map fun writer => writer.run.end?) = ends[i]?.map some := by
  have hall := congrArg (fun all => all[i]?) (mapM_eq_some_iff.mp h)
  rw [List.getElem?_map, List.getElem?_map] at hall
  exact hall

theorem exists_ends? {w : World}
    (h : ∀ writer ∈ w.writers, writer.run.end?.isSome = true) : ∃ ends, w.ends? = some ends :=
  exists_mapM_eq_some h

section Endings

/-- Under a relation between worlds, which keeps a property, transactions may
move and time may pass. -/
structure LetsGoOn (within : World -> World -> Prop) (p : World -> Prop) : Prop where
  moved : ∀ (w : World) (i : Nat) (writer : Writer), p w -> w.writers[i]? = some writer ->
    within w (w.moved i writer) ∧ p (w.moved i writer)
  later : ∀ (w : World) (instant : Millis), p w -> within w (w.later instant) ∧ p (w.later instant)

variable {within : World -> World -> Prop} {p : World -> Prop}

/-- One transaction comes to its end, and the others stay where they are. -/
theorem LetsGoOn.exists_ended (h : LetsGoOn within p) {w : World} (hp : p w) {i : Nat}
    {writer : Writer} (hwriter : w.writers[i]? = some writer) :
    ∃ w' writer', Relation.ReflTransGen within w w' ∧ p w' ∧
      w'.writers = w.writers.set i writer' ∧ writer'.run.end?.isSome = true := by
  induction htoGo : writer.run.stage.toGo using WellFoundedLT.induction generalizing w writer with
  | ind toGo ih =>
      cases hend : writer.run.end? with
      | some e =>
          refine ⟨w, writer, Relation.ReflTransGen.refl, hp, ?_, Option.isSome_of_eq_some hend⟩
          rcases List.getElem?_eq_some_iff.mp hwriter with ⟨hlt, hget⟩
          rw [← hget, List.set_getElem_self]
      | none =>
          rcases h.later w (dueAt writer.run) hp with ⟨hwaited, hdue⟩
          rcases h.moved _ i writer hdue hwriter with ⟨hmoved, hnext⟩
          have hlt : ((w.later (dueAt writer.run)).next writer).run.stage.toGo < toGo := by
            rw [← htoGo]
            exact Run.toGo_move_lt hend (w.isDue_later writer)
          have hself := getElem?_moved_self (w := w.later (dueAt writer.run)) hwriter
          rcases ih _ hlt hnext hself rfl with ⟨w', writer', hreach, hlast, hwriters, hended⟩
          refine ⟨w', writer', Relation.ReflTransGen.head hwaited
            (Relation.ReflTransGen.head hmoved hreach), hlast, ?_, hended⟩
          rw [hwriters, World.moved, List.set_set]
          rfl

/-- Transactions may take turns in any order. -/
theorem LetsGoOn.turns (h : LetsGoOn within p) {w : World} (hp : p w) (ids : List Nat) :
    Relation.ReflTransGen within w (w.turns ids) := by
  induction ids generalizing w with
  | nil => exact Relation.ReflTransGen.refl
  | cons i rest ih =>
      unfold World.turns
      cases hwriter : w.writers[i]? with
      | none => exact ih hp
      | some writer =>
          rcases h.moved w i writer hp hwriter with ⟨hstep, hnext⟩
          exact Relation.ReflTransGen.head hstep (ih hnext)

/-- All transactions come to their ends, one after another. -/
theorem LetsGoOn.exists_ends? (h : LetsGoOn within p) {w : World} (hp : p w) :
    ∃ w' ends, Relation.ReflTransGen within w w' ∧ p w' ∧ w'.ends? = some ends := by
  have hfirst (n : Nat) : ∃ w', Relation.ReflTransGen within w w' ∧ p w' ∧
      w'.writers.length = w.writers.length ∧
        ∀ i writer, i < n -> w'.writers[i]? = some writer -> writer.run.end?.isSome = true := by
    induction n with
    | zero =>
        refine ⟨w, Relation.ReflTransGen.refl, hp, rfl, ?_⟩
        intro i writer hi
        exact absurd hi (Nat.not_lt_zero i)
    | succ n ih =>
        rcases ih with ⟨between, hreach, hbetween, hlength, hended⟩
        cases hwriter : between.writers[n]? with
        | none =>
            refine ⟨between, hreach, hbetween, hlength, ?_⟩
            intro i writer hi hfound
            apply hended i writer _ hfound
            have hlt := (List.getElem?_eq_some_iff.mp hfound).1
            have hle := List.getElem?_eq_none_iff.mp hwriter
            exact Nat.lt_of_lt_of_le hlt hle
        | some writer =>
            rcases h.exists_ended hbetween hwriter with
              ⟨w', writer', hlast, hp', hwriters, hend⟩
            refine ⟨w', hreach.trans hlast, hp', ?_, ?_⟩
            · rw [hwriters, List.length_set, hlength]
            · intro i other hi hfound
              rw [hwriters, List.getElem?_set] at hfound
              by_cases hsame : n = i
              · rw [if_pos hsame] at hfound
                split at hfound
                · cases hfound
                  exact hend
                · cases hfound
              · rw [if_neg hsame] at hfound
                exact hended i other (by omega) hfound
  rcases hfirst w.writers.length with ⟨w', hreach, hp', hlength, hended⟩
  have hall : ∀ writer ∈ w'.writers, writer.run.end?.isSome = true := by
    intro writer hmem
    rcases List.mem_iff_getElem?.mp hmem with ⟨i, hi⟩
    have hlt := (List.getElem?_eq_some_iff.mp hi).1
    rw [hlength] at hlt
    exact hended i writer hlt hi
  rcases World.exists_ends? hall with ⟨ends, hends⟩
  exact ⟨w', ends, hreach, hp', hends⟩

end Endings

theorem letsGoOn_step : LetsGoOn Step fun _ => True :=
  ⟨fun _ _ _ _ hwriter => ⟨Step.moved hwriter, trivial⟩,
    fun w instant _ => ⟨Step.meanwhile (w.quiet_later instant), trivial⟩⟩

end World
end Simulation
end WriteLatch
