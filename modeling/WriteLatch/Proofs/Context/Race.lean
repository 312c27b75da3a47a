import Mathlib.Algebra.Order.BigOperators.Group.List
import Mathlib.Algebra.Order.Ring.Nat
import Mathlib.Algebra.Group.Action.Defs
import Mathlib.Data.List.TakeWhile
import WriteLatch.Context.Timeline

/-!
# Races

Work under a context races against the deadline of the context and against the
cancellations that were asked for.  The first of the three instants decides how
the race ends and when.  Whether a cancellation has been carried out depends on
more than its instant: where it is for the very instant at which a race begins, it
may have had its turn before or not, and if not the work is looked at first.
-/

namespace WriteLatch
namespace Timeline

/-!
## Timelines and what was asked for on them
-/

/-- The timelines there are, with the cancellations that were asked for, each
with the instant it is for. -/
inductive Reached : List (Millis × Token) -> Timeline -> Prop where
  | start : Reached [] {}
  | add {asked : List (Millis × Token)} {tl : Timeline} (h : Reached asked tl) (c : Context) :
      Reached asked (tl.add c)
  | addRoot {asked : List (Millis × Token)} {tl : Timeline} (h : Reached asked tl) :
      Reached asked tl.addRoot
  | addChild {asked : List (Millis × Token)} {tl : Timeline} (h : Reached asked tl)
      (parent : Context) : Reached asked (tl.addChild parent)
  | cancel {asked : List (Millis × Token)} {tl : Timeline} (h : Reached asked tl) (c : Context) :
      Reached (asked ++ [(tl.now, c.token)]) (tl.cancel c)
  | cancelLater {asked : List (Millis × Token)} {tl : Timeline} (h : Reached asked tl)
      (c : Context) (delay : Millis) :
      Reached (asked ++ [(Clock.pauseEnd tl.now delay, c.token)]) (tl.cancelLater c delay)
  | advance {asked : List (Millis × Token)} {tl : Timeline} (h : Reached asked tl)
      (duration : Millis) : Reached asked (tl.advance duration)
  | run {asked : List (Millis × Token)} {tl : Timeline} (h : Reached asked tl) (c : Context)
      (sleep : Option Millis) : Reached asked (tl.run c sleep).1

/-- The instants for which it was asked to cancel the context or an ancestor. -/
def askedFor (asked : List (Millis × Token)) (c : Context) : List Millis :=
  (asked.filter fun d => c.token.isUnder d.2).map Prod.fst

/-- The instant at which the context is cancelled. -/
def cancellation? (asked : List (Millis × Token)) (c : Context) : Option Millis :=
  (askedFor asked c).min?

/-- The cancellations that have not been carried out. -/
def pending (tl : Timeline) : List (Millis × Token) :=
  tl.queue ++ tl.due

/-- Every cancellation that was asked for is still to come or has been carried
out, at its instant, and no other one. -/
structure IsFaithful (asked : List (Millis × Token)) (tl : Timeline) : Prop where
  ahead : ∀ d ∈ tl.pending, tl.now <= d.1
  inOrder : tl.due.Pairwise fun d e => d.1 <= e.1
  known : ∀ d ∈ tl.pending, d ∈ asked
  kept : ∀ d ∈ asked, d ∈ tl.pending ∨ d.2 ∈ tl.tokens.cancelled
  cancelled : ∀ t ∈ tl.tokens.cancelled, ∃ d ∈ asked, d.1 <= tl.now ∧ d.2 = t

variable {asked : List (Millis × Token)} {tl : Timeline} {c : Context}

theorem mem_askedFor {instant : Millis} :
    instant ∈ askedFor asked c ↔ ∃ t, (instant, t) ∈ asked ∧ c.token.isUnder t = true := by
  simp [askedFor]

theorem cancellation?_eq_some_iff {instant : Millis} :
    cancellation? asked c = some instant ↔
      instant ∈ askedFor asked c ∧ ∀ other ∈ askedFor asked c, instant <= other :=
  List.min?_eq_some_iff

/-- A context that is not cancelled has all its cancellations before it. -/
theorem IsFaithful.le_of_free (h : IsFaithful asked tl) (hfree : tl.isCancelled c = false)
    {instant : Millis} (hasked : instant ∈ askedFor asked c) : tl.now <= instant := by
  obtain ⟨t, hmem, hunder⟩ := mem_askedFor.mp hasked
  rcases h.kept _ hmem with hpending | hcancelled
  · exact h.ahead _ hpending
  · have hany := List.any_eq_true.mpr ⟨t, hcancelled, hunder⟩
    rw [isCancelled, Tokens.isCancelled, hany] at hfree
    cases hfree

theorem IsFaithful.exists_of_isCancelled (h : IsFaithful asked tl)
    (hcancelled : tl.isCancelled c = true) : ∃ instant ∈ askedFor asked c, instant <= tl.now := by
  obtain ⟨t, hmem, hunder⟩ := List.any_eq_true.mp hcancelled
  obtain ⟨d, hasked, hle, rfl⟩ := h.cancelled t hmem
  exact ⟨d.1, mem_askedFor.mpr ⟨d.2, hasked, hunder⟩, hle⟩

/-!
## Turns and jumps
-/

/-- The timeline with more turns before those in its queue. -/
def holding (tl : Timeline) (turns : List (Millis × Token)) : Timeline :=
  { tl with queue := turns ++ tl.queue }

/-- How often more a cancellation in the queue is met with: in its turn, and if it
is not time yet in a jump and in another turn. -/
def encounters (now : Millis) (d : Millis × Token) : Nat :=
  if d.1 <= now then 1 else 3

def effort (tl : Timeline) : Nat :=
  (tl.queue.map (encounters tl.now)).sum + 2 * tl.due.length

theorem perm_insertDue (d : Millis × Token) (due : List (Millis × Token)) :
    (insertDue d due).Perm (d :: due) := by
  induction due with
  | nil => exact .refl _
  | cons e rest ih =>
      rw [insertDue]
      split
      · exact .refl _
      · exact (ih.cons e).trans (.swap d e rest)

theorem pairwise_insertDue {d : Millis × Token} {due : List (Millis × Token)}
    (h : due.Pairwise fun d e => d.1 <= e.1) :
    (insertDue d due).Pairwise fun d e => d.1 <= e.1 := by
  induction due with
  | nil => exact List.pairwise_singleton _ _
  | cons e rest ih =>
      obtain ⟨hfirst, hrest⟩ := List.pairwise_cons.mp h
      rw [insertDue]
      split
      next hlt =>
        refine List.pairwise_cons.mpr ⟨fun f hmem => ?_, h⟩
        rcases List.mem_cons.mp hmem with rfl | hmem
        · exact Nat.le_of_lt hlt
        · exact Nat.le_trans (Nat.le_of_lt hlt) (hfirst f hmem)
      next hge =>
        refine List.pairwise_cons.mpr ⟨fun f hmem => ?_, ih hrest⟩
        rcases List.mem_cons.mp ((perm_insertDue d rest).mem_iff.mp hmem) with rfl | hmem
        · exact Nat.le_of_not_lt hge
        · exact hfirst f hmem

theorem now_takeTurn (tl : Timeline) (d : Millis × Token) : (tl.takeTurn d).now = tl.now := by
  unfold takeTurn
  split <;> rfl

theorem takeTurn_holding (tl : Timeline) (d : Millis × Token) (turns : List (Millis × Token)) :
    (tl.holding turns).takeTurn d = (tl.takeTurn d).holding turns := by
  unfold takeTurn holding
  split <;> rfl

theorem IsFaithful.takeTurn {d : Millis × Token} (h : IsFaithful asked (tl.holding [d])) :
    IsFaithful asked (tl.takeTurn d) := by
  have hpending (e : Millis × Token) : e ∈ (tl.holding [d]).pending ↔ e = d ∨ e ∈ tl.pending := by
    simp [pending, holding]
  have hahead : tl.now <= d.1 := h.ahead d ((hpending d).mpr (.inl rfl))
  have hasked : d ∈ asked := h.known d ((hpending d).mpr (.inl rfl))
  rw [Timeline.takeTurn]
  split
  next hle =>
    constructor
    case ahead =>
      intro e hmem
      exact h.ahead e ((hpending e).mpr (.inr hmem))
    case inOrder => exact h.inOrder
    case known =>
      intro e hmem
      exact h.known e ((hpending e).mpr (.inr hmem))
    case kept =>
      intro e hmem
      rcases h.kept e hmem with hold | hcancelled
      · rcases (hpending e).mp hold with rfl | hstill
        · exact .inr (List.mem_append_right _ (List.mem_singleton_self _))
        · exact .inl hstill
      · exact .inr (List.mem_append_left _ hcancelled)
    case cancelled =>
      intro t hmem
      rcases List.mem_append.mp hmem with hold | hnew
      · exact h.cancelled t hold
      · exact ⟨d, hasked, hle, (List.mem_singleton.mp hnew).symm⟩
  next hgt =>
    have hpending' (e : Millis × Token) :
        e ∈ ({ tl with due := insertDue d tl.due } : Timeline).pending ↔
          e ∈ (tl.holding [d]).pending := by
      rw [hpending]
      simp only [pending, List.mem_append, (perm_insertDue d tl.due).mem_iff, List.mem_cons]
      exact or_left_comm
    constructor
    case ahead =>
      intro e hmem
      exact h.ahead e ((hpending' e).mp hmem)
    case inOrder => exact pairwise_insertDue h.inOrder
    case known =>
      intro e hmem
      exact h.known e ((hpending' e).mp hmem)
    case kept =>
      intro e hmem
      exact (h.kept e hmem).imp_left (hpending' e).mpr
    case cancelled => exact h.cancelled

theorem effort_takeTurn_lt (tl : Timeline) (d : Millis × Token) :
    (tl.takeTurn d).effort < (tl.holding [d]).effort := by
  have hholding : (tl.holding [d]).effort = encounters tl.now d + tl.effort := by
    simp [effort, holding, Nat.add_assoc]
  rw [hholding, encounters, takeTurn]
  split
  · show tl.effort < 1 + tl.effort
    omega
  · show (tl.queue.map (encounters tl.now)).sum + 2 * (insertDue d tl.due).length < 3 + tl.effort
    rw [(perm_insertDue d tl.due).length_eq, List.length_cons, effort]
    omega

/-- What goes on between two looks at a wait, up to an instant. -/
structure GoesOn (asked : List (Millis × Token)) (stop : Millis) (tl tl' : Timeline) : Prop where
  faithful : IsFaithful asked tl'
  now_le : tl.now <= tl'.now
  le_stop : tl'.now <= stop
  /-- Nothing is carried out while the clock moves. -/
  tokens : tl'.now = tl.now ∨ tl'.tokens = tl.tokens
  effort : tl'.now = stop ∨ tl'.effort < tl.effort

theorem now_foldl_takeTurn (tl : Timeline) (turns : List (Millis × Token)) :
    (turns.foldl takeTurn tl).now = tl.now := by
  induction turns generalizing tl with
  | nil => rfl
  | cons d rest ih => exact (ih _).trans (tl.now_takeTurn d)

theorem IsFaithful.foldl_takeTurn {turns : List (Millis × Token)}
    (h : IsFaithful asked (tl.holding turns)) :
    IsFaithful asked (turns.foldl Timeline.takeTurn tl) := by
  induction turns generalizing tl with
  | nil => exact h
  | cons d rest ih =>
      have hfirst : IsFaithful asked ((tl.holding rest).takeTurn d) := IsFaithful.takeTurn h
      rw [takeTurn_holding] at hfirst
      exact ih hfirst

theorem effort_foldl_takeTurn_le (tl : Timeline) (turns : List (Millis × Token)) :
    (turns.foldl takeTurn tl).effort + turns.length <= (tl.holding turns).effort := by
  induction turns generalizing tl with
  | nil => exact Nat.le_refl _
  | cons d rest ih =>
      have hrest := ih (tl.takeTurn d)
      have hfirst := (tl.holding rest).effort_takeTurn_lt d
      rw [takeTurn_holding] at hfirst
      have hturns : (tl.holding rest).holding [d] = tl.holding (d :: rest) := rfl
      rw [hturns] at hfirst
      rw [List.foldl_cons, List.length_cons]
      omega

theorem IsFaithful.goesOn_round (h : IsFaithful asked tl) (hqueue : tl.queue ≠ []) {stop : Millis}
    (hstop : tl.now <= stop) : GoesOn asked stop tl tl.round := by
  let rest : Timeline :=
    { tl with queue := tl.queue.drop Fairness.roundSize, allowance := Fairness.allowance }
  have hround : tl.round = (tl.queue.take Fairness.roundSize).foldl Timeline.takeTurn rest := rfl
  have hholding : rest.holding (tl.queue.take Fairness.roundSize) =
      { tl with allowance := Fairness.allowance } := by
    simp [rest, holding]
  have hnow : tl.round.now = tl.now := now_foldl_takeTurn rest _
  have heffort := rest.effort_foldl_takeTurn_le (tl.queue.take Fairness.roundSize)
  rw [hholding, ← hround] at heffort
  have hturns : 0 < (tl.queue.take Fairness.roundSize).length := by
    rw [List.length_take]
    exact Nat.lt_min.mpr ⟨by decide, List.length_pos_iff.mpr hqueue⟩
  constructor
  case faithful =>
    rw [hround]
    refine IsFaithful.foldl_takeTurn ?_
    rw [hholding]
    exact ⟨h.ahead, h.inOrder, h.known, h.kept, h.cancelled⟩
  case now_le => exact Nat.le_of_eq hnow.symm
  case le_stop => exact hnow ▸ hstop
  case tokens => exact .inl hnow
  case effort =>
    have hsame : ({ tl with allowance := Fairness.allowance } : Timeline).effort = tl.effort := rfl
    rw [hsame] at heffort
    exact .inr (by omega)

/-- A jump to an instant at which nothing is past. -/
theorem IsFaithful.jumpTo (h : IsFaithful asked tl) (hqueue : tl.queue = []) {instant : Millis}
    (hnow : tl.now <= instant) (hahead : ∀ d ∈ tl.due, instant <= d.1) :
    IsFaithful asked (tl.jumpTo instant) := by
  have hpending : (tl.jumpTo instant).pending = tl.pending := by
    simp [Timeline.jumpTo, pending, hqueue, List.takeWhile_append_dropWhile]
  have hnow' : (tl.jumpTo instant).now = instant := Nat.max_eq_right hnow
  constructor
  case ahead =>
    intro d hmem
    rw [hpending, pending, hqueue] at hmem
    rw [hnow']
    exact hahead d hmem
  case inOrder => exact h.inOrder.sublist (List.dropWhile_sublist _)
  case known =>
    rw [hpending]
    exact h.known
  case kept =>
    rw [hpending]
    exact h.kept
  case cancelled =>
    intro t hmem
    obtain ⟨d, hasked, hle, hd⟩ := h.cancelled t hmem
    exact ⟨d, hasked, Nat.le_trans hle (Nat.le_max_left _ _), hd⟩

theorem sum_encounters {now : Millis} {ds : List (Millis × Token)} (h : ∀ d ∈ ds, d.1 <= now) :
    (ds.map (encounters now)).sum = ds.length := by
  have hones : ds.map (encounters now) = ds.map fun _ => 1 :=
    List.map_congr_left fun d hmem => if_pos (h d hmem)
  rw [hones, List.map_const', List.sum_replicate, smul_eq_mul, Nat.mul_one]

theorem effort_jumpTo_lt {instant : Millis} (hqueue : tl.queue = []) {d : Millis × Token}
    {rest : List (Millis × Token)} (hdue : tl.due = d :: rest) (hle : d.1 <= instant) :
    (tl.jumpTo instant).effort < tl.effort := by
  let isDue : Millis × Token -> Bool := fun e => e.1 <= max tl.now instant
  have hqueue' : (tl.jumpTo instant).queue = tl.due.takeWhile isDue := by
    simp [jumpTo, hqueue, isDue]
  have hdue' : (tl.jumpTo instant).due = tl.due.dropWhile isDue := rfl
  have hall : ∀ e ∈ tl.due.takeWhile isDue, e.1 <= (tl.jumpTo instant).now := by
    intro e hmem
    have hdue : isDue e = true := List.mem_takeWhile_imp hmem
    exact of_decide_eq_true hdue
  have hsplit : (tl.due.takeWhile isDue).length + (tl.due.dropWhile isDue).length =
      tl.due.length := by
    rw [← List.length_append, List.takeWhile_append_dropWhile]
  have hfirst : 0 < (tl.due.takeWhile isDue).length := by
    have hd : isDue d = true := decide_eq_true (Nat.le_trans hle (Nat.le_max_right _ _))
    rw [hdue, List.takeWhile_cons_of_pos hd]
    exact Nat.zero_lt_succ _
  rw [effort, effort, hqueue', hdue', hqueue, sum_encounters hall]
  simp only [List.map_nil, List.sum_nil]
  omega

/-- A jump reaches the end of the wait or something that is due. -/
theorem IsFaithful.goesOn_jumpTo (h : IsFaithful asked tl) (hqueue : tl.queue = [])
    {instant stop : Millis} (hnow : tl.now <= instant) (hstop : instant <= stop)
    (hahead : ∀ d ∈ tl.due, instant <= d.1)
    (hreached : instant = stop ∨ ∃ d rest, tl.due = d :: rest ∧ d.1 <= instant) :
    GoesOn asked stop tl (tl.jumpTo instant) := by
  have hnow' : (tl.jumpTo instant).now = instant := Nat.max_eq_right hnow
  constructor
  case faithful => exact h.jumpTo hqueue hnow hahead
  case now_le => exact Nat.le_max_left _ _
  case le_stop => exact hnow'.trans_le hstop
  case tokens => exact .inr rfl
  case effort =>
    rcases hreached with heq | ⟨d, rest, hdue, hle⟩
    · exact .inl (hnow'.trans heq)
    · exact .inr (effort_jumpTo_lt hqueue hdue hle)

theorem IsFaithful.goesOn (h : IsFaithful asked tl) {stop : Millis} (hstop : tl.now <= stop) :
    GoesOn asked stop tl (tl.goOn stop) := by
  rw [goOn]
  split
  next hqueue hdue =>
    exact h.goesOn_jumpTo hqueue hstop (Nat.le_refl stop) (by simp [hdue]) (.inl rfl)
  next d rest hqueue hdue =>
    have hnow : tl.now <= min d.1 stop :=
      Nat.le_min.mpr ⟨h.ahead d (by simp [pending, hdue]), hstop⟩
    have hahead : ∀ e ∈ tl.due, min d.1 stop <= e.1 := by
      intro e hmem
      refine Nat.le_trans (Nat.min_le_left _ _) ?_
      have hinOrder := h.inOrder
      rw [hdue] at hmem hinOrder
      rcases List.mem_cons.mp hmem with rfl | hmem
      · exact Nat.le_refl _
      · exact List.rel_of_pairwise_cons hinOrder hmem
    refine h.goesOn_jumpTo hqueue hnow (Nat.min_le_right _ _) hahead ?_
    rcases Nat.le_total d.1 stop with hle | hle
    · exact .inr ⟨d, rest, hdue, Nat.le_min.mpr ⟨Nat.le_refl _, hle⟩⟩
    · exact .inl (Nat.min_eq_right hle)
  next d rest hqueue => exact h.goesOn_round (by simp [hqueue]) hstop

theorem effort_lt_patience (tl : Timeline) : tl.effort < tl.patience := by
  have hthree : ∀ n ∈ tl.queue.map (encounters tl.now), n <= 3 := by
    intro n hmem
    obtain ⟨d, _, rfl⟩ := List.mem_map.mp hmem
    rw [encounters]
    split <;> decide
  have hsum := List.sum_le_card_nsmul _ 3 hthree
  rw [List.length_map, smul_eq_mul] at hsum
  rw [effort, patience]
  omega

/-!
## Waits
-/

theorem IsFaithful.spend (h : IsFaithful asked tl) (n : Nat) : IsFaithful asked (tl.spend n) :=
  ⟨h.ahead, h.inOrder, h.known, h.kept, h.cancelled⟩

theorem IsFaithful.waitUntil {stop : Millis} {fuel : Nat} (h : IsFaithful asked tl)
    (hstop : tl.now <= stop) (hfuel : tl.effort < fuel) :
    IsFaithful asked (Timeline.waitUntil stop fuel tl) := by
  induction fuel generalizing tl with
  | zero => exact absurd hfuel (Nat.not_lt_zero _)
  | succ fuel ih =>
      have hon := h.goesOn hstop
      rw [Timeline.waitUntil]
      split
      · exact hon.faithful.spend 1
      next hbefore =>
        refine ih hon.faithful hon.le_stop ?_
        rcases hon.effort with heq | hlt
        · exact absurd (Nat.le_of_eq heq.symm) hbefore
        · omega

theorem IsFaithful.advance (h : IsFaithful asked tl) (duration : Millis) :
    IsFaithful asked (tl.advance duration) := by
  rw [Timeline.advance]
  split
  · exact h.spend 1
  · exact h.waitUntil (Clock.le_pauseEnd _ _) tl.effort_lt_patience

/-!
## Races
-/

/-- The work is looked at, unless the context is over. -/
def polled (tl : Timeline) (c : Context) : List Timeline :=
  match c.interruption? tl.tokens tl.now with
  | some _ => []
  | none => [tl]

/-- A wait for work under a context, with the timelines on which the work is looked
at. -/
def waitNoting (c : Context) (finish : Millis) (workCost : Nat) :
    Nat -> Timeline -> (Timeline × Outcome) × List Timeline
  | 0, tl =>
      let tl := tl.jumpTo (c.limit finish)
      ((tl, (tl.outcome? c finish).getD .finished), tl.polled c)
  | fuel + 1, tl =>
      let tl := tl.goOn (c.limit finish)
      match tl.outcome? c finish with
      | some o => ((tl.spend (o.cost workCost), o), tl.polled c)
      | none =>
          let rest := waitNoting c finish workCost fuel tl
          (rest.1, tl.polled c ++ rest.2)

/-- Work under a context that is done at an instant, with the timelines on which it
is looked at. -/
def race (tl : Timeline) (c : Context) (finish : Millis) (workCost : Nat) :
    (Timeline × Outcome) × List Timeline :=
  match c.interruption? tl.tokens tl.now with
  | some i => ((tl, .interrupted i), [])
  | none =>
      if finish <= tl.now && tl.allowance != 0 then ((tl.spend workCost, .finished), [tl])
      else
        let rest := waitNoting c finish workCost tl.patience tl
        (rest.1, tl :: rest.2)

theorem mem_polled {seen : Timeline} :
    seen ∈ tl.polled c ↔ seen = tl ∧ tl.isCancelled c = false ∧ c.isLate tl.now = false := by
  rw [polled, Context.interruption?, isCancelled]
  cases tl.tokens.isCancelled c.token <;> cases c.isLate tl.now <;> simp

theorem fst_waitNoting (c : Context) (finish : Millis) (workCost fuel : Nat) (tl : Timeline) :
    (waitNoting c finish workCost fuel tl).1 = waitUnder c finish workCost fuel tl := by
  induction fuel generalizing tl with
  | zero => rfl
  | succ fuel ih =>
      rw [waitNoting, waitUnder]
      cases (tl.goOn (c.limit finish)).outcome? c finish with
      | some o => rfl
      | none => exact ih _

/-- Work that sleeps is a race to the end of its sleep. -/
theorem run_eq_race (tl : Timeline) (c : Context) (sleep : Option Millis) :
    tl.run c sleep =
      (tl.race c (Clock.pauseEnd tl.now (sleep.getD 0)) (if sleep.isSome then 1 else 0)).1 := by
  rw [run, race]
  cases c.interruption? tl.tokens tl.now with
  | some i => rfl
  | none =>
      simp only [Clock.pauseEnd_le_iff]
      split
      · rfl
      · exact (fst_waitNoting _ _ _ _ _).symm

/-- How a race can end at an instant. -/
inductive Settles (asked : List (Millis × Token)) (c : Context) (finish instant : Millis) :
    Outcome -> Prop where
  | cancelled (hasked : instant ∈ askedFor asked c) (hfinish : instant <= finish)
      (hinTime : c.isLate instant = false) :
      Settles asked c finish instant (.interrupted .cancelled)
  | deadlineExceeded (hdeadline : c.deadline = some instant) (hfinish : instant <= finish) :
      Settles asked c finish instant (.interrupted .deadlineExceeded)
  | finished (hnow : instant = finish) (hinTime : c.isLate instant = false) :
      Settles asked c finish instant .finished

/-- No cancellation of the context is for an instant before. -/
def IsBefore (asked : List (Millis × Token)) (c : Context) (instant : Millis) : Prop :=
  ∀ other ∈ askedFor asked c, instant <= other

/-- Work under the context may be looked at on the timeline, between the instants. -/
structure IsLook (seen : Timeline) (c : Context) (start stop : Millis) : Prop where
  free : seen.isCancelled c = false
  inTime : c.isLate seen.now = false
  start_le : start <= seen.now
  le_stop : seen.now <= stop

theorem IsLook.widen {seen : Timeline} {start start' stop stop' : Millis}
    (h : seen.IsLook c start stop) (hstart : start' <= start) (hstop : stop <= stop') :
    seen.IsLook c start' stop' :=
  ⟨h.free, h.inTime, hstart.trans h.start_le, h.le_stop.trans hstop⟩

theorem isLook_of_mem_polled {seen : Timeline} (h : seen ∈ tl.polled c) :
    seen.IsLook c tl.now tl.now := by
  obtain ⟨rfl, hfree, hinTime⟩ := mem_polled.mp h
  exact ⟨hfree, hinTime, Nat.le_refl _, Nat.le_refl _⟩

/-- What holds after a race. -/
structure Resolves (asked : List (Millis × Token)) (tl : Timeline) (c : Context) (finish : Millis)
    (r : (Timeline × Outcome) × List Timeline) : Prop where
  faithful : IsFaithful asked r.1.1
  now_le : tl.now <= r.1.1.now
  settles : Settles asked c finish r.1.1.now r.1.2
  first : IsBefore asked c r.1.1.now
  ended : ∀ i, r.1.2 = .interrupted i -> c.interruption? r.1.1.tokens r.1.1.now = some i
  polls : ∀ seen ∈ r.2, seen.IsLook c tl.now r.1.1.now
  last : r.1.2 = .finished -> (r.2.getLast?.map Timeline.now) = some finish

/-- A look finds the context cancelled, or else late, or else the work done. -/
theorem outcome?_cases {finish : Millis} {o : Outcome} (h : tl.outcome? c finish = some o) :
    (o = .interrupted .cancelled ∧ tl.isCancelled c = true) ∨
      (o = .interrupted .deadlineExceeded ∧ tl.isCancelled c = false ∧ c.isLate tl.now = true) ∨
      (o = .finished ∧ tl.isCancelled c = false ∧ c.isLate tl.now = false ∧
        finish <= tl.now) := by
  rw [outcome?, Context.interruption?] at h
  rw [isCancelled]
  cases hcancelled : tl.tokens.isCancelled c.token with
  | true =>
      rw [hcancelled] at h
      cases h
      exact .inl ⟨rfl, rfl⟩
  | false =>
      cases hlate : c.isLate tl.now with
      | true =>
          rw [hcancelled, hlate] at h
          cases h
          exact .inr (.inl ⟨rfl, rfl, rfl⟩)
      | false =>
          simp only [hcancelled, hlate, Bool.false_eq_true, if_false, Option.ite_none_right_eq_some]
            at h
          obtain ⟨hdone, ho⟩ := h
          cases ho
          exact .inr (.inr ⟨rfl, rfl, rfl, hdone⟩)

theorem outcome?_eq_none_iff {finish : Millis} :
    tl.outcome? c finish = none ↔
      tl.isCancelled c = false ∧ c.isLate tl.now = false ∧ tl.now < finish := by
  rw [outcome?, Context.interruption?, isCancelled]
  cases tl.tokens.isCancelled c.token <;> cases c.isLate tl.now <;> simp

/-- A wait is not looked at in vain where it ends. -/
theorem ne_limit_of_outcome?_eq_none {finish : Millis} (h : tl.outcome? c finish = none) :
    tl.now ≠ c.limit finish := by
  obtain ⟨-, hinTime, hbefore⟩ := outcome?_eq_none_iff.mp h
  intro hnow
  rcases c.limit_cases finish with heq | hd
  · exact Nat.lt_irrefl _ (hbefore.trans_eq (heq.symm.trans hnow.symm))
  · exact Nat.lt_irrefl _ (hnow ▸ Context.isLate_eq_false_iff.mp hinTime _ hd)

theorem interruption?_of_outcome? {finish : Millis} {i : Interruption}
    (h : tl.outcome? c finish = some (.interrupted i)) :
    c.interruption? tl.tokens tl.now = some i := by
  rw [outcome?] at h
  split at h
  next hover =>
    cases h
    exact hover
  · split at h <;> cases h

theorem polled_of_finished {finish : Millis} (h : tl.outcome? c finish = some .finished) :
    tl.polled c = [tl] := by
  rcases outcome?_cases h with ⟨ho, -⟩ | ⟨ho, -⟩ | ⟨-, hfree, hinTime, -⟩
  · cases ho
  · cases ho
  · rw [polled, Context.interruption?_eq_none_iff.mpr ⟨hfree, hinTime⟩]

/-- A look at a wait that is over. -/
theorem GoesOn.settles {finish : Millis} {tl' : Timeline} (h : IsFaithful asked tl)
    (hfree : tl.isCancelled c = false) (hinTime : c.isLate tl.now = false)
    (hon : GoesOn asked (c.limit finish) tl tl') {o : Outcome}
    (ho : tl'.outcome? c finish = some o) :
    Settles asked c finish tl'.now o ∧ IsBefore asked c tl'.now := by
  have hfinish : tl'.now <= finish := hon.le_stop.trans (c.limit_le finish)
  rcases outcome?_cases ho with
    ⟨rfl, hcancelled⟩ | ⟨rfl, hfree', hlate⟩ | ⟨rfl, hfree', hinTime', hdone⟩
  · -- The clock stood still, or nothing would have been carried out.
    have hnow : tl'.now = tl.now := by
      refine hon.tokens.resolve_right fun htokens => ?_
      rw [isCancelled, htokens] at hcancelled
      exact Bool.false_ne_true (hfree.symm.trans hcancelled)
    have hfirst : IsBefore asked c tl'.now := by
      intro other hasked
      rw [hnow]
      exact h.le_of_free hfree hasked
    obtain ⟨instant, hasked, hle⟩ := hon.faithful.exists_of_isCancelled hcancelled
    have hat : instant = tl'.now := Nat.le_antisymm hle (hfirst instant hasked)
    exact ⟨.cancelled (hat ▸ hasked) hfinish (hnow ▸ hinTime), hfirst⟩
  · have hfirst : IsBefore asked c tl'.now := fun _ hasked => hon.faithful.le_of_free hfree' hasked
    have hdeadline : c.deadline = some tl'.now := by
      obtain ⟨d, hd, hle⟩ := Context.isLate_eq_true_iff.mp hlate
      rw [hd, Nat.le_antisymm hle (hon.le_stop.trans (Context.limit_le_deadline finish hd))]
    exact ⟨.deadlineExceeded hdeadline hfinish, hfirst⟩
  · have hfirst : IsBefore asked c tl'.now := fun _ hasked => hon.faithful.le_of_free hfree' hasked
    exact ⟨.finished (Nat.le_antisymm hfinish hdone) hinTime', hfirst⟩

/-- Looks before a race that has been gone into later. -/
theorem Resolves.prepend {tl' : Timeline} {finish : Millis} {r : Timeline × Outcome}
    {earlier polls : List Timeline} (h : Resolves asked tl' c finish (r, polls))
    (hnow : tl.now <= tl'.now) (hearlier : ∀ seen ∈ earlier, seen.IsLook c tl.now tl'.now) :
    Resolves asked tl c finish (r, earlier ++ polls) := by
  constructor
  case faithful => exact h.faithful
  case now_le => exact hnow.trans h.now_le
  case settles => exact h.settles
  case first => exact h.first
  case ended => exact h.ended
  case polls =>
    intro seen hmem
    rcases List.mem_append.mp hmem with hbefore | hafter
    · exact (hearlier seen hbefore).widen (Nat.le_refl _) h.now_le
    · exact (h.polls seen hafter).widen hnow (Nat.le_refl _)
  case last =>
    intro hfinished
    obtain ⟨last, hlast, hnow'⟩ := Option.map_eq_some_iff.mp (h.last hfinished)
    rw [List.getLast?_append, hlast]
    exact congrArg some hnow'

/-- A wait that is long enough is over at what comes first. -/
theorem IsFaithful.resolves_waitNoting {finish : Millis} (workCost : Nat) {fuel : Nat}
    (h : IsFaithful asked tl) (hfree : tl.isCancelled c = false) (hinTime : c.isLate tl.now = false)
    (hfinish : tl.now <= finish) (hfuel : tl.effort < fuel) :
    Resolves asked tl c finish (waitNoting c finish workCost fuel tl) := by
  induction fuel generalizing tl with
  | zero => exact absurd hfuel (Nat.not_lt_zero _)
  | succ fuel ih =>
      have hon := h.goesOn (Context.le_limit hinTime hfinish)
      rw [waitNoting]
      cases ho : (tl.goOn (c.limit finish)).outcome? c finish with
      | some o =>
          obtain ⟨hsettles, hfirst⟩ := hon.settles h hfree hinTime ho
          constructor
          case faithful => exact hon.faithful.spend _
          case now_le => exact hon.now_le
          case settles => exact hsettles
          case first => exact hfirst
          case ended =>
            rintro i rfl
            exact interruption?_of_outcome? ho
          case polls =>
            intro seen hmem
            exact (isLook_of_mem_polled hmem).widen hon.now_le (Nat.le_refl _)
          case last =>
            rintro rfl
            cases hsettles with
            | finished hnow =>
                show ((tl.goOn (c.limit finish)).polled c).getLast?.map now = some finish
                rw [polled_of_finished ho]
                exact congrArg some hnow
      | none =>
          obtain ⟨hfree', hinTime', hbefore⟩ := outcome?_eq_none_iff.mp ho
          have hfuel' : (tl.goOn (c.limit finish)).effort < fuel := by
            have hlt := hon.effort.resolve_left (ne_limit_of_outcome?_eq_none ho)
            omega
          have hrest := ih hon.faithful hfree' hinTime' (Nat.le_of_lt hbefore) hfuel'
          exact hrest.prepend hon.now_le fun seen hmem =>
            (isLook_of_mem_polled hmem).widen hon.now_le (Nat.le_refl _)

/-- Under a context that is not over, the race is over at what comes first. -/
theorem IsFaithful.resolves_race {finish : Millis} (workCost : Nat) (h : IsFaithful asked tl)
    (hfree : tl.isCancelled c = false) (hinTime : c.isLate tl.now = false)
    (hfinish : tl.now <= finish) : Resolves asked tl c finish (tl.race c finish workCost) := by
  have hhere : ∀ seen ∈ [tl], seen.IsLook c tl.now tl.now := by
    intro seen hmem
    rw [List.mem_singleton.mp hmem]
    exact ⟨hfree, hinTime, Nat.le_refl _, Nat.le_refl _⟩
  rw [race, Context.interruption?_eq_none_iff.mpr ⟨hfree, hinTime⟩]
  dsimp only
  split
  next hdone =>
    rw [Bool.and_eq_true, decide_eq_true_eq] at hdone
    have hnow : tl.now = finish := Nat.le_antisymm hfinish hdone.1
    constructor
    case faithful => exact h.spend workCost
    case now_le => exact Nat.le_refl _
    case settles => exact .finished hnow hinTime
    case first => exact fun _ hasked => h.le_of_free hfree hasked
    case ended =>
      intro _ hinterrupted
      cases hinterrupted
    case polls => exact hhere
    case last => exact fun _ => congrArg some hnow
  next =>
    have hwait := h.resolves_waitNoting workCost hfree hinTime hfinish tl.effort_lt_patience
    exact hwait.prepend (Nat.le_refl _) hhere

theorem IsFaithful.run (h : IsFaithful asked tl) (c : Context) (sleep : Option Millis) :
    IsFaithful asked (tl.run c sleep).1 := by
  cases hover : c.interruption? tl.tokens tl.now with
  | some i =>
      rw [run_of_interruption?_eq_some hover]
      exact h
  | none =>
      obtain ⟨hfree, hinTime⟩ := Context.interruption?_eq_none_iff.mp hover
      rw [run_eq_race]
      exact (h.resolves_race _ hfree hinTime (Clock.le_pauseEnd _ _)).faithful

theorem IsFaithful.cancel (h : IsFaithful asked tl) (c : Context) :
    IsFaithful (asked ++ [(tl.now, c.token)]) (tl.cancel c) := by
  constructor
  case ahead => exact h.ahead
  case inOrder => exact h.inOrder
  case known =>
    intro d hmem
    exact List.mem_append_left _ (h.known d hmem)
  case kept =>
    intro d hmem
    rcases List.mem_append.mp hmem with hold | hnew
    · exact (h.kept d hold).imp_right (List.mem_append_left _)
    · rw [List.mem_singleton.mp hnew]
      exact .inr (List.mem_append_right _ (List.mem_singleton_self _))
  case cancelled =>
    intro t hmem
    rcases List.mem_append.mp hmem with hold | hnew
    · obtain ⟨d, hasked, hd⟩ := h.cancelled t hold
      exact ⟨d, List.mem_append_left _ hasked, hd⟩
    · rw [List.mem_singleton.mp hnew]
      exact ⟨(tl.now, c.token), List.mem_append_right _ (List.mem_singleton_self _),
        Nat.le_refl _, rfl⟩

theorem IsFaithful.cancelLater (h : IsFaithful asked tl) (c : Context) (delay : Millis) :
    IsFaithful (asked ++ [(Clock.pauseEnd tl.now delay, c.token)]) (tl.cancelLater c delay) := by
  have hpending (d : Millis × Token) : d ∈ (tl.cancelLater c delay).pending ↔
      d ∈ tl.pending ∨ d = (Clock.pauseEnd tl.now delay, c.token) := by
    simp only [Timeline.cancelLater, pending, List.mem_append, List.mem_singleton]
    exact or_right_comm
  constructor
  case ahead =>
    intro d hmem
    rcases (hpending d).mp hmem with hold | rfl
    · exact h.ahead d hold
    · exact Clock.le_pauseEnd _ _
  case inOrder => exact h.inOrder
  case known =>
    intro d hmem
    rcases (hpending d).mp hmem with hold | rfl
    · exact List.mem_append_left _ (h.known d hold)
    · exact List.mem_append_right _ (List.mem_singleton_self _)
  case kept =>
    intro d hmem
    rcases List.mem_append.mp hmem with hold | hnew
    · exact (h.kept d hold).imp_left fun hstill => (hpending d).mpr (.inl hstill)
    · exact .inl ((hpending d).mpr (.inr (List.mem_singleton.mp hnew)))
  case cancelled =>
    intro t hmem
    obtain ⟨d, hasked, hd⟩ := h.cancelled t hmem
    exact ⟨d, List.mem_append_left _ hasked, hd⟩

theorem isFaithful_start : IsFaithful [] {} := by
  constructor
  case inOrder => exact .nil
  all_goals
    intro _ hmem
    cases hmem

/-- Whatever has been done on a timeline, it is faithful to what was asked for. -/
theorem Reached.isFaithful (h : Reached asked tl) : IsFaithful asked tl := by
  induction h with
  | start => exact isFaithful_start
  | add _ c ih => exact ⟨ih.ahead, ih.inOrder, ih.known, ih.kept, ih.cancelled⟩
  | addRoot _ ih => exact ⟨ih.ahead, ih.inOrder, ih.known, ih.kept, ih.cancelled⟩
  | addChild _ parent ih => exact ⟨ih.ahead, ih.inOrder, ih.known, ih.kept, ih.cancelled⟩
  | cancel _ c ih => exact ih.cancel c
  | cancelLater _ c delay ih => exact ih.cancelLater c delay
  | advance _ duration ih => exact ih.advance duration
  | run _ c sleep ih => exact ih.run c sleep

/-!
## Who comes first
-/

/-- The earliest of the instants decides how a race ends and when.  `r` is what
comes of the race, with the timelines on which the work was looked at. -/
structure Decides (asked : List (Millis × Token)) (tl : Timeline) (c : Context) (finish : Millis)
    (r : (Timeline × Outcome) × List Timeline) : Prop where
  /-- A cancellation for an instant before has been carried out. -/
  past : ∀ cancel, cancellation? asked c = some cancel -> cancel < tl.now ->
    tl.isCancelled c = true
  wasCancelled : tl.isCancelled c = true -> r = ((tl, .interrupted .cancelled), [])
  wasLate : tl.isCancelled c = false -> ∀ deadline, c.deadline = some deadline ->
    deadline <= tl.now -> r = ((tl, .interrupted .deadlineExceeded), [])
  cancelled : tl.isCancelled c = false -> c.isLate tl.now = false ->
    ∀ cancel, cancellation? asked c = some cancel ->
      (∀ deadline, c.deadline = some deadline -> cancel < deadline) -> cancel < finish ->
      r.1.2 = .interrupted .cancelled ∧ r.1.1.now = cancel
  deadlineExceeded : tl.isCancelled c = false -> c.isLate tl.now = false ->
    ∀ deadline, c.deadline = some deadline ->
      (∀ cancel, cancellation? asked c = some cancel -> deadline < cancel) -> deadline <= finish ->
      r.1.2 = .interrupted .deadlineExceeded ∧ r.1.1.now = deadline
  finished : tl.isCancelled c = false -> c.isLate tl.now = false ->
    (∀ cancel, cancellation? asked c = some cancel -> finish < cancel) ->
    (∀ deadline, c.deadline = some deadline -> finish < deadline) ->
    r.1.2 = .finished ∧ r.1.1.now = finish
  /-- Nothing is delivered at or after the deadline. -/
  delivered : r.1.2 = .finished -> r.1.1.now = finish ∧
    r.2.getLast?.map Timeline.now = some finish ∧
    ∀ deadline, c.deadline = some deadline -> finish < deadline
  /-- Whatever interrupts the work has ended the context. -/
  ended : ∀ i, r.1.2 = .interrupted i -> c.interruption? r.1.1.tokens r.1.1.now = some i
  /-- The work is never looked at under a context that is over. -/
  polls : ∀ seen ∈ r.2, seen.isCancelled c = false ∧
    (∀ cancel, cancellation? asked c = some cancel -> seen.now <= cancel) ∧
    (∀ deadline, c.deadline = some deadline -> seen.now < deadline) ∧
    tl.now <= seen.now ∧ seen.now <= r.1.1.now

theorem IsFaithful.isCancelled_of_past (h : IsFaithful asked tl) {cancel : Millis}
    (hcancel : cancellation? asked c = some cancel) (hpast : cancel < tl.now) :
    tl.isCancelled c = true := by
  by_contra hfree
  have hle := h.le_of_free (Bool.eq_false_of_not_eq_true hfree)
    (cancellation?_eq_some_iff.mp hcancel).1
  exact absurd hpast (Nat.not_lt_of_le hle)

/-- Under a context that is over the work is not begun. -/
theorem IsFaithful.decides_of_isOver {finish : Millis} {i : Interruption} (h : IsFaithful asked tl)
    (hover : c.interruption? tl.tokens tl.now = some i) :
    Decides asked tl c finish ((tl, .interrupted i), []) := by
  have hended (hfree : tl.isCancelled c = false) (hinTime : c.isLate tl.now = false) : False := by
    rw [Context.interruption?_eq_none_iff.mpr ⟨hfree, hinTime⟩] at hover
    cases hover
  constructor
  case past => exact fun _ hcancel hpast => h.isCancelled_of_past hcancel hpast
  case wasCancelled =>
    intro hcancelled
    have hcancelled' : tl.tokens.isCancelled c.token = true := hcancelled
    rw [Context.interruption?, if_pos hcancelled'] at hover
    cases hover
    rfl
  case wasLate =>
    intro hfree deadline hdeadline hle
    have hfree' : ¬ tl.tokens.isCancelled c.token = true := Bool.eq_false_iff.mp hfree
    rw [Context.interruption?, if_neg hfree',
      if_pos (Context.isLate_eq_true_iff.mpr ⟨deadline, hdeadline, hle⟩)] at hover
    cases hover
    rfl
  case cancelled => exact fun hfree hinTime => (hended hfree hinTime).elim
  case deadlineExceeded => exact fun hfree hinTime => (hended hfree hinTime).elim
  case finished => exact fun hfree hinTime => (hended hfree hinTime).elim
  case delivered =>
    intro hfinished
    cases hfinished
  case ended =>
    intro _ hinterrupted
    cases hinterrupted
    exact hover
  case polls =>
    intro seen hmem
    cases hmem

theorem Resolves.decides {finish : Millis} {after : Timeline} {o : Outcome} {polls : List Timeline}
    (h : Resolves asked tl c finish ((after, o), polls)) (hfaithful : IsFaithful asked tl)
    (hfree : tl.isCancelled c = false) (hinTime : c.isLate tl.now = false) :
    Decides asked tl c finish ((after, o), polls) := by
  have hfirst {cancel : Millis} (hcancel : cancellation? asked c = some cancel) :
      after.now <= cancel :=
    h.first cancel (cancellation?_eq_some_iff.mp hcancel).1
  have hsettles : Settles asked c finish after.now o := h.settles
  constructor
  case past => exact fun _ hcancel hpast => hfaithful.isCancelled_of_past hcancel hpast
  case wasCancelled =>
    intro hcancelled
    exact absurd (hfree.symm.trans hcancelled) Bool.false_ne_true
  case wasLate =>
    intro _ deadline hdeadline hle
    exact absurd (Context.isLate_eq_false_iff.mp hinTime deadline hdeadline) (Nat.not_lt_of_le hle)
  case cancelled =>
    intro _ _ cancel hcancel hdeadline hfinish
    cases hsettles with
    | cancelled hasked =>
        have hnow : cancellation? asked c = some after.now :=
          cancellation?_eq_some_iff.mpr ⟨hasked, h.first⟩
        exact ⟨rfl, Option.some.inj (hnow.symm.trans hcancel)⟩
    | deadlineExceeded hd =>
        exact absurd (hdeadline _ hd) (Nat.not_lt_of_le (hfirst hcancel))
    | finished hnow =>
        exact absurd (hnow ▸ hfirst hcancel) (Nat.not_le_of_lt hfinish)
  case deadlineExceeded =>
    intro _ _ deadline hdeadline hcancel hfinish
    cases hsettles with
    | cancelled hasked _ hinTime' =>
        have hlt := hcancel _ (cancellation?_eq_some_iff.mpr ⟨hasked, h.first⟩)
        exact absurd (Context.isLate_eq_false_iff.mp hinTime' _ hdeadline) (Nat.lt_asymm hlt)
    | deadlineExceeded hd => exact ⟨rfl, Option.some.inj (hd.symm.trans hdeadline)⟩
    | finished hnow hinTime' =>
        have hlt := Context.isLate_eq_false_iff.mp hinTime' _ hdeadline
        exact absurd (hnow ▸ hlt) (Nat.not_lt_of_le hfinish)
  case finished =>
    intro _ _ hcancel hdeadline
    cases hsettles with
    | cancelled hasked hle =>
        have hlt := hcancel _ (cancellation?_eq_some_iff.mpr ⟨hasked, h.first⟩)
        exact absurd hlt (Nat.not_lt_of_le hle)
    | deadlineExceeded hd hle => exact absurd (hdeadline _ hd) (Nat.not_lt_of_le hle)
    | finished hnow => exact ⟨rfl, hnow⟩
  case delivered =>
    intro hfinished
    cases hsettles with
    | cancelled | deadlineExceeded => cases hfinished
    | finished hnow hinTime' =>
        exact ⟨hnow, h.last hfinished, Context.isLate_eq_false_iff.mp (hnow ▸ hinTime')⟩
  case ended => exact h.ended
  case polls =>
    intro seen hmem
    have hlook := h.polls seen hmem
    exact ⟨hlook.free, fun cancel hcancel => hlook.le_stop.trans (hfirst hcancel),
      Context.isLate_eq_false_iff.mp hlook.inTime, hlook.start_le, hlook.le_stop⟩

/-- Whatever has been done on the timeline, work under a context ends with what
comes first, and at that instant. -/
theorem first_instant_decides (h : Reached asked tl) (c : Context) :
    (∀ sleep : Option Millis, tl.run c sleep =
      (tl.race c (Clock.pauseEnd tl.now (sleep.getD 0)) (if sleep.isSome then 1 else 0)).1) ∧
    ∀ finish workCost : Nat, tl.now <= finish ->
      Decides asked tl c finish (tl.race c finish workCost) := by
  refine ⟨tl.run_eq_race c, fun finish workCost hfinish => ?_⟩
  cases hover : c.interruption? tl.tokens tl.now with
  | some i =>
      rw [race, hover]
      exact h.isFaithful.decides_of_isOver hover
  | none =>
      obtain ⟨hfree, hinTime⟩ := Context.interruption?_eq_none_iff.mp hover
      exact (h.isFaithful.resolves_race workCost hfree hinTime hfinish).decides h.isFaithful hfree
        hinTime

/-- Cancelled before its deadline, and before the work would have been done. -/
theorem first_instant_decides_cancelled :
    let c : Context := ⟨"0", none, ⟨[0]⟩, some 5⟩
    let tl := (({} : Timeline).addRoot.add c).cancelLater c 3
    (tl.race c 10 1).1.2 = .interrupted .cancelled ∧ (tl.race c 10 1).1.1.now = 3 := by
  intro c tl
  have hreached : Reached [(3, c.token)] tl := .cancelLater (.add (.addRoot .start) c) c 3
  have hdecides := (first_instant_decides hreached c).2 10 1 (Nat.zero_le _)
  exact hdecides.cancelled rfl rfl 3 rfl (fun _ hd => by cases hd; decide) (by decide)

/-- A cancellation for the instant at which the work begins that has not had its
turn does not stop the work. -/
theorem cancellation_at_start_loses :
    let c : Context := ⟨"0", none, ⟨[0]⟩, none⟩
    let tl := ({} : Timeline).addRoot.cancelLater c 0
    Reached [(0, c.token)] tl ∧ cancellation? [(0, c.token)] c = some 0 ∧ 0 <= tl.now ∧
      (tl.run c none).2 = .finished := by
  exact ⟨.cancelLater (.addRoot .start) _ 0, rfl, Nat.le_refl _, rfl⟩

end Timeline
end WriteLatch
