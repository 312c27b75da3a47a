import Mathlib.Logic.Relation
import WriteLatch.Lock
import WriteLatch.Transaction

/-!
# The course of a transaction

A transaction calls its collaborators one after another and goes by what they
answer.  What they answer is up to them, and so is how long they take; meanwhile
time passes and contexts are cancelled.  A call that is due is made unless the
context it is made under is over, and the context may end before the call
returns.  Nothing else is assumed here, so what holds of every course holds with
any store, any cache and any way in which contexts end.
-/

namespace WriteLatch

/-- A time, and the tokens that are cancelled by then. -/
structure Moment where
  tokens : Tokens
  now : Millis

namespace Moment

def ends (m : Moment) (c : Context) : Interruption -> Bool
  | .cancelled => m.tokens.isCancelled c.token
  | .deadlineExceeded => c.isLate m.now

structure Precedes (before after : Moment) : Prop where
  now : before.now <= after.now
  cancelled : ∀ t ∈ before.tokens.cancelled, t ∈ after.tokens.cancelled

theorem ends_of_interruption? {m : Moment} {c : Context} {i : Interruption}
    (h : c.interruption? m.tokens m.now = some i) : m.ends c i = true := by
  unfold Context.interruption? at h
  by_cases hcancelled : m.tokens.isCancelled c.token = true
  · rw [if_pos hcancelled, Option.some.injEq] at h
    rw [← h]
    exact hcancelled
  · rw [if_neg hcancelled] at h
    by_cases hlate : c.isLate m.now = true
    · rw [if_pos hlate, Option.some.injEq] at h
      rw [← h]
      exact hlate
    · rw [if_neg hlate] at h
      cases h

/-- What has ended a context stays the case. -/
theorem Precedes.ends {before after : Moment} (h : before.Precedes after) {c : Context}
    {i : Interruption} (hends : before.ends c i = true) : after.ends c i = true := by
  cases i with
  | cancelled =>
      have hbefore : before.tokens.isCancelled c.token = true := hends
      change after.tokens.isCancelled c.token = true
      rw [Tokens.isCancelled, List.any_eq_true] at hbefore ⊢
      rcases hbefore with ⟨t, hmem, hunder⟩
      exact ⟨t, h.cancelled t hmem, hunder⟩
  | deadlineExceeded =>
      have hbefore : c.isLate before.now = true := hends
      change c.isLate after.now = true
      unfold Context.isLate at hbefore ⊢
      cases hdeadline : c.deadline with
      | none =>
          rw [hdeadline] at hbefore
          cases hbefore
      | some d =>
          rw [hdeadline] at hbefore
          simp only [decide_eq_true_eq] at hbefore ⊢
          exact Nat.le_trans hbefore h.now

end Moment

def Answer.interruption? {α : Type} : Answer α -> Option Interruption
  | .interrupted i => some i
  | .returned _ => none

namespace Transaction

/-- What a transaction is given to do. -/
structure Job where
  scheme : LockScheme
  ctx : Context
  keys : List Key
  values : List Value

inductive Call where
  | set (items : List CacheItem)
  | put (keys : List Key) (values : List Value)
  | delete (slots : List String)

/-- What became of a call that was due, whether it was made or not. -/
inductive Ended where
  | set (answer : CacheAnswer)
  | put (answer : StoreAnswer)
  | delete (answer : CacheAnswer)

/-- What a transaction does and hears.  A context for the cache is asked for and
given at once. -/
inductive Act where
  | opened (answer : Except (List String) Context)
  | began (call : Call)
  | ended (e : Ended)
  | reported (causes : List String)

namespace Job

variable (job : Job)

def set : Call :=
  .set (job.scheme.lockItems job.keys)

def put : Call :=
  .put job.keys job.values

def delete : Call :=
  .delete (job.scheme.lockSlots job.keys)

/-- The call that is due, and the context it is made under. -/
def due? : Phase -> Option (Context × Call)
  | .locking c => some (c, job.set)
  | .writing _ => some (job.ctx, job.put)
  | .releasing c _ => some (c, job.delete)
  | .opening => none
  | .finished _ => none

end Job

namespace Ended

def interruption? : Ended -> Option Interruption
  | .set answer => answer.interruption?
  | .put answer => answer.interruption?
  | .delete answer => answer.interruption?

/-- What is reported when a call has ended so. -/
def reports : Ended -> List Act
  | .delete answer => (releaseCauses? answer).toList.map .reported
  | _ => []

end Ended

/-- The phase after the call that is due. -/
def Phase.after? : Phase -> Ended -> Option Phase
  | .locking c, .set answer => some (locked c answer)
  | .writing c, .put answer => some (written c answer)
  | .releasing _ result, .delete answer => some (released result answer)
  | _, _ => none

structure Course where
  phase : Phase := .opening
  underWay : Bool := false
  /-- In the order in which they happened. -/
  acts : List Act := []
  moment : Moment

namespace Course

structure Fresh (t : Course) : Prop where
  phase : t.phase = .opening
  underWay : t.underWay = false
  acts : t.acts = []

def afterEnd (t : Course) (e : Ended) (next : Phase) : Course :=
  { t with phase := next, underWay := false, acts := t.acts ++ .ended e :: e.reports }

inductive Step (job : Job) (t : Course) : Course -> Prop where
  | passes {later : Moment} (h : t.moment.Precedes later) : Step job t { t with moment := later }
  | opened (answer : Except (List String) Context) (hphase : t.phase = .opening) :
      Step job t
        { t with phase := Transaction.opened answer, acts := t.acts ++ [.opened answer] }
  | began {c : Context} {call : Call} (hdue : job.due? t.phase = some (c, call))
      (hfree : t.underWay = false)
      (hgoesOn : c.interruption? t.moment.tokens t.moment.now = none) :
      Step job t { t with underWay := true, acts := t.acts ++ [.began call] }
  | returned {e : Ended} {next : Phase} (hnext : t.phase.after? e = some next)
      (hunderWay : t.underWay = true) (hreturned : e.interruption? = none) :
      Step job t (t.afterEnd e next)
  /-- The context has ended, before the call could be made or before it has
  returned. -/
  | interrupted {c : Context} {call : Call} {e : Ended} {next : Phase} {i : Interruption}
      (hdue : job.due? t.phase = some (c, call)) (hnext : t.phase.after? e = some next)
      (hinterrupted : e.interruption? = some i) (hends : t.moment.ends c i = true) :
      Step job t (t.afterEnd e next)

abbrev Reaches (job : Job) : Course -> Course -> Prop :=
  Relation.ReflTransGen (Step job)

end Course

/-!
## How far a transaction has come
-/

/-- The call, if it was made. -/
def beginning (made : Bool) (call : Call) : List Act :=
  if made then [.began call] else []

/-- The acts of a transaction whose locks have just been set. -/
def lockedActs (job : Job) (c : Context) : List Act :=
  [.opened (.ok c), .began job.set, .ended (.set (.returned (.ok ())))]

/-- The acts of a transaction that is through with setting its locks and writing,
with what came of it. -/
inductive Attempted (job : Job) (c : Context) : CallResult -> List Act -> Prop where
  | setInterrupted (made : Bool) (i : Interruption) :
      Attempted job c (wholesale i.failure)
        (.opened (.ok c) :: beginning made job.set ++ [.ended (.set (.interrupted i))])
  | setFailed (causes : List String) :
      Attempted job c (wholesale (.cache "set_multi" causes))
        [.opened (.ok c), .began job.set, .ended (.set (.returned (.error causes)))]
  | putInterrupted (made : Bool) (i : Interruption) :
      Attempted job c (wholesale i.failure)
        (lockedActs job c ++ (beginning made job.put ++ [.ended (.put (.interrupted i))]))
  | putReturned (result : CallResult) :
      Attempted job c result
        (lockedActs job c ++ [.began job.put, .ended (.put (.returned result))])

/-- The acts of a transaction that has finished with a context for the cache. -/
structure Released (job : Job) (c : Context) (result : CallResult) (moment : Moment)
    (acts : List Act) (attempts : List Act) (made : Bool) (answer : CacheAnswer) : Prop where
  attempted : Attempted job c result attempts
  acts : acts = attempts ++ (beginning made job.delete ++
    .ended (.delete answer) :: (Ended.delete answer).reports)
  interrupted : made = false -> ∃ i, answer = .interrupted i ∧ moment.ends c i = true

namespace Course

/-- What the acts of a transaction are in each phase. -/
def Tells (job : Job) (t : Course) : Prop :=
  match t.phase with
  | .opening => t.underWay = false ∧ t.acts = []
  | .locking c => t.acts = .opened (.ok c) :: beginning t.underWay job.set
  | .writing c => t.acts = lockedActs job c ++ beginning t.underWay job.put
  | .releasing c result =>
      ∃ attempts, Attempted job c result attempts ∧
        t.acts = attempts ++ beginning t.underWay job.delete
  | .finished result =>
      (∃ causes, result = wholesale (.cache "new_context" causes) ∧
        t.acts = [.opened (.error causes)]) ∨
      ∃ c attempts made answer, Released job c result t.moment t.acts attempts made answer

section Steps

variable {job : Job} {t t' : Course}

theorem Tells.passes {later : Moment} (h : Tells job t) (hlater : t.moment.Precedes later) :
    Tells job { t with moment := later } := by
  rcases t with ⟨phase, underWay, acts, moment⟩
  cases phase with
  | finished result =>
      rcases h with hrefused | ⟨c, attempts, made, answer, hreleased⟩
      · exact Or.inl hrefused
      · right
        refine ⟨c, attempts, made, answer, hreleased.attempted, hreleased.acts, ?_⟩
        intro hmade
        rcases hreleased.interrupted hmade with ⟨i, hanswer, hends⟩
        exact ⟨i, hanswer, hlater.ends hends⟩
  | opening | locking c | writing c | releasing c result => exact h

theorem Tells.opened (h : Tells job t) (answer : Except (List String) Context)
    (hphase : t.phase = .opening) :
    Tells job
      { t with phase := Transaction.opened answer, acts := t.acts ++ [.opened answer] } := by
  rcases t with ⟨phase, underWay, acts, moment⟩
  cases hphase
  rcases h with ⟨hfree, hacts⟩
  cases hfree
  cases hacts
  cases answer with
  | error causes => exact Or.inl ⟨causes, rfl, rfl⟩
  | ok c => rfl

theorem Tells.began {c : Context} {call : Call} (h : Tells job t)
    (hdue : job.due? t.phase = some (c, call)) (hfree : t.underWay = false) :
    Tells job { t with underWay := true, acts := t.acts ++ [.began call] } := by
  rcases t with ⟨phase, underWay, acts, moment⟩
  cases hfree
  cases phase with
  | opening | finished result => cases hdue
  | locking c' =>
      cases hdue
      have hacts : acts = [.opened (.ok c)] := h
      rw [hacts]
      rfl
  | writing c' =>
      cases hdue
      have hacts : acts = lockedActs job c' ++ [] := h
      rw [hacts]
      rfl
  | releasing c' result =>
      cases hdue
      rcases h with ⟨attempts, hattempted, hacts⟩
      have hsame : acts = attempts ++ [] := hacts
      refine ⟨attempts, hattempted, ?_⟩
      rw [hsame, List.append_nil]
      rfl

/-- A call that is due can end so: it was made and has returned, or its context
has ended. -/
def CanEnd (job : Job) (t : Course) (e : Ended) : Prop :=
  (t.underWay = true ∧ e.interruption? = none) ∨
    ∃ c call i, job.due? t.phase = some (c, call) ∧ e.interruption? = some i ∧
      t.moment.ends c i = true

theorem CanEnd.underWay {e : Ended} (h : CanEnd job t e) (hreturned : e.interruption? = none) :
    t.underWay = true := by
  rcases h with ⟨hunderWay, _⟩ | ⟨_, _, i, _, hinterrupted, _⟩
  · exact hunderWay
  · rw [hreturned] at hinterrupted
    cases hinterrupted

theorem tells_setEnded {c : Context} {answer : CacheAnswer} (hphase : t.phase = .locking c)
    (h : Tells job t) (hended : CanEnd job t (.set answer)) :
    Tells job (t.afterEnd (.set answer) (locked c answer)) := by
  have hacts : t.acts = .opened (.ok c) :: beginning t.underWay job.set := by
    unfold Tells at h
    rw [hphase] at h
    exact h
  cases answer with
  | interrupted i =>
      refine ⟨_, Attempted.setInterrupted t.underWay i, ?_⟩
      change t.acts ++ [.ended (.set (.interrupted i))] = _ ++ []
      rw [hacts, List.append_nil]
  | returned reply =>
      rw [hended.underWay rfl] at hacts
      cases reply with
      | ok u =>
          change t.acts ++ [.ended (.set (.returned (.ok u)))] = lockedActs job c ++ []
          rw [hacts]
          rfl
      | error causes =>
          refine ⟨_, Attempted.setFailed causes, ?_⟩
          change t.acts ++ [.ended (.set (.returned (.error causes)))] = _ ++ []
          rw [hacts]
          rfl

theorem tells_putEnded {c : Context} {answer : StoreAnswer} (hphase : t.phase = .writing c)
    (h : Tells job t) (hended : CanEnd job t (.put answer)) :
    Tells job (t.afterEnd (.put answer) (written c answer)) := by
  have hacts : t.acts = lockedActs job c ++ beginning t.underWay job.put := by
    unfold Tells at h
    rw [hphase] at h
    exact h
  cases answer with
  | interrupted i =>
      refine ⟨_, Attempted.putInterrupted t.underWay i, ?_⟩
      change t.acts ++ [.ended (.put (.interrupted i))] = _ ++ []
      rw [hacts, List.append_nil, List.append_assoc]
  | returned result =>
      rw [hended.underWay rfl] at hacts
      refine ⟨_, Attempted.putReturned result, ?_⟩
      change t.acts ++ [.ended (.put (.returned result))] = _ ++ []
      rw [hacts]
      rfl

theorem tells_deleteEnded {c : Context} {result : CallResult} {answer : CacheAnswer}
    (hphase : t.phase = .releasing c result) (h : Tells job t)
    (hended : CanEnd job t (.delete answer)) :
    Tells job (t.afterEnd (.delete answer) (released result answer)) := by
  unfold Tells at h
  rw [hphase] at h
  rcases h with ⟨attempts, hattempted, hacts⟩
  right
  refine ⟨c, attempts, t.underWay, answer, hattempted, ?_, ?_⟩
  · change t.acts ++ _ = _
    rw [hacts, List.append_assoc]
  · intro hfree
    rcases hended with ⟨hunderWay, _⟩ | ⟨_, _, i, hdue, hinterrupted, hends⟩
    · rw [hfree] at hunderWay
      cases hunderWay
    · rw [hphase] at hdue
      cases hdue
      cases answer with
      | returned reply => cases hinterrupted
      | interrupted i' =>
          cases hinterrupted
          exact ⟨i, rfl, hends⟩

theorem Tells.afterEnd {e : Ended} {next : Phase} (h : Tells job t)
    (hnext : t.phase.after? e = some next) (hended : CanEnd job t e) :
    Tells job (t.afterEnd e next) := by
  cases hphase : t.phase with
  | opening | finished result =>
      rw [hphase] at hnext
      cases hnext
  | locking c =>
      rw [hphase] at hnext
      cases e with
      | set answer =>
          cases hnext
          exact tells_setEnded hphase h hended
      | put answer | delete answer => cases hnext
  | writing c =>
      rw [hphase] at hnext
      cases e with
      | put answer =>
          cases hnext
          exact tells_putEnded hphase h hended
      | set answer | delete answer => cases hnext
  | releasing c result =>
      rw [hphase] at hnext
      cases e with
      | delete answer =>
          cases hnext
          exact tells_deleteEnded hphase h hended
      | set answer | put answer => cases hnext

theorem Tells.step (h : Tells job t) (hstep : Step job t t') : Tells job t' := by
  cases hstep with
  | passes hlater => exact h.passes hlater
  | opened answer hphase => exact h.opened answer hphase
  | began hdue hfree hgoesOn => exact h.began hdue hfree
  | returned hnext hunderWay hreturned => exact h.afterEnd hnext (Or.inl ⟨hunderWay, hreturned⟩)
  | interrupted hdue hnext hinterrupted hends =>
      exact h.afterEnd hnext (Or.inr ⟨_, _, _, hdue, hinterrupted, hends⟩)

theorem Fresh.tells (h : t.Fresh) : Tells job t := by
  rcases t with ⟨phase, underWay, acts, moment⟩
  cases h.phase
  exact ⟨h.underWay, h.acts⟩

theorem Reaches.tells (h : Reaches job t t') (htells : Tells job t) : Tells job t' := by
  induction h with
  | refl => exact htells
  | tail hreach hstep ih => exact ih.step hstep

end Steps

end Course
end Transaction
end WriteLatch
