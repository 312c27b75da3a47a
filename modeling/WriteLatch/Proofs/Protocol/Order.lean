import WriteLatch.Proofs.Protocol.Course

/-!
# The order of the calls

Whatever the collaborators answer and whenever contexts end, a transaction makes
its calls in one order, each of them once at most and with nothing but its own
keys.  The locks are set before the store is called and given back when both are
over.  What comes of giving them back has no part in the result.
-/

namespace WriteLatch
namespace Transaction

namespace Act

def isPut : Act -> Bool
  | .began (.put _ _) => true
  | _ => false

def isDelete : Act -> Bool
  | .began (.delete _) => true
  | _ => false

/-- Belongs to giving the locks back. -/
def ofRelease : Act -> Bool
  | .began (.delete _) => true
  | .ended (.delete _) => true
  | .reported _ => true
  | _ => false

/-- How a step before the release has failed, if it has. -/
def failure? : Act -> Option Failure
  | .opened (.error causes) => some (.cache "new_context" causes)
  | .ended (.set (.returned (.error causes))) => some (.cache "set_multi" causes)
  | .ended (.set (.interrupted i)) => some i.failure
  | .ended (.put (.interrupted i)) => some i.failure
  | _ => none

end Act

/-- What the order of the calls says of the acts of a transaction. -/
structure Orderly (job : Job) (t : Course) : Prop where
  opensFirst : (t.phase = .opening ∧ t.acts = []) ∨
    ∃ answer rest, t.acts = .opened answer :: rest ∧ ∀ other, .opened other ∉ rest
  /-- Without a context for the cache nothing else is called. -/
  refused : ∀ causes, .opened (.error causes) ∈ t.acts ->
    t.acts = [.opened (.error causes)] ∧
      t.phase = .finished (wholesale (.cache "new_context" causes))
  putOnce : t.acts.countP Act.isPut <= 1
  /-- The store is called right after the locks were set. -/
  putLocked : ∀ keys values, .began (.put keys values) ∈ t.acts ->
    keys = job.keys ∧ values = job.values ∧
      ∃ c rest, t.acts = lockedActs job c ++ .began (.put keys values) :: rest
  deleteOnce : t.acts.countP Act.isDelete <= 1
  /-- The locks are deleted when setting them and writing are through. -/
  deleteLast : ∀ slots, .began (.delete slots) ∈ t.acts ->
    slots = job.scheme.lockSlots job.keys ∧
      ∃ c result attempts rest, Attempted job c result attempts ∧
        t.acts = attempts ++ .began (.delete slots) :: rest ∧
        ∀ act ∈ rest, act.ofRelease = true
  deleteCalled : ∀ c result, .opened (.ok c) ∈ t.acts -> t.phase = .finished result ->
    (∀ i, t.moment.ends c i = false) -> .began job.delete ∈ t.acts
  answered : ∀ result reply, t.phase = .finished result ->
    .ended (.put (.returned reply)) ∈ t.acts -> result = reply
  failed : ∀ result, t.phase = .finished result ->
    (∀ reply, .ended (.put (.returned reply)) ∉ t.acts) ->
      ∃ f, t.acts.findSome? Act.failure? = some f ∧ result = wholesale f

/-!
## The acts of the attempts
-/

theorem mem_beginning {act : Act} {made : Bool} {call : Call} :
    act ∈ beginning made call ↔ made = true ∧ act = .began call := by
  cases made <;> simp [beginning]

/-- What follows when a call to delete the locks has ended, or was not made. -/
theorem ofRelease_and_not_isDelete {answer : CacheAnswer} :
    ∀ act ∈ Act.ended (.delete answer) :: (Ended.delete answer).reports,
      act.ofRelease = true ∧ act.isDelete = false := by
  intro act hmem
  rcases List.mem_cons.mp hmem with heq | hmem
  · rw [heq]
    exact ⟨rfl, rfl⟩
  · rcases List.mem_map.mp hmem with ⟨causes, _, heq⟩
    rw [← heq]
    exact ⟨rfl, rfl⟩

theorem ofRelease_of_mem {job : Job} {made : Bool} {rest : List Act}
    (hrest : ∀ act ∈ rest, act.ofRelease = true ∧ act.isDelete = false) {act : Act}
    (hmem : act ∈ beginning made job.delete ++ rest) : act.ofRelease = true := by
  rcases List.mem_append.mp hmem with hmem | hmem
  · rw [(mem_beginning.mp hmem).2]
    rfl
  · exact (hrest act hmem).1

namespace Attempted

variable {job : Job} {c : Context} {result : CallResult} {attempts : List Act}

theorem opensFirst (h : Attempted job c result attempts) :
    ∃ rest, attempts = .opened (.ok c) :: rest ∧ ∀ other, .opened other ∉ rest := by
  cases h with
  | setInterrupted made i => exact ⟨_, rfl, by simp [mem_beginning]⟩
  | setFailed causes => exact ⟨_, rfl, by simp⟩
  | putInterrupted made i => exact ⟨_, rfl, by simp [mem_beginning]⟩
  | putReturned result => exact ⟨_, rfl, by simp⟩

/-- The context for the cache is the only one that was given. -/
theorem opened_of_mem (h : Attempted job c result attempts) {later : List Act}
    (hlater : ∀ act ∈ later, act.ofRelease = true) {answer : Except (List String) Context}
    (hmem : .opened answer ∈ attempts ++ later) : answer = .ok c := by
  rcases List.mem_append.mp hmem with hmem | hmem
  · rcases h.opensFirst with ⟨rest, hattempts, hrest⟩
    rw [hattempts] at hmem
    rcases List.mem_cons.mp hmem with heq | hmem
    · cases heq
      rfl
    · exact absurd hmem (hrest _)
  · cases hlater _ hmem

theorem putOnce (h : Attempted job c result attempts) : attempts.countP Act.isPut <= 1 := by
  cases h with
  | setInterrupted made i => cases made <;> exact Nat.zero_le 1
  | setFailed causes => exact Nat.zero_le 1
  | putInterrupted made i =>
      cases made with
      | false => exact Nat.zero_le 1
      | true => exact Nat.le_refl 1
  | putReturned result => exact Nat.le_refl 1

theorem putLocked (h : Attempted job c result attempts) {keys : List Key} {values : List Value}
    (hmem : .began (.put keys values) ∈ attempts) :
    keys = job.keys ∧ values = job.values ∧
      ∃ rest, attempts = lockedActs job c ++ .began (.put keys values) :: rest := by
  cases h with
  | setInterrupted made i => simp [mem_beginning, Job.set] at hmem
  | setFailed causes => simp [Job.set] at hmem
  | putInterrupted made i =>
      simp [lockedActs, mem_beginning, Job.set, Job.put] at hmem
      rcases hmem with ⟨hmade, hkeys, hvalues⟩
      rw [hmade, hkeys, hvalues]
      exact ⟨rfl, rfl, _, rfl⟩
  | putReturned result =>
      simp [lockedActs, Job.set, Job.put] at hmem
      rcases hmem with ⟨hkeys, hvalues⟩
      rw [hkeys, hvalues]
      exact ⟨rfl, rfl, _, rfl⟩

theorem isDelete_eq_false (h : Attempted job c result attempts) :
    ∀ act ∈ attempts, act.isDelete = false := by
  cases h with
  | setInterrupted made i => cases made <;> simp [beginning, Act.isDelete, Job.set]
  | setFailed causes => simp [Act.isDelete, Job.set]
  | putInterrupted made i =>
      cases made <;> simp [beginning, lockedActs, Act.isDelete, Job.set, Job.put]
  | putReturned result => simp [lockedActs, Act.isDelete, Job.set, Job.put]

/-- Either the store has answered, and this is the result, or the first step that
failed makes it. -/
theorem answered_or_failed (h : Attempted job c result attempts) :
    (.ended (.put (.returned result)) ∈ attempts ∧
        ∀ reply, .ended (.put (.returned reply)) ∈ attempts -> result = reply) ∨
      ((∀ reply, .ended (.put (.returned reply)) ∉ attempts) ∧
        ∃ f, attempts.findSome? Act.failure? = some f ∧ result = wholesale f) := by
  cases h with
  | setInterrupted made i =>
      right
      constructor
      · simp [mem_beginning]
      · cases made <;> exact ⟨_, rfl, rfl⟩
  | setFailed causes =>
      right
      constructor
      · simp
      · exact ⟨_, rfl, rfl⟩
  | putInterrupted made i =>
      right
      constructor
      · simp [lockedActs, mem_beginning]
      · cases made <;> exact ⟨_, rfl, rfl⟩
  | putReturned result =>
      left
      simp [lockedActs]

end Attempted

/-!
## The acts in each phase
-/

/-- The acts of a transaction are none, a refusal, an attempt under way, or all
that was attempted, followed by what belongs to the release. -/
inductive Stands (job : Job) : Phase -> List Act -> Prop where
  | fresh : Stands job .opening []
  | refused (causes : List String) :
      Stands job (.finished (wholesale (.cache "new_context" causes))) [.opened (.error causes)]
  | setting (c : Context) (made : Bool) :
      Stands job (.locking c) (.opened (.ok c) :: beginning made job.set)
  | writing (c : Context) (made : Bool) :
      Stands job (.writing c) (lockedActs job c ++ beginning made job.put)
  | attempted {c : Context} {result : CallResult} {attempts rest : List Act} {phase : Phase}
      (made : Bool) (hattempted : Attempted job c result attempts)
      (hphase : phase = .releasing c result ∨ phase = .finished result)
      (hrest : ∀ act ∈ rest, act.ofRelease = true ∧ act.isDelete = false) :
      Stands job phase (attempts ++ (beginning made job.delete ++ rest))

theorem Course.Tells.stands {job : Job} {t : Course} (h : t.Tells job) :
    Stands job t.phase t.acts := by
  unfold Course.Tells at h
  cases hphase : t.phase with
  | opening =>
      rw [hphase] at h
      rw [h.2]
      exact Stands.fresh
  | locking c =>
      rw [hphase] at h
      dsimp only at h
      rw [h]
      exact Stands.setting c t.underWay
  | writing c =>
      rw [hphase] at h
      dsimp only at h
      rw [h]
      exact Stands.writing c t.underWay
  | releasing c result =>
      rw [hphase] at h
      rcases h with ⟨attempts, hattempted, hacts⟩
      rw [hacts, ← List.append_nil (beginning t.underWay job.delete)]
      apply Stands.attempted t.underWay hattempted (Or.inl rfl)
      intro act hmem
      cases hmem
  | finished result =>
      rw [hphase] at h
      rcases h with ⟨causes, hresult, hacts⟩ | ⟨c, attempts, made, answer, hreleased⟩
      · rw [hresult, hacts]
        exact Stands.refused causes
      · rw [hreleased.acts]
        exact Stands.attempted made hreleased.attempted (Or.inr rfl) ofRelease_and_not_isDelete

namespace Stands

variable {job : Job} {phase : Phase} {acts : List Act}

theorem opensFirst (h : Stands job phase acts) :
    (phase = .opening ∧ acts = []) ∨
      ∃ answer rest, acts = .opened answer :: rest ∧ ∀ other, .opened other ∉ rest := by
  cases h with
  | fresh => exact Or.inl ⟨rfl, rfl⟩
  | refused causes => exact Or.inr ⟨_, [], rfl, by simp⟩
  | setting c made => exact Or.inr ⟨_, _, rfl, by simp [mem_beginning]⟩
  | writing c made => exact Or.inr ⟨_, _, rfl, by simp [mem_beginning]⟩
  | @attempted c result attempts rest _ made hattempted hphase hrest =>
      right
      rcases hattempted.opensFirst with ⟨first, hattempts, hfirst⟩
      rw [hattempts]
      refine ⟨_, _, rfl, ?_⟩
      intro other hmem
      rcases List.mem_append.mp hmem with hmem | hmem
      · exact hfirst other hmem
      · cases ofRelease_of_mem hrest hmem

theorem refused_of_mem (h : Stands job phase acts) {causes : List String}
    (hmem : .opened (.error causes) ∈ acts) :
    acts = [.opened (.error causes)] ∧
      phase = .finished (wholesale (.cache "new_context" causes)) := by
  cases h with
  | fresh => cases hmem
  | refused causes' =>
      cases List.mem_singleton.mp hmem
      exact ⟨rfl, rfl⟩
  | setting c made => simp [mem_beginning] at hmem
  | writing c made => simp [lockedActs, mem_beginning] at hmem
  | @attempted c result attempts rest _ made hattempted hphase hrest =>
      cases hattempted.opened_of_mem (fun act => ofRelease_of_mem hrest) hmem

theorem putOnce (h : Stands job phase acts) : acts.countP Act.isPut <= 1 := by
  cases h with
  | fresh | refused causes => exact Nat.zero_le 1
  | setting c made => cases made <;> exact Nat.zero_le 1
  | writing c made =>
      cases made with
      | false => exact Nat.zero_le 1
      | true => exact Nat.le_refl 1
  | @attempted c result attempts rest _ made hattempted hphase hrest =>
      have hnone : (beginning made job.delete ++ rest).countP Act.isPut = 0 := by
        rw [List.countP_eq_zero]
        intro act hmem hput
        have hrelease := ofRelease_of_mem hrest hmem
        cases act with
        | began call =>
            cases call with
            | set items | delete slots => cases hput
            | put keys values => cases hrelease
        | opened answer | ended e | reported causes => cases hput
      rw [List.countP_append, hnone]
      exact hattempted.putOnce

theorem putLocked (h : Stands job phase acts) {keys : List Key} {values : List Value}
    (hmem : .began (.put keys values) ∈ acts) :
    keys = job.keys ∧ values = job.values ∧
      ∃ c rest, acts = lockedActs job c ++ .began (.put keys values) :: rest := by
  cases h with
  | fresh => cases hmem
  | refused causes => cases List.mem_singleton.mp hmem
  | setting c made => simp [mem_beginning, Job.set] at hmem
  | writing c made =>
      simp only [lockedActs, Job.set, Job.put, List.mem_append, List.mem_cons, mem_beginning]
        at hmem
      rcases hmem with (hmem | hmem | hmem | hmem) | ⟨hmade, hmem⟩
      · cases hmem
      · cases hmem
      · cases hmem
      · cases hmem
      · cases hmem
        rw [hmade]
        exact ⟨rfl, rfl, c, [], rfl⟩
  | @attempted c result attempts rest _ made hattempted hphase hrest =>
      rcases List.mem_append.mp hmem with hmem | hmem
      · rcases hattempted.putLocked hmem with ⟨hkeys, hvalues, later, hattempts⟩
        rw [hattempts, List.append_assoc]
        exact ⟨hkeys, hvalues, c, _, rfl⟩
      · cases ofRelease_of_mem hrest hmem

theorem deleteOnce (h : Stands job phase acts) : acts.countP Act.isDelete <= 1 := by
  cases h with
  | fresh | refused causes => exact Nat.zero_le 1
  | setting c made => cases made <;> exact Nat.zero_le 1
  | writing c made => cases made <;> exact Nat.zero_le 1
  | @attempted c result attempts rest _ made hattempted hphase hrest =>
      have hattempts : attempts.countP Act.isDelete = 0 := by
        rw [List.countP_eq_zero]
        intro act hmem hdelete
        rw [hattempted.isDelete_eq_false act hmem] at hdelete
        cases hdelete
      have hlater : rest.countP Act.isDelete = 0 := by
        rw [List.countP_eq_zero]
        intro act hmem hdelete
        rw [(hrest act hmem).2] at hdelete
        cases hdelete
      rw [List.countP_append, List.countP_append, hattempts, hlater]
      cases made with
      | false => exact Nat.zero_le 1
      | true => exact Nat.le_refl 1

theorem deleteLast (h : Stands job phase acts) {slots : List String}
    (hmem : .began (.delete slots) ∈ acts) :
    slots = job.scheme.lockSlots job.keys ∧
      ∃ c result attempts rest, Attempted job c result attempts ∧
        acts = attempts ++ .began (.delete slots) :: rest ∧
        ∀ act ∈ rest, act.ofRelease = true := by
  cases h with
  | fresh => cases hmem
  | refused causes => cases List.mem_singleton.mp hmem
  | setting c made => simp [mem_beginning, Job.set] at hmem
  | writing c made => simp [lockedActs, mem_beginning, Job.set, Job.put] at hmem
  | @attempted c result attempts rest _ made hattempted hphase hrest =>
      rcases List.mem_append.mp hmem with hmem | hmem
      · cases hattempted.isDelete_eq_false _ hmem
      · rcases List.mem_append.mp hmem with hmem | hmem
        · rcases mem_beginning.mp hmem with ⟨hmade, heq⟩
          cases heq
          rw [hmade]
          exact ⟨rfl, c, result, attempts, rest, hattempted, rfl, fun act h => (hrest act h).1⟩
        · cases (hrest _ hmem).2

theorem answered_or_failed {result : CallResult} (h : Stands job (.finished result) acts) :
    (∀ reply, .ended (.put (.returned reply)) ∈ acts -> result = reply) ∧
      ((∀ reply, .ended (.put (.returned reply)) ∉ acts) ->
        ∃ f, acts.findSome? Act.failure? = some f ∧ result = wholesale f) := by
  cases h with
  | refused causes =>
      constructor
      · intro reply hmem
        cases List.mem_singleton.mp hmem
      · intro hnone
        exact ⟨_, rfl, rfl⟩
  | @attempted c result' attempts rest _ made hattempted hphase hrest =>
      have hsame : result' = result := by
        rcases hphase with hreleasing | hfinished
        · cases hreleasing
        · cases hfinished
          rfl
      rw [← hsame]
      rcases hattempted.answered_or_failed with ⟨hmem, hanswered⟩ | ⟨hnone, f, hfirst, hf⟩
      · constructor
        · intro reply hreply
          rcases List.mem_append.mp hreply with hreply | hreply
          · exact hanswered reply hreply
          · cases ofRelease_of_mem hrest hreply
        · intro hnone
          exact absurd (List.mem_append_left _ hmem) (hnone result')
      · constructor
        · intro reply hreply
          rcases List.mem_append.mp hreply with hreply | hreply
          · exact absurd hreply (hnone reply)
          · cases ofRelease_of_mem hrest hreply
        · intro _
          refine ⟨f, ?_, hf⟩
          rw [List.findSome?_append, hfirst, Option.some_or]

end Stands

/-- Where the locks were not deleted, the context for the cache is over. -/
theorem Course.Tells.deleteCalled {job : Job} {t : Course} (h : t.Tells job) {c : Context}
    {result : CallResult} (hopened : .opened (.ok c) ∈ t.acts)
    (hphase : t.phase = .finished result) (hgoesOn : ∀ i, t.moment.ends c i = false) :
    .began job.delete ∈ t.acts := by
  unfold Course.Tells at h
  rw [hphase] at h
  rcases h with ⟨causes, _, hacts⟩ | ⟨c', attempts, made, answer, hreleased⟩
  · rw [hacts] at hopened
    cases List.mem_singleton.mp hopened
  · rw [hreleased.acts] at hopened
    have hsame : c = c' := Except.ok.inj
      (hreleased.attempted.opened_of_mem
        (fun act => ofRelease_of_mem ofRelease_and_not_isDelete) hopened)
    cases made with
    | true =>
        rw [hreleased.acts]
        simp [beginning]
    | false =>
        rcases hreleased.interrupted rfl with ⟨i, _, hends⟩
        rw [← hsame, hgoesOn i] at hends
        cases hends

theorem Course.Tells.orderly {job : Job} {t : Course} (h : t.Tells job) : Orderly job t where
  opensFirst := h.stands.opensFirst
  refused := fun _ => h.stands.refused_of_mem
  putOnce := h.stands.putOnce
  putLocked := fun _ _ => h.stands.putLocked
  deleteOnce := h.stands.deleteOnce
  deleteLast := fun _ => h.stands.deleteLast
  deleteCalled := fun _ _ => h.deleteCalled
  answered := by
    intro result reply hphase
    have hstands := h.stands
    rw [hphase] at hstands
    exact hstands.answered_or_failed.1 reply
  failed := by
    intro result hphase
    have hstands := h.stands
    rw [hphase] at hstands
    exact hstands.answered_or_failed.2

/-!
## Every course
-/

namespace Course

/-- The result is settled when the locks are to be given back. -/
def IsSettled (t : Course) (result : CallResult) : Prop :=
  (∃ c, t.phase = .releasing c result) ∨ t.phase = .finished result

theorem IsSettled.step {job : Job} {t t' : Course} {result : CallResult}
    (h : t.IsSettled result) (hstep : Step job t t') : t'.IsSettled result := by
  have hended {e : Ended} {next : Phase} (hnext : t.phase.after? e = some next) :
      (t.afterEnd e next).IsSettled result := by
    rcases h with ⟨c, hphase⟩ | hphase
    · rw [hphase] at hnext
      cases e with
      | set answer | put answer => cases hnext
      | delete answer =>
          cases hnext
          exact Or.inr rfl
    · rw [hphase] at hnext
      cases hnext
  cases hstep with
  | passes hlater => exact h
  | opened answer hopening =>
      rcases h with ⟨c, hphase⟩ | hphase
      · rw [hphase] at hopening
        cases hopening
      · rw [hphase] at hopening
        cases hopening
  | began hdue hfree hgoesOn => exact h
  | returned hnext hunderWay hreturned => exact hended hnext
  | interrupted hdue hnext hinterrupted hends => exact hended hnext

theorem Reaches.isSettled {job : Job} {t t' : Course} {result : CallResult}
    (h : Reaches job t t') (hsettled : t.IsSettled result) : t'.IsSettled result := by
  induction h with
  | refl => exact hsettled
  | tail hreach hstep ih => exact ih.step hstep

end Course
end Transaction
end WriteLatch
