import WriteLatch.Failure
import WriteLatch.Lock

/-!
# Write contexts

A context carries the identity of a request and says when its work has to stop:
at its deadline, or as soon as it is cancelled.  Cancellation travels from a
context to everything derived from it and never back, so a token is the chain
of numbers from its own up to that of its root, and it is cancelled together
with any token whose chain ends it.
-/

namespace WriteLatch

structure Token where
  chain : List Nat
  deriving DecidableEq, Repr

namespace Token

/-- The number of the token itself. -/
def number (t : Token) : Nat :=
  t.chain.head?.getD 0

def isUnder (t ancestor : Token) : Bool :=
  ancestor.chain.isSuffixOf t.chain

theorem isUnder_self (t : Token) : t.isUnder t = true := by
  simp [isUnder]

theorem isUnder_trans {a b c : Token} (hab : a.isUnder b = true) (hbc : b.isUnder c = true) :
    a.isUnder c = true := by
  simp only [isUnder, List.isSuffixOf_iff_suffix] at *
  exact hbc.trans hab

end Token

/-- The tokens handed out so far, by count, and those that were cancelled. -/
structure Tokens where
  issued : Nat := 0
  cancelled : List Token := []
  deriving DecidableEq, Repr

namespace Tokens

def root (ts : Tokens) : Token × Tokens :=
  (⟨[ts.issued]⟩, { ts with issued := ts.issued + 1 })

def child (ts : Tokens) (parent : Token) : Token × Tokens :=
  (⟨ts.issued :: parent.chain⟩, { ts with issued := ts.issued + 1 })

def isCancelled (ts : Tokens) (t : Token) : Bool :=
  ts.cancelled.any t.isUnder

def cancel (ts : Tokens) (t : Token) : Tokens :=
  { ts with cancelled := ts.cancelled ++ [t] }

theorem isCancelled_cancel (ts : Tokens) (s t : Token) :
    (ts.cancel s).isCancelled t = (ts.isCancelled t || t.isUnder s) := by
  simp [isCancelled, cancel]

/-- A child is cancelled when it has been itself, or its parent is. -/
theorem isCancelled_child (ts : Tokens) (number : Nat) (parent : Token) :
    ts.isCancelled ⟨number :: parent.chain⟩ = true ↔
      ⟨number :: parent.chain⟩ ∈ ts.cancelled ∨ ts.isCancelled parent = true := by
  simp only [isCancelled, List.any_eq_true, Token.isUnder, List.isSuffixOf_iff_suffix,
    List.suffix_cons_iff]
  constructor
  · rintro ⟨⟨chain⟩, hmem, hsame | hsuffix⟩
    · subst hsame
      exact .inl hmem
    · exact .inr ⟨_, hmem, hsuffix⟩
  · rintro (hmem | ⟨t, hmem, hsuffix⟩)
    · exact ⟨_, hmem, .inl rfl⟩
    · exact ⟨t, hmem, .inr hsuffix⟩

end Tokens

/-! ## Contexts -/

structure Context where
  traceId : String
  tenant : Option String
  token : Token
  deadline : Option Millis
  deriving DecidableEq, Repr

namespace Context

def root (traceId : String) (ts : Tokens) : Context × Tokens :=
  (⟨traceId, none, ts.root.1, none⟩, ts.root.2)

/-- A context that is cancelled with its parent and can be cancelled on its
own. -/
def child (parent : Context) (ts : Tokens) : Context × Tokens :=
  ({ parent with token := (ts.child parent.token).1 }, (ts.child parent.token).2)

def withTenant (c : Context) (tenant : String) : Context :=
  { c with tenant := some tenant }

/-- Moves the deadline to at most the given time from now. -/
def withTimeout (c : Context) (now timeout : Millis) : Context :=
  match c.deadline with
  | some d => { c with deadline := some (min d (now + timeout)) }
  | none => { c with deadline := some (now + timeout) }

end Context

/-! ## The end of a context -/

inductive Interruption where
  | cancelled
  | deadlineExceeded
  deriving DecidableEq, Repr

def Interruption.failure : Interruption -> Failure
  | .cancelled => .cancelled
  | .deadlineExceeded => .deadlineExceeded

namespace Context

def isLate (c : Context) (now : Millis) : Bool :=
  match c.deadline with
  | some d => d <= now
  | none => false

/-- What has ended a context by now; cancellation is looked at first. -/
def interruption? (c : Context) (ts : Tokens) (now : Millis) : Option Interruption :=
  if ts.isCancelled c.token then some .cancelled
  else if c.isLate now then some .deadlineExceeded
  else none

theorem interruption?_eq_none_iff {c : Context} {ts : Tokens} {now : Millis} :
    c.interruption? ts now = none ↔ ts.isCancelled c.token = false ∧ c.isLate now = false := by
  rw [interruption?]
  cases ts.isCancelled c.token <;> cases c.isLate now <;> simp

theorem isLate_eq_true_iff {c : Context} {now : Millis} :
    c.isLate now = true ↔ ∃ d, c.deadline = some d ∧ d <= now := by
  rw [isLate]
  cases c.deadline <;> simp

theorem isLate_eq_false_iff {c : Context} {now : Millis} :
    c.isLate now = false ↔ ∀ d, c.deadline = some d -> now < d := by
  rw [isLate]
  cases c.deadline <;> simp

/-- The earlier of an instant and the deadline. -/
def limit (c : Context) (instant : Millis) : Millis :=
  match c.deadline with
  | some d => min d instant
  | none => instant

theorem limit_cases (c : Context) (instant : Millis) :
    c.limit instant = instant ∨ c.deadline = some (c.limit instant) := by
  rw [limit]
  split
  next d hd =>
    rcases Nat.le_total d instant with hle | hle
    · exact .inr (hd.trans (congrArg some (Nat.min_eq_left hle).symm))
    · exact .inl (Nat.min_eq_right hle)
  · exact .inl rfl

theorem limit_le (c : Context) (instant : Millis) : c.limit instant <= instant := by
  rw [limit]
  split
  · exact Nat.min_le_right _ _
  · exact Nat.le_refl _

theorem limit_le_deadline {c : Context} {d : Millis} (instant : Millis)
    (hd : c.deadline = some d) : c.limit instant <= d := by
  rw [limit, hd]
  exact Nat.min_le_left _ _

theorem le_limit {c : Context} {now instant : Millis} (hinTime : c.isLate now = false)
    (hle : now <= instant) : now <= c.limit instant := by
  rcases c.limit_cases instant with heq | hd
  · exact Nat.le_trans hle (Nat.le_of_eq heq.symm)
  · exact Nat.le_of_lt (isLate_eq_false_iff.mp hinTime _ hd)

theorem withTimeout_deadline_le (c : Context) (now timeout : Millis) :
    ∃ d, (c.withTimeout now timeout).deadline = some d ∧ d <= now + timeout := by
  cases h : c.deadline with
  | none => exact ⟨now + timeout, by simp [withTimeout, h], Nat.le_refl _⟩
  | some d => exact ⟨min d (now + timeout), by simp [withTimeout, h], Nat.min_le_right _ _⟩

theorem token_withTimeout (c : Context) (now timeout : Millis) :
    (c.withTimeout now timeout).token = c.token := by
  cases h : c.deadline <;> simp [withTimeout, h]

end Context
end WriteLatch
