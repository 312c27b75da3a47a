import Mathlib.Logic.Relation
import WriteLatch.Context.Timeline

/-!
# The descent of contexts

Contexts are made from nothing or from other contexts, at any time and in any
order, and cancelled in between.  A chronicle keeps where each of them comes from
and which of them have been cancelled themselves.  This alone tells which
contexts are cancelled: a cancellation is shared by all copies of a context and
goes on to children, whenever they are made, and it goes nowhere else.  The rest
of a context is told by the way from its root to it.
-/

namespace WriteLatch

/-- How a context is made from another one. -/
inductive Derivation where
  | clone
  | child
  | tenant (name : String)
  | timeout (duration : Millis)
  deriving DecidableEq, Repr

namespace Derivation

/-- What becomes of a context at an instant, its token apart. -/
def applied (how : Derivation) (instant : Millis) (c : Context) : Context :=
  match how with
  | .clone => c
  | .child => c
  | .tenant name => c.withTenant name
  | .timeout duration => c.withTimeout instant duration

/-- The tenant that a derivation sets. -/
def tenant? : Derivation -> Option String
  | .tenant name => some name
  | .clone => none
  | .child => none
  | .timeout _ => none

/-- The deadline that a derivation sets at an instant. -/
def limit? (instant : Millis) : Derivation -> Option Millis
  | .timeout duration => some (instant + duration)
  | .clone => none
  | .child => none
  | .tenant _ => none

theorem token_applied (how : Derivation) (instant : Millis) (c : Context) :
    (how.applied instant c).token = c.token := by
  cases how with
  | clone | child | tenant name => rfl
  | timeout duration => exact c.token_withTimeout instant duration

theorem traceId_applied (how : Derivation) (instant : Millis) (c : Context) :
    (how.applied instant c).traceId = c.traceId := by
  cases how with
  | clone | child | tenant name => rfl
  | timeout duration => cases h : c.deadline <;> simp [applied, Context.withTimeout, h]

theorem tenant_applied (how : Derivation) (instant : Millis) (c : Context) :
    (how.applied instant c).tenant = how.tenant?.or c.tenant := by
  cases how with
  | clone | child | tenant name => rfl
  | timeout duration => cases h : c.deadline <;> simp [applied, tenant?, Context.withTimeout, h]

theorem deadline_applied (how : Derivation) (instant : Millis) (c : Context) :
    (how.applied instant c).deadline =
      match how.limit? instant with
      | none => c.deadline
      | some d => some ((c.deadline.map (min · d)).getD d) := by
  cases how with
  | clone | child | tenant name => rfl
  | timeout duration => cases h : c.deadline <;> simp [applied, limit?, Context.withTimeout, h]

end Derivation

/-- Where a context comes from. -/
inductive Origin where
  | root
  /-- From the context at a position. -/
  | derived (source : Nat) (how : Derivation) (instant : Millis)
  deriving DecidableEq, Repr

namespace Timeline

/-!
## Steps on a timeline
-/

inductive Step where
  | root
  | derive (source : Nat) (how : Derivation)
  | cancel (target : Nat)
  | advance (duration : Millis)
  deriving DecidableEq, Repr

def derive (tl : Timeline) (c : Context) : Derivation -> Timeline
  | .clone => tl.add c
  | .child => tl.addChild c
  | .tenant name => tl.add (c.withTenant name)
  | .timeout duration => tl.add (c.withTimeout tl.now duration)

/-- Contexts go by their positions.  Where there is no context nothing happens. -/
def take (tl : Timeline) : Step -> Timeline
  | .root => tl.addRoot
  | .derive source how =>
      match tl.contexts[source]? with
      | some c => tl.derive c how
      | none => tl
  | .cancel target =>
      match tl.contexts[target]? with
      | some c => tl.cancel c
      | none => tl
  | .advance duration => tl.advance duration

def origin? (tl : Timeline) : Step -> Option Origin
  | .root => some .root
  | .derive source how =>
      if source < tl.contexts.length then some (.derived source how tl.now) else none
  | .cancel _ => none
  | .advance _ => none

def target? (tl : Timeline) : Step -> Option Nat
  | .cancel target => if target < tl.contexts.length then some target else none
  | .root => none
  | .derive _ _ => none
  | .advance _ => none

/-- No cancellation has been put off. -/
structure IsIdle (tl : Timeline) : Prop where
  queue : tl.queue = []
  due : tl.due = []

/-- The time that has passed is all that tells the timelines apart. -/
structure OnlyLater (tl tl' : Timeline) : Prop where
  contexts : tl'.contexts = tl.contexts
  tokens : tl'.tokens = tl.tokens
  idle : tl'.IsIdle

variable {tl : Timeline}

theorem IsIdle.onlyLater_spend (h : tl.IsIdle) (n : Nat) : tl.OnlyLater (tl.spend n) :=
  ⟨rfl, rfl, h.queue, h.due⟩

theorem IsIdle.onlyLater_jumpTo (h : tl.IsIdle) (instant : Millis) :
    tl.OnlyLater (tl.jumpTo instant) := by
  refine ⟨rfl, rfl, ?_, ?_⟩
  · rw [jumpTo, h.queue, h.due]
    rfl
  · rw [jumpTo, h.due]
    rfl

theorem IsIdle.goOn_eq (h : tl.IsIdle) (stop : Millis) : tl.goOn stop = tl.jumpTo stop := by
  rw [goOn, h.queue, h.due]

theorem IsIdle.onlyLater_waitUntil (h : tl.IsIdle) (stop : Millis) (fuel : Nat) :
    tl.OnlyLater (waitUntil stop fuel tl) := by
  induction fuel generalizing tl with
  | zero => exact h.onlyLater_jumpTo stop
  | succ fuel ih =>
      have hjump := h.onlyLater_jumpTo stop
      rw [waitUntil, h.goOn_eq]
      split
      · have hspend := hjump.idle.onlyLater_spend 1
        exact ⟨hspend.contexts.trans hjump.contexts, hspend.tokens.trans hjump.tokens, hspend.idle⟩
      · have hrest := ih hjump.idle
        exact ⟨hrest.contexts.trans hjump.contexts, hrest.tokens.trans hjump.tokens, hrest.idle⟩

theorem IsIdle.onlyLater_advance (h : tl.IsIdle) (duration : Millis) :
    tl.OnlyLater (tl.advance duration) := by
  unfold advance
  split
  · exact h.onlyLater_spend 1
  · exact h.onlyLater_waitUntil _ _

/-- Contexts are added, and cancellations, and none is taken back. -/
structure Grows (tl tl' : Timeline) : Prop where
  contexts : tl.contexts <+: tl'.contexts
  cancelled : tl.tokens.cancelled <+: tl'.tokens.cancelled

theorem Grows.refl (tl : Timeline) : tl.Grows tl :=
  ⟨List.prefix_refl _, List.prefix_refl _⟩

theorem grows_add (tl : Timeline) (c : Context) {tokens : Tokens}
    (h : tokens.cancelled = tl.tokens.cancelled) :
    tl.Grows ({ tl with tokens := tokens }.add c) :=
  ⟨List.prefix_append _ _, h ▸ List.prefix_refl _⟩

theorem grows_derive (tl : Timeline) (c : Context) (how : Derivation) :
    tl.Grows (tl.derive c how) := by
  cases how with
  | clone | child | tenant name | timeout duration => exact tl.grows_add _ rfl

theorem IsIdle.grows_take (h : tl.IsIdle) (st : Step) : tl.Grows (tl.take st) := by
  cases st with
  | root => exact tl.grows_add _ rfl
  | derive source how =>
      rw [take]
      split
      · exact tl.grows_derive _ how
      · exact .refl tl
  | cancel target =>
      rw [take]
      split
      · exact ⟨List.prefix_refl _, List.prefix_append _ _⟩
      · exact .refl tl
  | advance duration =>
      have hlater := h.onlyLater_advance duration
      exact ⟨hlater.contexts ▸ List.prefix_refl _, hlater.tokens ▸ List.prefix_refl _⟩

theorem Grows.getElem?_contexts {tl' : Timeline} (h : tl.Grows tl') {j : Nat} {c : Context}
    (hc : tl.contexts[j]? = some c) : tl'.contexts[j]? = some c := by
  obtain ⟨more, hmore⟩ := h.contexts
  rw [← hmore, List.getElem?_append_left (List.getElem?_eq_some_iff.mp hc).1]
  exact hc

theorem Grows.isCancelled {tl' : Timeline} (h : tl.Grows tl') {c : Context}
    (hc : tl.isCancelled c = true) : tl'.isCancelled c = true := by
  obtain ⟨t, hmem, hunder⟩ := List.any_eq_true.mp hc
  exact List.any_eq_true.mpr ⟨t, h.cancelled.subset hmem, hunder⟩

end Timeline

/-!
## Chronicles
-/

structure Chronicle where
  timeline : Timeline := {}
  /-- Where the contexts come from, by position. -/
  origins : List Origin := []
  /-- The positions of the contexts that have been cancelled themselves. -/
  cancelled : List Nat := []

namespace Chronicle

open Timeline (Step)

def take (ch : Chronicle) (st : Step) : Chronicle where
  timeline := ch.timeline.take st
  origins := ch.origins ++ (ch.timeline.origin? st).toList
  cancelled := ch.cancelled ++ (ch.timeline.target? st).toList

def after (ch : Chronicle) (steps : List Step) : Chronicle :=
  steps.foldl take ch

/-- The chronicle of all that has happened since there were no contexts. -/
def ofSteps (steps : List Step) : Chronicle :=
  after {} steps

/-- A cancellation of the one context is one of the other, too: they share their
token, or the token of the other is a child of it. -/
inductive Passes (ch : Chronicle) : Nat -> Nat -> Prop where
  | toChild {parent child : Nat} {instant : Millis}
      (h : ch.origins[child]? = some (.derived parent .child instant)) : Passes ch parent child
  | toCopy {source copy : Nat} {how : Derivation} {instant : Millis}
      (h : ch.origins[copy]? = some (.derived source how instant)) (hshared : how ≠ .child) :
      Passes ch source copy
  | toSource {source copy : Nat} {how : Derivation} {instant : Millis}
      (h : ch.origins[copy]? = some (.derived source how instant)) (hshared : how ≠ .child) :
      Passes ch copy source

/-- The token of the one context is that of the other or an ancestor of it. -/
abbrev Reaches (ch : Chronicle) : Nat -> Nat -> Prop :=
  Relation.ReflTransGen ch.Passes

/-- The way from a root to a context, with the instants of the derivations. -/
inductive Way (ch : Chronicle) (root : Nat) : Nat -> List (Derivation × Millis) -> Prop where
  | here (h : ch.origins[root]? = some .root) : Way ch root root []
  | further {source next : Nat} {way : List (Derivation × Millis)} {how : Derivation}
      {instant : Millis} (hway : Way ch root source way)
      (h : ch.origins[next]? = some (.derived source how instant)) :
      Way ch root next (way ++ [(how, instant)])

end Chronicle

/-!
## Origins and tokens
-/

/-- No context before that position knows the number. -/
def IsFresh (contexts : List Context) (position number : Nat) : Prop :=
  ∀ (i : Nat) (c : Context), i < position -> contexts[i]? = some c -> number ∉ c.token.chain

/-- What a context owes to its origin. -/
inductive Descends (contexts : List Context) (position : Nat) (c : Context) : Origin -> Prop where
  | root {number : Nat} (hchain : c.token.chain = [number])
      (hfresh : IsFresh contexts position number) (htenant : c.tenant = none)
      (hdeadline : c.deadline = none) : Descends contexts position c .root
  | child {parent number : Nat} {p : Context} {instant : Millis} (hlt : parent < position)
      (hparent : contexts[parent]? = some p) (hchain : c.token.chain = number :: p.token.chain)
      (hfresh : IsFresh contexts position number) (hsame : c = { p with token := c.token }) :
      Descends contexts position c (.derived parent .child instant)
  | copy {source : Nat} {s : Context} {how : Derivation} {instant : Millis}
      (hlt : source < position) (hsource : contexts[source]? = some s) (hshared : how ≠ .child)
      (happlied : c = how.applied instant s) :
      Descends contexts position c (.derived source how instant)

/-- Contexts that come later change nothing for the earlier ones. -/
theorem IsFresh.append {contexts more : List Context} {position number : Nat}
    (h : IsFresh contexts position number) (hle : position <= contexts.length) :
    IsFresh (contexts ++ more) position number := by
  intro i c hi hc
  rw [List.getElem?_append_left (Nat.lt_of_lt_of_le hi hle)] at hc
  exact h i c hi hc

theorem Descends.append {contexts more : List Context} {position : Nat} {c : Context} {o : Origin}
    (h : Descends contexts position c o) (hle : position <= contexts.length) :
    Descends (contexts ++ more) position c o := by
  have hbefore {i : Nat} (hi : i < position) : (contexts ++ more)[i]? = contexts[i]? :=
    List.getElem?_append_left (Nat.lt_of_lt_of_le hi hle)
  cases h with
  | root hchain hfresh htenant hdeadline =>
      exact .root hchain (hfresh.append hle) htenant hdeadline
  | child hlt hparent hchain hfresh hsame =>
      exact .child hlt ((hbefore hlt).trans hparent) hchain (hfresh.append hle) hsame
  | copy hlt hsource hshared happlied =>
      exact .copy hlt ((hbefore hlt).trans hsource) hshared happlied

namespace Chronicle

open Timeline (Step)

/-- The chronicle is true of its timeline. -/
structure IsTrue (ch : Chronicle) : Prop where
  idle : ch.timeline.IsIdle
  length : ch.origins.length = ch.timeline.contexts.length
  descends : ∀ (j : Nat) (o : Origin) (c : Context), ch.origins[j]? = some o ->
    ch.timeline.contexts[j]? = some c -> Descends ch.timeline.contexts j c o
  issued : ∀ c ∈ ch.timeline.contexts, ∀ n ∈ c.token.chain, n < ch.timeline.tokens.issued
  present : ∀ i ∈ ch.cancelled, i < ch.timeline.contexts.length
  cancelled : ∀ t, t ∈ ch.timeline.tokens.cancelled ↔
    ∃ i ∈ ch.cancelled, ∃ c, ch.timeline.contexts[i]? = some c ∧ c.token = t

theorem isTrue_nil : IsTrue {} := by
  constructor
  case idle => exact ⟨rfl, rfl⟩
  case length => rfl
  case descends =>
    intro j o c ho
    cases ho
  case issued =>
    intro c hmem
    cases hmem
  case present =>
    intro i hmem
    cases hmem
  case cancelled =>
    intro t
    refine iff_of_false (List.not_mem_nil) ?_
    rintro ⟨i, hi, _⟩
    cases hi

variable {ch : Chronicle}

theorem IsTrue.isFresh_issued (h : ch.IsTrue) :
    IsFresh ch.timeline.contexts ch.timeline.contexts.length ch.timeline.tokens.issued := by
  intro i c _ hc hmem
  exact Nat.lt_irrefl _ (h.issued c (List.mem_of_getElem? hc) _ hmem)

/-- A context is added with what it owes to its origin. -/
theorem IsTrue.add (h : ch.IsTrue) {c : Context} {o : Origin} {tokens : Tokens}
    (hdescends : Descends ch.timeline.contexts ch.timeline.contexts.length c o)
    (hissued : ch.timeline.tokens.issued <= tokens.issued)
    (hcancelled : tokens.cancelled = ch.timeline.tokens.cancelled)
    (hchain : ∀ n ∈ c.token.chain, n < tokens.issued) :
    IsTrue { ch with
      timeline := { ch.timeline with tokens := tokens }.add c
      origins := ch.origins ++ [o] } := by
  constructor
  case idle => exact ⟨h.idle.queue, h.idle.due⟩
  case length =>
    show (ch.origins ++ [o]).length = (ch.timeline.contexts ++ [c]).length
    rw [List.length_append, List.length_append, h.length]
    rfl
  case descends =>
    intro j o' c' ho hc
    have hc' : (ch.timeline.contexts ++ [c])[j]? = some c' := hc
    show Descends (ch.timeline.contexts ++ [c]) j c' o'
    rcases Nat.lt_or_ge j ch.timeline.contexts.length with hlt | hge
    · rw [List.getElem?_append_left hlt] at hc'
      rw [List.getElem?_append_left (h.length ▸ hlt)] at ho
      exact (h.descends j o' c' ho hc').append (Nat.le_of_lt hlt)
    · have hlast : j = ch.timeline.contexts.length := by
        have hbound := (List.getElem?_eq_some_iff.mp hc').1
        rw [List.length_append, List.length_singleton] at hbound
        exact Nat.le_antisymm (Nat.le_of_lt_succ hbound) hge
      subst hlast
      rw [List.getElem?_concat_length] at hc'
      rw [← h.length, List.getElem?_concat_length] at ho
      cases hc'
      cases ho
      exact hdescends.append (Nat.le_refl _)
  case issued =>
    intro c' hmem n hn
    rcases List.mem_append.mp hmem with hold | hnew
    · exact Nat.lt_of_lt_of_le (h.issued c' hold n hn) hissued
    · rw [List.mem_singleton.mp hnew] at hn
      exact hchain n hn
  case present =>
    intro i hmem
    show i < (ch.timeline.contexts ++ [c]).length
    rw [List.length_append]
    exact Nat.lt_add_right _ (h.present i hmem)
  case cancelled =>
    intro t
    show t ∈ tokens.cancelled ↔
      ∃ i ∈ ch.cancelled, ∃ c', (ch.timeline.contexts ++ [c])[i]? = some c' ∧ c'.token = t
    rw [hcancelled, h.cancelled]
    refine exists_congr fun i => and_congr_right fun hmem => ?_
    rw [List.getElem?_append_left (h.present i hmem)]

theorem IsTrue.cancel (h : ch.IsTrue) {target : Nat} {c : Context}
    (hc : ch.timeline.contexts[target]? = some c) :
    IsTrue { ch with
      timeline := ch.timeline.cancel c
      cancelled := ch.cancelled ++ [target] } := by
  constructor
  case idle => exact ⟨h.idle.queue, h.idle.due⟩
  case length => exact h.length
  case descends => exact h.descends
  case issued => exact h.issued
  case present =>
    intro i hmem
    rcases List.mem_append.mp hmem with hold | hnew
    · exact h.present i hold
    · rw [List.mem_singleton.mp hnew]
      exact (List.getElem?_eq_some_iff.mp hc).1
  case cancelled =>
    intro t
    show t ∈ ch.timeline.tokens.cancelled ++ [c.token] ↔
      ∃ i ∈ ch.cancelled ++ [target], ∃ c', ch.timeline.contexts[i]? = some c' ∧ c'.token = t
    rw [List.mem_append, List.mem_singleton, h.cancelled]
    constructor
    · rintro (⟨i, hmem, hi⟩ | rfl)
      · exact ⟨i, List.mem_append_left _ hmem, hi⟩
      · exact ⟨target, List.mem_append_right _ (List.mem_singleton_self _), c, hc, rfl⟩
    · rintro ⟨i, hmem, c', hc', rfl⟩
      rcases List.mem_append.mp hmem with hold | hnew
      · exact .inl ⟨i, hold, c', hc', rfl⟩
      · rw [List.mem_singleton.mp hnew, hc] at hc'
        cases hc'
        exact .inr rfl

theorem IsTrue.later (h : ch.IsTrue) {tl : Timeline} (hlater : ch.timeline.OnlyLater tl) :
    IsTrue { ch with timeline := tl } := by
  constructor
  case idle => exact hlater.idle
  case length => exact h.length.trans (congrArg List.length hlater.contexts.symm)
  case descends =>
    intro j o c ho hc
    have hcontexts : tl.contexts = ch.timeline.contexts := hlater.contexts
    have hc' : tl.contexts[j]? = some c := hc
    show Descends tl.contexts j c o
    rw [hcontexts] at hc' ⊢
    exact h.descends j o c ho hc'
  case issued =>
    show ∀ c ∈ tl.contexts, ∀ n ∈ c.token.chain, n < tl.tokens.issued
    rw [hlater.contexts, hlater.tokens]
    exact h.issued
  case present =>
    show ∀ i ∈ ch.cancelled, i < tl.contexts.length
    rw [hlater.contexts]
    exact h.present
  case cancelled =>
    show ∀ t, t ∈ tl.tokens.cancelled ↔
      ∃ i ∈ ch.cancelled, ∃ c, tl.contexts[i]? = some c ∧ c.token = t
    rw [hlater.contexts, hlater.tokens]
    exact h.cancelled

theorem IsTrue.root (h : ch.IsTrue) :
    IsTrue { ch with
      timeline := ch.timeline.addRoot
      origins := ch.origins ++ [.root] } := by
  refine h.add (.root rfl h.isFresh_issued rfl rfl) (Nat.le_succ _) rfl ?_
  intro n hn
  rw [List.mem_singleton.mp hn]
  exact Nat.lt_succ_self _

/-- A derivation of a context adds what descends from it. -/
theorem IsTrue.derive (h : ch.IsTrue) {source : Nat} {c : Context}
    (hc : ch.timeline.contexts[source]? = some c) (how : Derivation) :
    IsTrue { ch with
      timeline := ch.timeline.derive c how
      origins := ch.origins ++ [.derived source how ch.timeline.now] } := by
  have hlt := (List.getElem?_eq_some_iff.mp hc).1
  have hissued := h.issued c (List.mem_of_getElem? hc)
  have hcopy (hshared : how ≠ .child) : Descends ch.timeline.contexts ch.timeline.contexts.length
      (how.applied ch.timeline.now c) (.derived source how ch.timeline.now) :=
    .copy hlt hc hshared rfl
  have hknown : ∀ n ∈ (how.applied ch.timeline.now c).token.chain,
      n < ch.timeline.tokens.issued := by
    rw [how.token_applied]
    exact hissued
  cases how with
  | clone => exact h.add (hcopy nofun) (Nat.le_refl _) rfl hknown
  | tenant name => exact h.add (hcopy nofun) (Nat.le_refl _) rfl hknown
  | timeout duration => exact h.add (hcopy nofun) (Nat.le_refl _) rfl hknown
  | child =>
      refine h.add (.child hlt hc rfl h.isFresh_issued rfl) (Nat.le_succ _) rfl ?_
      intro n hn
      rcases List.mem_cons.mp hn with rfl | hinherited
      · exact Nat.lt_succ_self _
      · exact Nat.lt_succ_of_lt (hissued n hinherited)

theorem IsTrue.take (h : ch.IsTrue) (st : Step) : (ch.take st).IsTrue := by
  cases st with
  | root =>
      simpa [Chronicle.take, Timeline.take, Timeline.origin?, Timeline.target?] using h.root
  | derive source how =>
      cases hc : ch.timeline.contexts[source]? with
      | none =>
          have hmissing : ch.timeline.origin? (.derive source how) = none :=
            if_neg (Nat.not_lt_of_le (List.getElem?_eq_none_iff.mp hc))
          simpa [Chronicle.take, Timeline.take, Timeline.target?, hmissing, hc] using h
      | some c =>
          have horigin : ch.timeline.origin? (.derive source how) =
              some (.derived source how ch.timeline.now) :=
            if_pos (List.getElem?_eq_some_iff.mp hc).1
          simpa [Chronicle.take, Timeline.take, Timeline.target?, horigin, hc] using h.derive hc how
  | cancel target =>
      cases hc : ch.timeline.contexts[target]? with
      | none =>
          have hmissing : ch.timeline.target? (.cancel target) = none :=
            if_neg (Nat.not_lt_of_le (List.getElem?_eq_none_iff.mp hc))
          simpa [Chronicle.take, Timeline.take, Timeline.origin?, hmissing, hc] using h
      | some c =>
          have htarget : ch.timeline.target? (.cancel target) = some target :=
            if_pos (List.getElem?_eq_some_iff.mp hc).1
          simpa [Chronicle.take, Timeline.take, Timeline.origin?, htarget, hc] using h.cancel hc
  | advance duration =>
      have hlater := h.later (h.idle.onlyLater_advance duration)
      simpa [Chronicle.take, Timeline.take, Timeline.origin?, Timeline.target?] using hlater

theorem IsTrue.after (h : ch.IsTrue) (steps : List Step) : (ch.after steps).IsTrue := by
  induction steps generalizing ch with
  | nil => exact h
  | cons st rest ih => exact ih (h.take st)

theorem isTrue_ofSteps (steps : List Step) : (ofSteps steps).IsTrue :=
  isTrue_nil.after steps

/-!
## Who shares a cancellation
-/

theorem IsTrue.exists_origin (h : ch.IsTrue) {j : Nat} {c : Context}
    (hc : ch.timeline.contexts[j]? = some c) :
    ∃ o, ch.origins[j]? = some o ∧ Descends ch.timeline.contexts j c o := by
  have hlt : j < ch.origins.length := by
    rw [h.length]
    exact (List.getElem?_eq_some_iff.mp hc).1
  have ho := List.getElem?_eq_getElem hlt
  exact ⟨ch.origins[j], ho, h.descends j _ c ho hc⟩

theorem IsTrue.exists_context (h : ch.IsTrue) {j : Nat} {o : Origin}
    (ho : ch.origins[j]? = some o) :
    ∃ c, ch.timeline.contexts[j]? = some c ∧ Descends ch.timeline.contexts j c o := by
  have hlt : j < ch.timeline.contexts.length := by
    rw [← h.length]
    exact (List.getElem?_eq_some_iff.mp ho).1
  have hc := List.getElem?_eq_getElem hlt
  exact ⟨ch.timeline.contexts[j], hc, h.descends j o _ ho hc⟩

/-- Whatever is derived is its source, changed as the derivation says, but for the
token. -/
theorem IsTrue.exists_source (h : ch.IsTrue) {source j : Nat} {how : Derivation} {instant : Millis}
    (ho : ch.origins[j]? = some (.derived source how instant)) :
    ∃ s c, ch.timeline.contexts[source]? = some s ∧ ch.timeline.contexts[j]? = some c ∧
      source < j ∧ c = { how.applied instant s with token := c.token } := by
  obtain ⟨c, hc, hdescends⟩ := h.exists_context ho
  cases hdescends with
  | child hlt hsource _ _ hsame => exact ⟨_, c, hsource, hc, hlt, hsame⟩
  | copy hlt hsource _ happlied => exact ⟨_, c, hsource, hc, hlt, by rw [← happlied]⟩

theorem IsTrue.exists_child (h : ch.IsTrue) {parent child : Nat} {instant : Millis}
    (ho : ch.origins[child]? = some (.derived parent .child instant)) :
    ∃ p c number, ch.timeline.contexts[parent]? = some p ∧ ch.timeline.contexts[child]? = some c ∧
      parent < child ∧ c.token.chain = number :: p.token.chain ∧
      IsFresh ch.timeline.contexts child number := by
  obtain ⟨c, hc, hdescends⟩ := h.exists_context ho
  cases hdescends with
  | copy _ _ hshared => exact absurd rfl hshared
  | child hlt hparent hchain hfresh => exact ⟨_, c, _, hparent, hc, hlt, hchain, hfresh⟩

theorem IsTrue.exists_copy (h : ch.IsTrue) {source copy : Nat} {how : Derivation}
    {instant : Millis} (ho : ch.origins[copy]? = some (.derived source how instant))
    (hshared : how ≠ .child) :
    ∃ s c, ch.timeline.contexts[source]? = some s ∧ ch.timeline.contexts[copy]? = some c ∧
      c.token = s.token := by
  obtain ⟨c, hc, hdescends⟩ := h.exists_context ho
  cases hdescends with
  | child => exact absurd rfl hshared
  | copy _ hsource _ happlied =>
      refine ⟨_, c, hsource, hc, ?_⟩
      rw [happlied, how.token_applied]

theorem IsTrue.chain_ne_nil (h : ch.IsTrue) {j : Nat} {c : Context}
    (hc : ch.timeline.contexts[j]? = some c) : c.token.chain ≠ [] := by
  induction j using Nat.strongRecOn generalizing c with
  | ind j ih =>
      obtain ⟨o, -, hdescends⟩ := h.exists_origin hc
      cases hdescends with
      | root hchain => simp [hchain]
      | child _ _ hchain => simp [hchain]
      | copy hlt hsource _ happlied =>
          rw [happlied, Derivation.token_applied]
          exact ih _ hlt hsource

/-- A number that is fresh at a context is in the chains under it only. -/
theorem IsFresh.not_isUnder {contexts : List Context} {i j number : Nat} {a c : Context}
    (h : IsFresh contexts i number) (hlt : j < i) (hc : contexts[j]? = some c)
    (hnumber : number ∈ a.token.chain) : ¬ c.token.isUnder a.token = true := by
  intro hunder
  exact h j c hlt hc ((List.isSuffixOf_iff_suffix.mp hunder).subset hnumber)

/-- Every edge goes from a token to itself or to a child of it. -/
theorem IsTrue.isUnder_of_passes (h : ch.IsTrue) {i j : Nat} (hpasses : ch.Passes i j) {c : Context}
    (hc : ch.timeline.contexts[j]? = some c) :
    ∃ a, ch.timeline.contexts[i]? = some a ∧ c.token.isUnder a.token = true := by
  cases hpasses with
  | toChild ho =>
      obtain ⟨p, c', number, hp, hc', -, hchain, -⟩ := h.exists_child ho
      cases hc.symm.trans hc'
      refine ⟨p, hp, List.isSuffixOf_iff_suffix.mpr ?_⟩
      rw [hchain]
      exact List.suffix_cons _ _
  | toCopy ho hshared =>
      obtain ⟨s, c', hs, hc', htoken⟩ := h.exists_copy ho hshared
      cases hc.symm.trans hc'
      exact ⟨s, hs, htoken ▸ Token.isUnder_self _⟩
  | toSource ho hshared =>
      obtain ⟨c', a, hc', ha, htoken⟩ := h.exists_copy ho hshared
      cases hc.symm.trans hc'
      exact ⟨a, ha, htoken ▸ Token.isUnder_self _⟩

theorem IsTrue.isUnder_of_reaches (h : ch.IsTrue) {i j : Nat} (hreaches : ch.Reaches i j)
    {c : Context} (hc : ch.timeline.contexts[j]? = some c) :
    ∃ a, ch.timeline.contexts[i]? = some a ∧ c.token.isUnder a.token = true := by
  induction hreaches generalizing c with
  | refl => exact ⟨c, hc, Token.isUnder_self _⟩
  | tail _ hlast ih =>
      obtain ⟨b, hb, hcb⟩ := h.isUnder_of_passes hlast hc
      obtain ⟨a, ha, hba⟩ := ih hb
      exact ⟨a, ha, Token.isUnder_trans hcb hba⟩

/-- Whichever of the two contexts came later tells where to go back to. -/
theorem IsTrue.reaches_of_isUnder (h : ch.IsTrue) {i j : Nat} {a c : Context}
    (ha : ch.timeline.contexts[i]? = some a) (hc : ch.timeline.contexts[j]? = some c)
    (hunder : c.token.isUnder a.token = true) : ch.Reaches i j := by
  induction hsum : i + j using Nat.strongRecOn generalizing i j a c with
  | ind n ih =>
      subst hsum
      rcases Nat.lt_trichotomy i j with hlt | rfl | hgt
      · obtain ⟨o, ho, hdescends⟩ := h.exists_origin hc
        have hsuffix := List.isSuffixOf_iff_suffix.mp hunder
        cases hdescends with
        | root hchain hfresh =>
            rw [hchain, List.suffix_cons_iff, List.suffix_nil] at hsuffix
            rcases hsuffix with hsame | hnil
            · exact absurd (by simp [hsame]) (hfresh i a hlt ha)
            · exact absurd hnil (h.chain_ne_nil ha)
        | child _ hparent hchain hfresh =>
            rw [hchain, List.suffix_cons_iff] at hsuffix
            rcases hsuffix with hsame | hsuffix
            · exact absurd (by simp [hsame]) (hfresh i a hlt ha)
            · have hparent_under := List.isSuffixOf_iff_suffix.mpr hsuffix
              exact (ih _ (by omega) ha hparent hparent_under rfl).tail (.toChild ho)
        | copy hsource_lt hsource hshared happlied =>
            rw [happlied, Derivation.token_applied] at hunder
            exact (ih _ (by omega) ha hsource hunder rfl).tail (.toCopy ho hshared)
      · exact .refl
      · obtain ⟨o, ho, hdescends⟩ := h.exists_origin ha
        cases hdescends with
        | root hchain hfresh =>
            exact absurd hunder (IsFresh.not_isUnder hfresh hgt hc (by simp [hchain]))
        | child _ _ hchain hfresh =>
            exact absurd hunder (IsFresh.not_isUnder hfresh hgt hc (by simp [hchain]))
        | copy hsource_lt hsource hshared happlied =>
            rw [happlied, Derivation.token_applied] at hunder
            exact (ih _ (by omega) hsource hc hunder rfl).head (.toSource ho hshared)

theorem IsTrue.isUnder_iff_reaches (h : ch.IsTrue) {i j : Nat} {a c : Context}
    (ha : ch.timeline.contexts[i]? = some a) (hc : ch.timeline.contexts[j]? = some c) :
    c.token.isUnder a.token = true ↔ ch.Reaches i j := by
  refine ⟨h.reaches_of_isUnder ha hc, fun hreaches => ?_⟩
  obtain ⟨a', ha', hunder⟩ := h.isUnder_of_reaches hreaches hc
  rw [ha] at ha'
  cases ha'
  exact hunder

theorem IsTrue.isCancelled_iff (h : ch.IsTrue) {j : Nat} {c : Context}
    (hc : ch.timeline.contexts[j]? = some c) :
    ch.timeline.isCancelled c = true ↔ ∃ i ∈ ch.cancelled, ch.Reaches i j := by
  rw [Timeline.isCancelled, Tokens.isCancelled, List.any_eq_true]
  constructor
  · rintro ⟨t, hmem, hunder⟩
    obtain ⟨i, hi, a, ha, rfl⟩ := (h.cancelled t).mp hmem
    exact ⟨i, hi, h.reaches_of_isUnder ha hc hunder⟩
  · rintro ⟨i, hi, hreaches⟩
    obtain ⟨a, ha, hunder⟩ := h.isUnder_of_reaches hreaches hc
    exact ⟨a.token, (h.cancelled _).mpr ⟨i, hi, a, ha, rfl⟩, hunder⟩

/-- A child does not reach its parent. -/
theorem IsTrue.not_reaches_parent (h : ch.IsTrue) {parent child : Nat} {instant : Millis}
    (ho : ch.origins[child]? = some (.derived parent .child instant)) :
    ¬ ch.Reaches child parent := by
  obtain ⟨p, c, number, hp, hc, hlt, hchain, hfresh⟩ := h.exists_child ho
  rw [← h.isUnder_iff_reaches hc hp]
  exact IsFresh.not_isUnder hfresh hlt hp (by simp [hchain])

/-- Nor does it reach another child of its parent, or of one that reaches its
parent. -/
theorem IsTrue.not_reaches_sibling (h : ch.IsTrue) {parent parent' child sibling : Nat}
    {instant instant' : Millis} (hparents : ch.Reaches parent' parent) (hne : child ≠ sibling)
    (ho : ch.origins[child]? = some (.derived parent .child instant))
    (ho' : ch.origins[sibling]? = some (.derived parent' .child instant')) :
    ¬ ch.Reaches child sibling := by
  obtain ⟨p, c, number, -, hc, -, hchain, hfresh⟩ := h.exists_child ho
  obtain ⟨p', c', number', hp', hc', -, hchain', hfresh'⟩ := h.exists_child ho'
  rw [← h.isUnder_iff_reaches hc hc']
  intro hunder
  have hsuffix := List.isSuffixOf_iff_suffix.mp hunder
  rw [hchain', List.suffix_cons_iff] at hsuffix
  rcases hsuffix with hsame | hsuffix
  · -- They would have one number, which is fresh at the later one.
    rcases Nat.lt_or_gt_of_ne hne with hlt | hgt
    · exact hfresh' child c hlt hc (by simp [hsame])
    · exact IsFresh.not_isUnder hfresh hgt hc' (by simp [hchain]) hunder
  · have hreaches := h.reaches_of_isUnder hc hp' (List.isSuffixOf_iff_suffix.mpr hsuffix)
    exact h.not_reaches_parent ho (hreaches.trans hparents)

/-!
## The way from the root
-/

theorem Way.unique {root root' j : Nat} {way way' : List (Derivation × Millis)}
    (hway : ch.Way root j way) (hway' : ch.Way root' j way') : root = root' ∧ way = way' := by
  induction hway generalizing way' with
  | here h =>
      cases hway' with
      | here => exact ⟨rfl, rfl⟩
      | further _ h' => rw [h] at h'; cases h'
  | further _ h ih =>
      cases hway' with
      | here h' => rw [h] at h'; cases h'
      | further hrest h' =>
          rw [h] at h'
          cases h'
          obtain ⟨rfl, rfl⟩ := ih hrest
          exact ⟨rfl, rfl⟩

theorem IsTrue.exists_way (h : ch.IsTrue) {j : Nat} {c : Context}
    (hc : ch.timeline.contexts[j]? = some c) : ∃ root way, ch.Way root j way := by
  induction j using Nat.strongRecOn generalizing c with
  | ind j ih =>
      obtain ⟨o, ho, -⟩ := h.exists_origin hc
      cases o with
      | root => exact ⟨j, [], .here ho⟩
      | derived source how instant =>
          obtain ⟨s, _, hs, -, hlt, -⟩ := h.exists_source ho
          obtain ⟨root, way, hway⟩ := ih source hlt hs
          exact ⟨root, _, hway.further ho⟩

theorem min?_concat (ds : List Millis) (d : Millis) :
    (ds ++ [d]).min? = some ((ds.min?.map (min · d)).getD d) := by
  cases ds with
  | nil => rfl
  | cons e rest =>
      rw [List.cons_append, List.min?_cons', List.min?_cons', List.foldl_append]
      rfl

/-- What the way from the root tells about a context. -/
structure Tells (way : List (Derivation × Millis)) (root c : Context) : Prop where
  traceId : c.traceId = root.traceId
  tenant : c.tenant = (way.filterMap fun (how, _) => how.tenant?).getLast?
  deadline : c.deadline = (way.filterMap fun (how, instant) => how.limit? instant).min?

/-- One step further on the way. -/
theorem Tells.further {way : List (Derivation × Millis)} {root s : Context} (h : Tells way root s)
    (how : Derivation) (instant : Millis) :
    Tells (way ++ [(how, instant)]) root (how.applied instant s) := by
  constructor
  case traceId => rw [how.traceId_applied, h.traceId]
  case tenant =>
    rw [how.tenant_applied, h.tenant, List.filterMap_append]
    cases htenant : how.tenant? <;> simp [htenant]
  case deadline =>
    rw [how.deadline_applied, h.deadline, List.filterMap_append]
    cases hlimit : how.limit? instant with
    | none => simp [hlimit]
    | some d => simp [hlimit, min?_concat]

theorem IsTrue.tells (h : ch.IsTrue) {root j : Nat} {way : List (Derivation × Millis)}
    (hway : ch.Way root j way) {c : Context} (hc : ch.timeline.contexts[j]? = some c) :
    ∃ r, ch.timeline.contexts[root]? = some r ∧ Tells way r c := by
  induction hway generalizing c with
  | here ho =>
      cases h.descends _ _ _ ho hc with
      | root _ _ htenant hdeadline => exact ⟨c, hc, rfl, htenant, hdeadline⟩
  | @further _ _ _ how instant _ ho ih =>
      obtain ⟨s, c', hs, hc', -, hsame⟩ := h.exists_source ho
      cases hc.symm.trans hc'
      obtain ⟨r, hr, htells⟩ := ih hs
      have htold := htells.further how instant
      rw [hsame]
      exact ⟨r, hr, htold.traceId, htold.tenant, htold.deadline⟩

/-!
## What becomes of contexts
-/

theorem timeline_after (ch : Chronicle) (steps : List Step) :
    (ch.after steps).timeline = steps.foldl Timeline.take ch.timeline := by
  induction steps generalizing ch with
  | nil => rfl
  | cons st rest ih => exact ih (ch.take st)

/-- Whatever happens next, a context stays as it is, and cancelled if it was. -/
theorem IsTrue.kept_after (h : ch.IsTrue) (more : List Step) {j : Nat} {c : Context}
    (hc : ch.timeline.contexts[j]? = some c) :
    (ch.after more).timeline.contexts[j]? = some c ∧
      (ch.timeline.isCancelled c = true -> (ch.after more).timeline.isCancelled c = true) := by
  induction more generalizing ch with
  | nil => exact ⟨hc, id⟩
  | cons st rest ih =>
      have hgrows := h.idle.grows_take st
      obtain ⟨hstays, hcancelled⟩ := ih (h.take st) (hgrows.getElem?_contexts hc)
      exact ⟨hstays, fun hbefore => hcancelled (hgrows.isCancelled hbefore)⟩

/-- A cancellation goes where its token reaches and changes nothing elsewhere. -/
theorem IsTrue.isCancelled_take_cancel (h : ch.IsTrue) {target j : Nat} {a c : Context}
    (ha : ch.timeline.contexts[target]? = some a) (hc : ch.timeline.contexts[j]? = some c) :
    (ch.take (.cancel target)).timeline.isCancelled c = true ↔
      ch.timeline.isCancelled c = true ∨ ch.Reaches target j := by
  have htimeline : (ch.take (.cancel target)).timeline = ch.timeline.cancel a := by
    simp [Chronicle.take, Timeline.take, ha]
  rw [htimeline, ← h.isUnder_iff_reaches ha hc, ← Bool.or_eq_true]
  exact Bool.eq_iff_iff.mp (Tokens.isCancelled_cancel _ _ _)

/-- What is derived ends no later than its source. -/
theorem IsTrue.deadline_le (h : ch.IsTrue) {source j : Nat} {how : Derivation} {instant : Millis}
    (ho : ch.origins[j]? = some (.derived source how instant)) :
    ∃ s c, ch.timeline.contexts[source]? = some s ∧ ch.timeline.contexts[j]? = some c ∧
      ∀ d, s.deadline = some d -> ∃ d', c.deadline = some d' ∧ d' <= d := by
  obtain ⟨s, c, hs, hc, -, hsame⟩ := h.exists_source ho
  refine ⟨s, c, hs, hc, fun d hd => ?_⟩
  have hdeadline : c.deadline = (how.applied instant s).deadline := by rw [hsame]
  rw [hdeadline, how.deadline_applied, hd]
  cases how.limit? instant with
  | none => exact ⟨d, rfl, Nat.le_refl d⟩
  | some limit => exact ⟨min d limit, rfl, Nat.min_le_left d limit⟩

/-- A derived context is reached from its source. -/
theorem reaches_of_derived {source j : Nat} {how : Derivation} {instant : Millis}
    (ho : ch.origins[j]? = some (.derived source how instant)) : ch.Reaches source j := by
  by_cases hchild : how = .child
  · subst hchild
    exact .single (.toChild ho)
  · exact .single (.toCopy ho hchild)

theorem IsTrue.isCancelled_child (h : ch.IsTrue) {parent child : Nat} {instant : Millis}
    (ho : ch.origins[child]? = some (.derived parent .child instant)) :
    ∃ p c, ch.timeline.contexts[parent]? = some p ∧ ch.timeline.contexts[child]? = some c ∧
      (ch.timeline.isCancelled c = true ↔
        c.token ∈ ch.timeline.tokens.cancelled ∨ ch.timeline.isCancelled p = true) := by
  obtain ⟨p, ⟨traceId, tenant, ⟨chain⟩, deadline⟩, number, hp, hc, -, hchain, -⟩ :=
    h.exists_child ho
  cases hchain
  exact ⟨p, _, hp, hc, Tokens.isCancelled_child _ _ _⟩

theorem IsTrue.isCancelled_of_reaches (h : ch.IsTrue) {i j : Nat} {a c : Context}
    (ha : ch.timeline.contexts[i]? = some a) (hc : ch.timeline.contexts[j]? = some c)
    (hreaches : ch.Reaches i j) (hcancelled : ch.timeline.isCancelled a = true) :
    ch.timeline.isCancelled c = true := by
  obtain ⟨k, hk, hreached⟩ := (h.isCancelled_iff ha).mp hcancelled
  exact (h.isCancelled_iff hc).mpr ⟨k, hk, hreached.trans hreaches⟩

/-- What the origins and the cancellations tell about the contexts. -/
structure Explains (ch : Chronicle) : Prop where
  origins : ch.origins.length = ch.timeline.contexts.length
  cancelled : ∀ (j : Nat) (c : Context), ch.timeline.contexts[j]? = some c ->
    (ch.timeline.isCancelled c = true ↔ ∃ i ∈ ch.cancelled, ch.Reaches i j)
  /-- There is one way to every context. -/
  way : ∀ (j : Nat) (c : Context), ch.timeline.contexts[j]? = some c ->
    ∃ root way r, ch.Way root j way ∧
      (∀ root' way', ch.Way root' j way' -> root' = root ∧ way' = way) ∧
      ch.timeline.contexts[root]? = some r ∧ Tells way r c
  derived : ∀ (source j : Nat) (how : Derivation) (instant : Millis),
    ch.origins[j]? = some (.derived source how instant) ->
    ∃ s c, ch.timeline.contexts[source]? = some s ∧ ch.timeline.contexts[j]? = some c ∧
      (ch.timeline.isCancelled s = true -> ch.timeline.isCancelled c = true) ∧
      ∀ d, s.deadline = some d -> ∃ d', c.deadline = some d' ∧ d' <= d
  child : ∀ (parent child : Nat) (instant : Millis),
    ch.origins[child]? = some (.derived parent .child instant) ->
    ∃ p c, ch.timeline.contexts[parent]? = some p ∧ ch.timeline.contexts[child]? = some c ∧
      (ch.timeline.isCancelled c = true ↔
        c.token ∈ ch.timeline.tokens.cancelled ∨ ch.timeline.isCancelled p = true)
  /-- A child reaches neither its parent nor what the parent can be reached from. -/
  parent : ∀ (parent child : Nat) (instant : Millis),
    ch.origins[child]? = some (.derived parent .child instant) ->
    ∀ i, ch.Reaches i parent -> ¬ ch.Reaches child i
  /-- Parents may be copies of one another. -/
  sibling : ∀ (parent parent' child sibling : Nat) (instant instant' : Millis),
    ch.origins[child]? = some (.derived parent .child instant) ->
    ch.origins[sibling]? = some (.derived parent' .child instant') ->
    ch.Reaches parent' parent -> child ≠ sibling -> ¬ ch.Reaches child sibling
  /-- A cancellation that does not reach a context leaves it alone. -/
  apart : ∀ (target j : Nat) (a c : Context), ch.timeline.contexts[target]? = some a ->
    ch.timeline.contexts[j]? = some c ->
    ((ch.take (.cancel target)).timeline.isCancelled c = true ↔
      ch.timeline.isCancelled c = true ∨ ch.Reaches target j)
  kept : ∀ (more : List Step) (j : Nat) (c : Context), ch.timeline.contexts[j]? = some c ->
    (ch.after more).timeline.contexts[j]? = some c ∧
      (ch.timeline.isCancelled c = true -> (ch.after more).timeline.isCancelled c = true)

theorem IsTrue.explains (h : ch.IsTrue) : ch.Explains := by
  constructor
  case origins => exact h.length
  case cancelled =>
    intro j c hc
    exact h.isCancelled_iff hc
  case way =>
    intro j c hc
    obtain ⟨root, way, hway⟩ := h.exists_way hc
    obtain ⟨r, hr, htells⟩ := h.tells hway hc
    exact ⟨root, way, r, hway, fun _ _ hway' => hway'.unique hway, hr, htells⟩
  case derived =>
    intro source j how instant ho
    obtain ⟨s, c, hs, hc, hdeadline⟩ := h.deadline_le ho
    exact ⟨s, c, hs, hc, h.isCancelled_of_reaches hs hc (reaches_of_derived ho), hdeadline⟩
  case child =>
    intro parent child instant ho
    exact h.isCancelled_child ho
  case parent =>
    intro parent child instant ho i hi hreached
    exact h.not_reaches_parent ho (hreached.trans hi)
  case sibling =>
    intro parent parent' child sibling instant instant' ho ho' hparents hne
    exact h.not_reaches_sibling hparents hne ho ho'
  case apart =>
    intro target j a c ha hc
    exact h.isCancelled_take_cancel ha hc
  case kept =>
    intro more j c hc
    exact h.kept_after more hc

/-- Whatever has been made, derived and cancelled, in whatever order: where the
contexts come from and which of them have been cancelled themselves tells which
are cancelled, and the rest of each as well. -/
theorem origins_explain_contexts (steps : List Step) :
    (ofSteps steps).timeline = steps.foldl Timeline.take {} ∧ (ofSteps steps).Explains :=
  ⟨timeline_after {} steps, (isTrue_ofSteps steps).explains⟩

/-- A child of a copy is cancelled with the root, and a later limit does not move its
deadline. -/
example :
    let ch := ofSteps [.root, .derive 0 (.timeout 20), .advance 5, .derive 1 .child,
      .derive 2 (.timeout 30), .cancel 0]
    ch.cancelled = [0] ∧
      ch.timeline.contexts.map ch.timeline.isCancelled = [true, true, true, true] ∧
      ch.timeline.contexts.map Context.deadline = [none, some 20, some 20, some 20] := by
  decide

end Chronicle
end WriteLatch
