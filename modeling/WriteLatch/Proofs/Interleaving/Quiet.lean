import WriteLatch.Proofs.Interleaving.History
import WriteLatch.Simulation.Run

/-!
# Quiet changes

Most of what happens in a scene touches neither a lock nor an entity in the
cache.  Time passes, contexts are derived and end, the store is called,
something is noted in the journal, and at most what has expired is dropped from
the cache.  A context that is over stays over, and so are those derived from it.
-/

namespace WriteLatch

/-!
## Contexts within others
-/

namespace Context

/-- Ends with the other context at the latest. -/
structure Within (c parent : Context) : Prop where
  token : c.token.isUnder parent.token = true
  deadline : ∀ d, parent.deadline = some d -> ∃ d', c.deadline = some d' ∧ d' <= d

theorem within_child (parent : Context) (ts : Tokens) : (parent.child ts).1.Within parent := by
  constructor
  · simp [child, Tokens.child, Token.isUnder]
  · intro d hd
    exact ⟨d, hd, Nat.le_refl d⟩

theorem Within.withTimeout {c parent : Context} (h : c.Within parent) (now timeout : Millis) :
    (c.withTimeout now timeout).Within parent := by
  constructor
  · rw [token_withTimeout]
    exact h.token
  · intro d hd
    rcases h.deadline d hd with ⟨d', hd', hle⟩
    refine ⟨min d' (now + timeout), ?_, Nat.le_trans (Nat.min_le_left _ _) hle⟩
    rw [Context.withTimeout, hd']

def isOver (c : Context) (ts : Tokens) (now : Millis) : Bool :=
  (c.interruption? ts now).isSome

theorem isOver_eq (c : Context) (ts : Tokens) (now : Millis) :
    c.isOver ts now = (ts.isCancelled c.token || c.isLate now) := by
  unfold isOver interruption?
  cases ts.isCancelled c.token <;> cases c.isLate now <;> rfl

theorem Within.isOver {c parent : Context} {ts : Tokens} {now : Millis} (h : c.Within parent)
    (hover : parent.isOver ts now = true) : c.isOver ts now = true := by
  rw [isOver_eq, Bool.or_eq_true] at hover ⊢
  rcases hover with hcancelled | hlate
  · left
    rw [Tokens.isCancelled, List.any_eq_true] at hcancelled ⊢
    rcases hcancelled with ⟨t, hmem, hunder⟩
    exact ⟨t, hmem, Token.isUnder_trans h.token hunder⟩
  · right
    unfold isLate at hlate ⊢
    cases hparent : parent.deadline with
    | none =>
        rw [hparent] at hlate
        cases hlate
    | some d =>
        rcases h.deadline d hparent with ⟨d', hd', hle⟩
        rw [hparent] at hlate
        rw [hd']
        simp only [decide_eq_true_eq] at hlate ⊢
        exact Nat.le_trans hle hlate

end Context

namespace Simulation

/-!
## Quiet changes of a scene
-/

namespace Scene

/-- Time may pass, contexts may be derived and end, anything may happen to the
store and be noted, and expired items may be dropped from the cache. -/
structure Quiet (before after : Scene) : Prop where
  now : before.now <= after.now
  cacheNow : before.cacheNow <= after.cacheNow
  cancelled : ∀ t ∈ before.tokens.cancelled, t ∈ after.tokens.cancelled
  cache : before.cache.Fades after.cacheNow after.cache
  failedReleases :
    after.journal.total .failedReleases = before.journal.total .failedReleases

theorem quiet_refl (scene : Scene) : Quiet scene scene :=
  ⟨Nat.le_refl _, Nat.le_refl _, fun _ h => h, scene.cache.fades_refl _, rfl⟩

theorem Quiet.trans {a b c : Scene} (hab : Quiet a b) (hbc : Quiet b c) : Quiet a c where
  now := Nat.le_trans hab.now hbc.now
  cacheNow := Nat.le_trans hab.cacheNow hbc.cacheNow
  cancelled := fun t h => hbc.cancelled t (hab.cancelled t h)
  cache := hab.cache.trans hbc.cache hbc.cacheNow
  failedReleases := hbc.failedReleases.trans hab.failedReleases

/-- What is left alone is the same as before. -/
theorem quiet_of_eq {before after : Scene} (hnow : after.now = before.now)
    (hcacheNow : after.cacheNow = before.cacheNow)
    (hcancelled : ∀ t ∈ before.tokens.cancelled, t ∈ after.tokens.cancelled)
    (hcache : after.cache = before.cache)
    (hcounters : after.journal.counters = before.journal.counters) : Quiet before after where
  now := Nat.le_of_eq hnow.symm
  cacheNow := Nat.le_of_eq hcacheNow.symm
  cancelled := hcancelled
  cache := by
    rw [hcache]
    exact before.cache.fades_refl _
  failedReleases := by
    rw [Journal.total, Journal.total, hcounters]

theorem quiet_call (scene : Scene) (c : CollaboratorCall) : Quiet scene (scene.call c) :=
  quiet_of_eq rfl rfl (fun _ h => h) rfl rfl

theorem quiet_event (scene : Scene) (e : Event) : Quiet scene (scene.event e) :=
  quiet_of_eq rfl rfl (fun _ h => h) rfl rfl

theorem quiet_spend (scene : Scene) (n : Nat) : Quiet scene (scene.spend n) :=
  quiet_of_eq rfl rfl (fun _ h => h) rfl rfl

theorem quiet_noteInterruption (scene : Scene) (i : Interruption) :
    Quiet scene (scene.noteInterruption i) := by
  cases i with
  | cancelled => exact quiet_refl scene
  | deadlineExceeded => exact quiet_spend scene 1

theorem quiet_deriveFrom (scene : Scene) (parent : Context) :
    Quiet scene (scene.deriveFrom parent).2 :=
  quiet_of_eq rfl rfl (fun _ h => h) rfl rfl

theorem quiet_cancel (scene : Scene) (c : Context) : Quiet scene (scene.cancel c) :=
  quiet_of_eq rfl rfl (fun _ h => List.mem_append_left _ h) rfl rfl

theorem quiet_cancelNamed (scene : Scene) (name : String) :
    Quiet scene (scene.cancelNamed name) := by
  unfold cancelNamed
  cases scene.contexts.lookup name with
  | none => exact quiet_refl scene
  | some c => exact quiet_cancel scene c

theorem quiet_lookForLock (scene : Scene) (k : Key) : Quiet scene (scene.lookForLock k).2 :=
  ⟨Nat.le_refl _, Nat.le_refl _, fun _ h => h,
    scene.cache.fades_afterRead scene.cacheNow (scene.scheme.slot k), rfl⟩

/-- Looking for locks is looking for one after the other. -/
theorem lookForLocks_induct {R : Scene -> Scene -> Prop} (hrefl : ∀ scene, R scene scene)
    (htrans : ∀ {a b c}, R a b -> R b c -> R a c)
    (hlook : ∀ scene k, R scene (scene.lookForLock k).2) (scene : Scene) (keys : List Key) :
    R scene (scene.lookForLocks keys).2 := by
  induction keys generalizing scene with
  | nil => exact hrefl scene
  | cons k keys ih => exact htrans (hlook scene k) (ih (scene.lookForLock k).2)

/-- What a look for one lock leaves alone, looking for locks leaves alone. -/
theorem eq_of_lookForLocks {α : Type} {f : Scene -> α}
    (hlook : ∀ scene k, f (scene.lookForLock k).2 = f scene) (scene : Scene) (keys : List Key) :
    f (scene.lookForLocks keys).2 = f scene :=
  lookForLocks_induct (R := fun a b => f b = f a) (fun _ => rfl) (fun hab hbc => hbc.trans hab)
    hlook scene keys

theorem quiet_lookForLocks (scene : Scene) (keys : List Key) :
    Quiet scene (scene.lookForLocks keys).2 :=
  lookForLocks_induct quiet_refl Quiet.trans quiet_lookForLock scene keys

/-- Serving a call does to a scene what cancellations and yields in a row do. -/
theorem serve_induct {ε : Type} {R : Scene -> Scene -> Prop} (hrefl : ∀ scene, R scene scene)
    (htrans : ∀ {a b c}, R a b -> R b c -> R a c)
    (hcancel : ∀ scene name, R scene (scene.cancelNamed name))
    (hspend : ∀ scene, R scene (scene.spend 1)) (scene : Scene) (beats : List (Beat ε)) :
    R scene (scene.serve beats).1 := by
  induction beats generalizing scene with
  | nil => exact hrefl scene
  | cons beat rest ih =>
      cases beat with
      | cancel name => exact htrans (hcancel scene name) (ih (scene.cancelNamed name))
      | pause duration =>
          unfold serve
          by_cases hspent : scene.allowance = 0
          · rw [if_pos hspent]
            exact hrefl scene
          · rw [if_neg hspent]
            by_cases hzero : duration = 0
            · rw [if_pos hzero]
              exact htrans (hspend scene) (ih (scene.spend 1))
            · rw [if_neg hzero]
              exact hrefl scene
      | crash message => exact hrefl scene
      | fail e => exact hrefl scene

/-- Serving a call leaves alone what cancellations and yields leave alone. -/
theorem eq_of_serve {ε α : Type} {f : Scene -> α}
    (hcancel : ∀ scene name, f (scene.cancelNamed name) = f scene)
    (hspend : ∀ scene : Scene, f (scene.spend 1) = f scene) (scene : Scene)
    (beats : List (Beat ε)) : f (scene.serve beats).1 = f scene :=
  serve_induct (R := fun a b => f b = f a) (fun _ => rfl) (fun hab hbc => hbc.trans hab) hcancel
    hspend scene beats

theorem quiet_serve {ε : Type} (scene : Scene) (beats : List (Beat ε)) :
    Quiet scene (scene.serve beats).1 :=
  serve_induct quiet_refl Quiet.trans quiet_cancelNamed (fun scene => scene.quiet_spend 1) scene
    beats

theorem scheme_cancelNamed (scene : Scene) (name : String) :
    (scene.cancelNamed name).scheme = scene.scheme := by
  unfold cancelNamed
  cases scene.contexts.lookup name <;> rfl

theorem scheme_serve {ε : Type} (scene : Scene) (beats : List (Beat ε)) :
    (scene.serve beats).1.scheme = scene.scheme :=
  eq_of_serve scheme_cancelNamed (fun _ => rfl) scene beats

theorem Quiet.isOver {before after : Scene} (h : Quiet before after) {c : Context}
    (hover : c.isOver before.tokens before.now = true) :
    c.isOver after.tokens after.now = true := by
  rw [Context.isOver_eq, Bool.or_eq_true] at hover ⊢
  rcases hover with hcancelled | hlate
  · left
    rw [Tokens.isCancelled, List.any_eq_true] at hcancelled ⊢
    rcases hcancelled with ⟨t, hmem, hunder⟩
    exact ⟨t, h.cancelled t hmem, hunder⟩
  · right
    unfold Context.isLate at hlate ⊢
    cases hdeadline : c.deadline with
    | none =>
        rw [hdeadline] at hlate
        cases hlate
    | some d =>
        rw [hdeadline] at hlate
        simp only [decide_eq_true_eq] at hlate ⊢
        exact Nat.le_trans hlate h.now

end Scene

end Simulation
end WriteLatch
