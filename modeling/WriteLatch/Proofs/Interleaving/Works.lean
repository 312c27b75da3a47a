import WriteLatch.Proofs.Interleaving.Moves

/-!
# What a move leaves alone

Apart from what it works on, a move only cancels contexts by their names and
derives one.  So whatever survives that, survives every move: the settings of a
scene, its clocks, its named contexts.
-/

namespace WriteLatch

/-- Neither pieces nor failed pieces are counted. -/
structure Journal.CountsNoPiece (before after : Journal) : Prop where
  pieces : after.total .pieces = before.total .pieces
  failedPieces : after.total .failedPieces = before.total .failedPieces

namespace Journal

theorem countsNoPiece_of_counters {before after : Journal}
    (h : after.counters = before.counters) : before.CountsNoPiece after := by
  constructor <;> rw [total, total, h]

theorem CountsNoPiece.trans {a b c : Journal} (hab : a.CountsNoPiece b) (hbc : b.CountsNoPiece c) :
    a.CountsNoPiece c :=
  ⟨hbc.pieces.trans hab.pieces, hbc.failedPieces.trans hab.failedPieces⟩

theorem countsNoPiece_count (j : Journal) {c : Counter} (n : Nat) (hpieces : c ≠ .pieces)
    (hfailed : c ≠ .failedPieces) : j.CountsNoPiece (j.count c n) := by
  constructor
  · rw [total_count, if_neg (Ne.symm hpieces)]
  · rw [total_count, if_neg (Ne.symm hfailed)]

end Journal

namespace Simulation

/-!
## Working in a scene
-/

namespace Scene

/-- At most the turn, the lineage, what is stored and what is noted have changed,
and no piece was counted. -/
structure Works (before after : Scene) : Prop where
  same : after = { before with
    begun := after.begun, allowance := after.allowance, lineage := after.lineage,
    cache := after.cache, store := after.store, journal := after.journal }
  journal : before.journal.CountsNoPiece after.journal

theorem works_of_counters {before after : Scene} (hsame : after = { before with
      begun := after.begun, allowance := after.allowance, lineage := after.lineage,
      cache := after.cache, store := after.store, journal := after.journal })
    (hcounters : after.journal.counters = before.journal.counters) : before.Works after :=
  ⟨hsame, Journal.countsNoPiece_of_counters hcounters⟩

theorem works_refl (scene : Scene) : scene.Works scene :=
  works_of_counters rfl rfl

theorem Works.trans {a b c : Scene} (hab : a.Works b) (hbc : b.Works c) : a.Works c := by
  refine ⟨?_, hab.journal.trans hbc.journal⟩
  rw [hbc.same, hab.same]

theorem works_count (scene : Scene) {c : Counter} (n : Nat) (hpieces : c ≠ .pieces)
    (hfailed : c ≠ .failedPieces) : scene.Works (scene.count c n) :=
  ⟨rfl, scene.journal.countsNoPiece_count n hpieces hfailed⟩

theorem works_report (scene : Scene) (ctx : Context) (causes : List String) :
    scene.Works (scene.report ctx causes) := by
  unfold report
  dsimp only
  split
  · exact works_of_counters rfl rfl
  · exact (scene.works_count 1 (by decide) (by decide)).trans (works_of_counters rfl rfl)

theorem works_noteInterruption (scene : Scene) (i : Interruption) :
    scene.Works (scene.noteInterruption i) := by
  cases i <;> exact works_of_counters rfl rfl

theorem works_lookForLocks (scene : Scene) (keys : List Key) :
    scene.Works (scene.lookForLocks keys).2 :=
  lookForLocks_induct works_refl Works.trans (fun _ _ => works_of_counters rfl rfl) scene keys

end Scene

/-!
## One move
-/

namespace Run

theorem works_setLocks (run : Run) (scene : Scene) (c : Context) :
    scene.Works (run.setLocks scene c).1 := by
  unfold setLocks
  cases scene.cache.setAll scene.cacheNow (run.lockItems scene) <;>
    exact Scene.works_of_counters rfl rfl

theorem works_releaseAnswered (run : Run) (scene : Scene) (result : CallResult)
    (answer : CacheAnswer) : scene.Works (run.releaseAnswered scene result answer).1 := by
  unfold releaseAnswered
  cases Transaction.releaseCauses? answer with
  | none => exact scene.works_refl
  | some causes =>
      exact (scene.works_count 1 (by decide) (by decide)).trans
        (Scene.works_report _ run.ctx causes)

section Works

variable {R : Scene -> Scene -> Prop} (hworks : ∀ {a b}, a.Works b -> R a b)
  (htrans : ∀ {a b c}, R a b -> R b c -> R a c)
  (hcancel : ∀ scene name, R scene (scene.cancelNamed name))
include hworks htrans hcancel

theorem works_served {ε : Type} (scene : Scene) (beats : List (Beat ε)) :
    R scene (scene.serve beats).1 :=
  Scene.serve_induct (fun scene => hworks scene.works_refl) htrans hcancel
    (fun _ => hworks (Scene.works_of_counters rfl rfl)) scene beats

theorem locking_induct {run : Run} {scene : Scene} {c : Context} {call : Progress (List String)}
    (hstage : run.stage = .locking c call) : R scene (run.advance scene).1 := by
  cases call with
  | notBegun =>
      simp only [advance, hstage]
      apply hworks
      cases scene.interruption? c with
      | some i => exact scene.works_refl
      | none =>
          dsimp only
          split <;> exact Scene.works_of_counters rfl rfl
  | serving beats =>
      have hserve := works_served hworks htrans hcancel scene beats
      simp only [advance, hstage]
      generalize scene.serve beats = served at hserve
      rcases served with ⟨mid, served⟩
      cases served with
      | completed => exact htrans hserve (hworks (run.works_setLocks mid c))
      | paused resume rest | gaveWay resume rest | crashed message | failed causes => exact hserve
  | paused resume rest =>
      simp only [advance, hstage]
      apply hworks
      cases scene.interruption? c with
      | some i => exact scene.works_noteInterruption i
      | none =>
          dsimp only
          split <;> exact Scene.works_of_counters rfl rfl

theorem writing_induct {run : Run} {scene : Scene} {c : Context} {rules : List StoreRule}
    {call : Progress Failure} (hstage : run.stage = .writing c rules call) :
    R scene (run.advance scene).1 := by
  cases call with
  | notBegun =>
      simp only [advance, hstage]
      apply hworks
      cases scene.interruption? run.ctx with
      | some i => exact scene.works_refl
      | none =>
          dsimp only
          split
          · exact scene.works_refl
          · exact (scene.works_lookForLocks run.keys).trans (Scene.works_of_counters rfl rfl)
  | serving beats =>
      have hserve := works_served hworks htrans hcancel scene beats
      simp only [advance, hstage]
      generalize scene.serve beats = served at hserve
      rcases served with ⟨mid, served⟩
      cases served with
      | completed | failed f => exact htrans hserve (hworks (Scene.works_of_counters rfl rfl))
      | paused resume rest | gaveWay resume rest | crashed message => exact hserve
  | paused resume rest =>
      simp only [advance, hstage]
      apply hworks
      cases scene.interruption? run.ctx with
      | some i => exact scene.works_noteInterruption i
      | none =>
          dsimp only
          split <;> exact Scene.works_of_counters rfl rfl

theorem releasing_induct {run : Run} {scene : Scene} {c : Context} {result : CallResult}
    {call : Progress (List String)} (hstage : run.stage = .releasing c result call) :
    R scene (run.advance scene).1 := by
  cases call with
  | notBegun =>
      simp only [advance, hstage]
      apply hworks
      cases scene.interruption? c with
      | some i => exact run.works_releaseAnswered scene result _
      | none =>
          dsimp only
          split <;> exact Scene.works_of_counters rfl rfl
  | serving beats =>
      have hserve := works_served hworks htrans hcancel scene beats
      simp only [advance, hstage]
      generalize scene.serve beats = served at hserve
      rcases served with ⟨mid, served⟩
      cases served with
      | completed =>
          have herased : mid.Works { mid with cache := mid.cache.eraseAll (run.lockSlots mid) } :=
            Scene.works_of_counters rfl rfl
          exact htrans hserve
            (hworks (herased.trans (run.works_releaseAnswered _ result _)))
      | failed causes => exact htrans hserve (hworks (run.works_releaseAnswered mid result _))
      | paused resume rest | gaveWay resume rest | crashed message => exact hserve
  | paused resume rest =>
      simp only [advance, hstage]
      apply hworks
      cases scene.interruption? c with
      | some i =>
          exact (scene.works_noteInterruption i).trans (run.works_releaseAnswered _ result _)
      | none =>
          dsimp only
          split <;> exact Scene.works_of_counters rfl rfl

/-- A move does to a scene what cancellations and derivations of contexts do, and
works in it. -/
theorem move_induct (hderive : ∀ scene parent, R scene (scene.deriveFrom parent).2) (run : Run)
    (scene : Scene) : R scene (run.move scene).1 := by
  have hadvance : R scene (run.advance scene).1 := by
    cases hstage : run.stage with
    | opening =>
        simp only [advance, hstage]
        have hcalled : R scene (scene.call .newContext) :=
          hworks (Scene.works_of_counters rfl rfl)
        exact htrans hcalled (openContext_induct (fun scene => hworks scene.works_refl) htrans
          hcancel hderive run scene)
    | locking c call => exact locking_induct hworks htrans hcancel hstage
    | writing c rules call => exact writing_induct hworks htrans hcancel hstage
    | releasing c result call => exact releasing_induct hworks htrans hcancel hstage
    | ended e =>
        simp only [advance, hstage]
        exact hworks scene.works_refl
  rcases run.exists_move_eq scene with ⟨lineage, hmove⟩
  rw [hmove]
  exact htrans hadvance (hworks (Scene.works_of_counters rfl rfl))

end Works

/-- What does not change while contexts are cancelled and derived, and while a
call is worked on, does not change in a move. -/
theorem eq_of_move {α : Type} {f : Scene -> α} (hworks : ∀ {a b : Scene}, a.Works b -> f b = f a)
    (hcancel : ∀ scene name, f (scene.cancelNamed name) = f scene)
    (hderive : ∀ scene parent, f (scene.deriveFrom parent).2 = f scene) (run : Run)
    (scene : Scene) : f (run.move scene).1 = f scene :=
  move_induct (R := fun a b => f b = f a) hworks (fun hab hbc => hbc.trans hab) hcancel hderive
    run scene

end Run

/-!
## Names and tokens
-/

namespace Scene

/-- What is cancelled, or can be by its name, has a number below the given one. -/
structure NamesBelow (k : Nat) (scene : Scene) : Prop where
  cancelled : ∀ t ∈ scene.tokens.cancelled, t.number < k
  named : ∀ entry ∈ scene.contexts, entry.2.token.number < k

/-- Nothing is cancelled or has a name that was not issued. -/
def IsTidy (scene : Scene) : Prop :=
  scene.NamesBelow scene.tokens.issued

/-- Time may pass, tokens may be issued, and what has a name may be cancelled. -/
structure Passes (before after : Scene) : Prop where
  now : before.now <= after.now
  faults : after.faults = before.faults
  contexts : after.contexts = before.contexts
  issued : before.tokens.issued <= after.tokens.issued
  cancelled : ∀ t ∈ before.tokens.cancelled, t ∈ after.tokens.cancelled
  named : ∀ t ∈ after.tokens.cancelled,
    t ∈ before.tokens.cancelled ∨ ∃ entry ∈ before.contexts, entry.2.token = t

theorem passes_of_tokens {before after : Scene} (hnow : before.now <= after.now)
    (hfaults : after.faults = before.faults) (hcontexts : after.contexts = before.contexts)
    (htokens : after.tokens = before.tokens) : before.Passes after := by
  refine ⟨hnow, hfaults, hcontexts, ?_, ?_, ?_⟩
  · exact Nat.le_of_eq (congrArg Tokens.issued htokens.symm)
  · rw [htokens]
    exact fun t hmem => hmem
  · rw [htokens]
    exact fun t hmem => Or.inl hmem

theorem Passes.trans {a b c : Scene} (hab : a.Passes b) (hbc : b.Passes c) : a.Passes c where
  now := Nat.le_trans hab.now hbc.now
  faults := hbc.faults.trans hab.faults
  contexts := hbc.contexts.trans hab.contexts
  issued := Nat.le_trans hab.issued hbc.issued
  cancelled := fun t hmem => hbc.cancelled t (hab.cancelled t hmem)
  named := by
    intro t hmem
    rcases hbc.named t hmem with hold | hnamed
    · exact hab.named t hold
    · rw [hab.contexts] at hnamed
      exact Or.inr hnamed

theorem Works.passes {before after : Scene} (h : before.Works after) : before.Passes after := by
  rw [h.same]
  exact passes_of_tokens (Nat.le_refl _) rfl rfl rfl

theorem passes_cancelNamed (scene : Scene) (name : String) :
    scene.Passes (scene.cancelNamed name) := by
  unfold cancelNamed
  cases hlookup : scene.contexts.lookup name with
  | none => exact scene.works_refl.passes
  | some c =>
      have hnamed : (name, c) ∈ scene.contexts := by
        rcases List.lookup_eq_some_iff.mp hlookup with ⟨before, after, hsplit, _⟩
        rw [hsplit]
        exact List.mem_append_right _ List.mem_cons_self
      refine ⟨Nat.le_refl _, rfl, rfl, Nat.le_refl _, ?_, ?_⟩
      · intro t hmem
        exact List.mem_append_left _ hmem
      · intro t hmem
        rcases List.mem_append.mp hmem with hold | hnew
        · exact Or.inl hold
        · exact Or.inr ⟨_, hnamed, (List.mem_singleton.mp hnew).symm⟩

theorem passes_deriveFrom (scene : Scene) (parent : Context) :
    scene.Passes (scene.deriveFrom parent).2 :=
  ⟨Nat.le_refl _, rfl, rfl, Nat.le_succ _, fun _ hmem => hmem, fun _ hmem => Or.inl hmem⟩

theorem passes_move (run : Run) (scene : Scene) : scene.Passes (run.move scene).1 :=
  Run.move_induct Works.passes Passes.trans passes_cancelNamed passes_deriveFrom run scene

theorem NamesBelow.passes {before after : Scene} {k : Nat} (h : before.NamesBelow k)
    (hpasses : before.Passes after) : after.NamesBelow k := by
  constructor
  · intro t hmem
    rcases hpasses.named t hmem with hold | ⟨entry, hentry, heq⟩
    · exact h.cancelled t hold
    · rw [← heq]
      exact h.named entry hentry
  · rw [hpasses.contexts]
    exact h.named

theorem IsTidy.of_eq {before after : Scene} (h : before.IsTidy)
    (htokens : after.tokens = before.tokens) (hcontexts : after.contexts = before.contexts) :
    after.IsTidy := by
  constructor
  · rw [htokens]
    exact h.cancelled
  · rw [htokens, hcontexts]
    exact h.named

theorem IsTidy.issued {scene : Scene} (h : scene.IsTidy) {tokens : Tokens} {lineage : Lineage}
    (hcancelled : tokens.cancelled = scene.tokens.cancelled)
    (hissued : scene.tokens.issued <= tokens.issued) :
    IsTidy { scene with tokens := tokens, lineage := lineage } := by
  refine ⟨?_, fun entry hmem => Nat.lt_of_lt_of_le (h.named entry hmem) hissued⟩
  intro t hmem
  have hold : t ∈ scene.tokens.cancelled := hcancelled ▸ hmem
  exact Nat.lt_of_lt_of_le (h.cancelled t hold) hissued

/-- A context may get a name if its token was issued. -/
theorem IsTidy.put {scene : Scene} (h : scene.IsTidy) {name : String} {c : Context}
    (hc : c.token.number < scene.tokens.issued) :
    IsTidy { scene with contexts := scene.contexts.put name c } := by
  refine ⟨h.cancelled, ?_⟩
  intro entry hmem
  rcases List.mem_cons.mp hmem with heq | hold
  · rw [heq]
    exact hc
  · exact h.named entry (List.mem_filter.mp hold).1

theorem IsTidy.passes {before after : Scene} (h : before.IsTidy) (hpasses : before.Passes after) :
    after.IsTidy := by
  have hnames : after.NamesBelow before.tokens.issued := NamesBelow.passes h hpasses
  exact ⟨fun t hmem => Nat.lt_of_lt_of_le (hnames.cancelled t hmem) hpasses.issued,
    fun entry hmem => Nat.lt_of_lt_of_le (hnames.named entry hmem) hpasses.issued⟩

end Scene
end Simulation
end WriteLatch
