import WriteLatch.Proofs.Interleaving.Smooth

/-!
# A cache that is shared

Transactions with no slot in common do not meet in the cache.  As long as nothing
is in their way each of them comes to its end, has been given a reply by the
store, and has left its slots empty.  So in the end the cache is as it was at the
start, without the slots that were shared out among them.
-/

namespace WriteLatch
namespace Simulation

/-!
## Steps
-/

namespace World

/-- Nothing is in the way of any transaction. -/
structure Smooth (w : World) : Prop where
  faults : w.scene.faults.OnlyDelay
  inTime : ∀ writer ∈ w.writers, w.scene.interruption? writer.run.ctx = none
  cacheInTime : ∀ writer ∈ w.writers, ∀ c, writer.run.cacheContext? = some c ->
    w.scene.interruption? c = none
  storable : ∀ writer ∈ w.writers, writer.scheme.IsStorable w.scene.cacheNow

/-- A step in a world in which the transactions have the store and the cache to
themselves, and nothing is in their way. -/
inductive SmoothStep (w : World) : World -> Prop where
  | moved {i : Nat} {writer : Writer} (hwriter : w.writers[i]? = some writer) (h : w.Smooth) :
      SmoothStep w (w.moved i writer)
  | meanwhile {scene : Scene} (hquiet : w.scene.Quiet scene)
      (hstore : scene.store = w.scene.store) (hcache : scene.cache = w.scene.cache) :
      SmoothStep w { w with scene := scene }

theorem SmoothStep.sole {w w' : World} (h : SmoothStep w w') : SoleStep w w' := by
  cases h with
  | moved hwriter h => exact SoleStep.moved hwriter h.faults.answers
  | meanwhile hquiet hstore hcache => exact SoleStep.meanwhile hquiet hstore

theorem sole_of_smooth {w w' : World} (h : Relation.ReflTransGen SmoothStep w w') :
    Relation.ReflTransGen SoleStep w w' :=
  h.lift id fun _ _ hstep => hstep.sole

/-- Transactions that are about to begin, with complete keys, calls that the
store does not refuse, and no slot in common; between them they have the slots
of a list. -/
structure Sharing (start : World) (slots : List String) : Prop where
  fresh : start.Fresh
  complete : ∀ writer ∈ start.writers, ∀ k ∈ writer.run.keys, k.isComplete = true
  refuses : ∀ writer ∈ start.writers,
    start.scene.store.refuses writer.run.keys writer.run.values = false
  apart : ∀ (i j : Nat) (a b : Writer), start.writers[i]? = some a -> start.writers[j]? = some b ->
    i ≠ j -> ∀ slot ∈ a.slots, slot ∉ b.slots
  shared : ∀ slot, slot ∈ slots ↔ ∃ writer ∈ start.writers, slot ∈ writer.slots

/-- The cache is the one from the start but for some slots, and who has ended has
left nothing in its own. -/
structure Tidy (start w : World) (slots : List String) : Prop where
  stages : ∀ writer ∈ w.writers, writer.run.stage.IsSmooth
  cache : w.scene.cache.eraseAll slots = start.scene.cache.eraseAll slots
  freed : ∀ writer ∈ w.writers, writer.run.end?.isSome = true ->
    ∀ slot ∈ writer.slots, w.scene.cache.held? slot = none

section Sharing

variable {start w : World} {slots : List String}

theorem Sharing.tidy (h : start.Sharing slots) : Tidy start start slots where
  stages := by
    intro writer hmem
    rw [h.fresh.opening writer hmem]
    trivial
  cache := rfl
  freed := by
    intro writer hmem hended
    rw [Run.end?, h.fresh.opening writer hmem] at hended
    cases hended

variable (h : start.Sharing slots) (hreach : Relation.ReflTransGen SmoothStep start w)
  (htidy : Tidy start w slots)
include h hreach

/-- The store refuses none of the calls later on either. -/
theorem Sharing.refuses_later {i : Nat} {writer : Writer} (hwriter : w.writers[i]? = some writer) :
    w.scene.store.refuses writer.run.keys writer.run.values = false := by
  have hsole := sole_of_smooth hreach
  rcases exists_ledger h.fresh hsole with ⟨order, hledger⟩
  rcases (reaches_of_sole hsole).continues hwriter with ⟨first, hfirst, hcontinues⟩
  have hlimit := (start.scene.store.limits_afterCalls (start.callsOf order)).1
  have hrefuses := h.refuses first (List.mem_of_getElem? hfirst)
  rw [Store.refuses] at hrefuses ⊢
  rw [hledger.store, storeAfter, hlimit, hcontinues.keys, hcontinues.values]
  exact hrefuses

theorem Sharing.apart_later {i j : Nat} {a b : Writer} (ha : w.writers[i]? = some a)
    (hb : w.writers[j]? = some b) (hij : i ≠ j) : ∀ slot ∈ a.slots, slot ∉ b.slots := by
  have hsteps := reaches_of_sole (sole_of_smooth hreach)
  rcases hsteps.continues ha with ⟨first, hfirst, hcontinues⟩
  rcases hsteps.continues hb with ⟨other, hother, hcontinues'⟩
  rw [hcontinues.slots_eq, hcontinues'.slots_eq]
  exact h.apart i j first other hfirst hother hij

include htidy

theorem Sharing.goesSmoothly (hsmooth : w.Smooth) {i : Nat} {writer : Writer}
    (hwriter : w.writers[i]? = some writer) :
    writer.run.GoesSmoothly (w.sceneOf writer) where
  faults := hsmooth.faults
  stage := htidy.stages writer (List.mem_of_getElem? hwriter)
  inTime := hsmooth.inTime writer (List.mem_of_getElem? hwriter)
  cacheInTime := hsmooth.cacheInTime writer (List.mem_of_getElem? hwriter)
  storable := by
    intro item hmem
    rcases Writer.mem_items.mp hmem with ⟨k, _, _, heq⟩
    rw [← heq]
    exact (hsmooth.storable writer (List.mem_of_getElem? hwriter)).isStorable_lockItem k
  complete := by
    have hsteps := reaches_of_sole (sole_of_smooth hreach)
    rcases hsteps.continues hwriter with ⟨first, hfirst, hcontinues⟩
    rw [hcontinues.keys]
    exact h.complete first (List.mem_of_getElem? hfirst)
  refuses := h.refuses_later hreach hwriter

theorem Sharing.tidy_moved (hsmooth : w.Smooth) {i : Nat} {writer : Writer}
    (hwriter : w.writers[i]? = some writer) : Tidy start (w.moved i writer) slots := by
  have hmoved := Run.movedSmoothly_move (h.goesSmoothly hreach htidy hsmooth hwriter)
  have hmem := List.mem_of_getElem? hwriter
  have hslots : ∀ slot ∈ writer.slots, slot ∈ slots := by
    intro slot hslot
    have hsteps := reaches_of_sole (sole_of_smooth hreach)
    rcases hsteps.continues hwriter with ⟨first, hfirst, hcontinues⟩
    rw [hcontinues.slots_eq] at hslot
    exact (h.shared slot).mpr ⟨first, List.mem_of_getElem? hfirst, hslot⟩
  constructor
  · intro other hother
    rcases List.mem_or_eq_of_mem_set hother with hold | hnext
    · exact htidy.stages other hold
    · rw [hnext]
      exact hmoved.stage
  · exact (Cache.eraseAll_mono hmoved.cache hslots).trans htidy.cache
  · intro other hother hended slot hslot
    rcases List.mem_iff_getElem?.mp hother with ⟨j, hj⟩
    rcases getElem?_moved hj with ⟨_, hnext⟩ | ⟨hne, hsame⟩
    · rw [hnext] at hended hslot
      rw [(w.continues_next writer).slots_eq] at hslot
      rcases hmoved.freed hended with ⟨hbefore, hcache⟩ | hfree
      · have hheld := htidy.freed writer hmem hbefore slot hslot
        rw [moved, hcache]
        exact hheld
      · exact hfree slot hslot
    · have hout := h.apart_later hreach hsame hwriter hne slot hslot
      have hheld := htidy.freed other (List.mem_of_getElem? hsame) hended slot hslot
      exact (Cache.held?_eq_of_eraseAll hmoved.cache hout).trans hheld

omit htidy in
theorem Sharing.tidy_later : Tidy start w slots := by
  induction hreach with
  | refl => exact h.tidy
  | tail hreach hstep htidy =>
      cases hstep with
      | moved hwriter hsmooth => exact h.tidy_moved hreach htidy hsmooth hwriter
      | meanwhile hquiet hstore hcache =>
          refine ⟨htidy.stages, ?_, ?_⟩
          · dsimp only
            rw [hcache]
            exact htidy.cache
          · dsimp only
            rw [hcache]
            exact htidy.freed

/-!
## The end of all transactions
-/

omit htidy in
/-- Whoever has ended has called the store, and has come to its reply. -/
theorem Sharing.replied {order : List Nat} (hledger : Ledger start w order) {j : Nat}
    {writer : Writer} {e : Client.TaskEnd} (hwriter : w.writers[j]? = some writer)
    (hend : writer.run.end? = some e) :
    ∃ later earlier, order = later ++ j :: earlier ∧
      e = .finished
        ((start.storeAfter earlier).putAll writer.run.keys writer.run.values).1 := by
  have hsmooth := (h.tidy_later hreach).stages writer (List.mem_of_getElem? hwriter)
  cases hstage : writer.run.stage with
  | opening | locking c call | writing c rules call | releasing c result call =>
      rw [Run.end?, hstage] at hend
      cases hend
  | ended e' =>
      rw [Run.end?, hstage, Option.some.injEq] at hend
      rw [hstage, hend] at hsmooth
      cases e with
      | crashed message => exact hsmooth.elim
      | finished result =>
          have hresult : writer.run.stage.result? = some result := by
            rw [hstage, hend]
            rfl
          have hcalled : j ∈ order := by
            by_contra habsent
            rcases hledger.failed j writer result habsent hwriter hresult with ⟨f, hfailed⟩
            exact hsmooth f hfailed
          rcases List.append_of_mem hcalled with ⟨later, earlier, horder⟩
          refine ⟨later, earlier, horder, ?_⟩
          rw [hledger.replied later j earlier horder writer result hwriter hresult]

omit htidy in
/-- When all have ended the cache is as it was at the start, without the slots
that they have shared. -/
theorem Sharing.cache_eq (hended : ∀ writer ∈ w.writers, writer.run.end?.isSome = true) :
    w.scene.cache = start.scene.cache.eraseAll slots := by
  have htidy := h.tidy_later hreach
  rw [← htidy.cache, Cache.eraseAll_of_held?_eq_none]
  intro slot hslot
  rcases (h.shared slot).mp hslot with ⟨first, hfirst, hown⟩
  rcases List.mem_iff_getElem?.mp hfirst with ⟨i, hi⟩
  have hsteps := reaches_of_sole (sole_of_smooth hreach)
  have hlt : i < w.writers.length := by
    rw [hsteps.length_writers]
    exact (List.getElem?_eq_some_iff.mp hi).1
  have hwriter : w.writers[i]? = some w.writers[i] := List.getElem?_eq_getElem hlt
  rcases hsteps.continues hwriter with ⟨first', hfirst', hcontinues⟩
  rw [hi, Option.some.injEq] at hfirst'
  rw [hfirst', ← hcontinues.slots_eq] at hown
  have hmem := List.mem_of_getElem? hwriter
  exact htidy.freed _ hmem (hended _ hmem) slot hown

end Sharing

/-!
## Coming to the end
-/

/-- No context has a deadline, and no token was cancelled before it was handed
out. -/
structure Boundless (w : World) : Prop where
  deadline : ∀ writer ∈ w.writers, writer.run.ctx.deadline = none
  cacheDeadline : ∀ writer ∈ w.writers, ∀ c, writer.run.cacheContext? = some c ->
    c.deadline = none
  known : ∀ t ∈ w.scene.tokens.cancelled, t.number < w.scene.tokens.issued

section Boundless

variable {w : World} {i : Nat} {writer : Writer}
  (hmoved : Run.MovedSmoothly writer.run (w.sceneOf writer) (w.moved i writer).scene
    (w.next writer).run)
include hmoved

theorem Smooth.moved (h : w.Smooth) (hboundless : w.Boundless) (hmem : writer ∈ w.writers) :
    (w.moved i writer).Smooth := by
  have hsame (c : Context) :
      (w.moved i writer).scene.interruption? c = w.scene.interruption? c :=
    hmoved.alike.interruption?_eq c
  constructor
  · rw [hmoved.alike.faults]
    exact h.faults
  · intro other hother
    rw [hsame]
    rcases List.mem_or_eq_of_mem_set hother with hold | hnext
    · exact h.inTime other hold
    · rw [hnext, (w.continues_next writer).ctx]
      exact h.inTime writer hmem
  · intro other hother c hc
    rw [hsame]
    rcases List.mem_or_eq_of_mem_set hother with hold | hnext
    · exact h.cacheInTime other hold c hc
    · rw [hnext] at hc
      rcases hmoved.cacheContext c hc with hbefore | hderived
      · exact h.cacheInTime writer hmem c hbefore
      · rw [hderived]
        exact Context.interruption?_child hboundless.known (h.inTime writer hmem)
  · intro other hother
    rw [hmoved.alike.cacheNow]
    rcases List.mem_or_eq_of_mem_set hother with hold | hnext
    · exact h.storable other hold
    · rw [hnext, (w.continues_next writer).scheme]
      exact h.storable writer hmem

theorem Boundless.moved (h : w.Boundless) (hmem : writer ∈ w.writers) :
    (w.moved i writer).Boundless := by
  constructor
  · intro other hother
    rcases List.mem_or_eq_of_mem_set hother with hold | hnext
    · exact h.deadline other hold
    · rw [hnext, (w.continues_next writer).ctx]
      exact h.deadline writer hmem
  · intro other hother c hc
    rcases List.mem_or_eq_of_mem_set hother with hold | hnext
    · exact h.cacheDeadline other hold c hc
    · rw [hnext] at hc
      rcases hmoved.cacheContext c hc with hbefore | hderived
      · exact h.cacheDeadline writer hmem c hbefore
      · rw [hderived]
        exact h.deadline writer hmem
  · intro t ht
    rw [hmoved.alike.cancelled] at ht
    exact Nat.lt_of_lt_of_le (h.known t ht) hmoved.alike.issued

omit hmoved in
/-- Without deadlines, time ends no context. -/
theorem Smooth.later (h : w.Smooth) (hboundless : w.Boundless) (instant : Millis) :
    (w.later instant).Smooth := by
  have hsame {c : Context} (hdeadline : c.deadline = none)
      (hfree : w.scene.interruption? c = none) : (w.later instant).scene.interruption? c = none := by
    rw [Scene.interruption?, Context.interruption?_eq_none_iff] at hfree ⊢
    refine ⟨hfree.1, ?_⟩
    rw [Context.isLate, hdeadline]
  refine ⟨h.faults, ?_, ?_, h.storable⟩
  · intro writer hmem
    exact hsame (hboundless.deadline writer hmem) (h.inTime writer hmem)
  · intro writer hmem c hc
    exact hsame (hboundless.cacheDeadline writer hmem c hc) (h.cacheInTime writer hmem c hc)

end Boundless

theorem Sharing.letsGoOn {start : World} {slots : List String} (h : start.Sharing slots) :
    LetsGoOn SmoothStep fun w =>
      Relation.ReflTransGen SmoothStep start w ∧ w.Smooth ∧ w.Boundless := by
  constructor
  · rintro w i writer ⟨hreach, hsmooth, hboundless⟩ hwriter
    have hmem := List.mem_of_getElem? hwriter
    have hmoved := Run.movedSmoothly_move
      (h.goesSmoothly hreach (h.tidy_later hreach) hsmooth hwriter)
    have hstep := SmoothStep.moved hwriter hsmooth
    exact ⟨hstep, hreach.tail hstep, hsmooth.moved hmoved hboundless hmem,
      hboundless.moved hmoved hmem⟩
  · rintro w instant ⟨hreach, hsmooth, hboundless⟩
    have hstep : SmoothStep w (w.later instant) :=
      SmoothStep.meanwhile (w.quiet_later instant) rfl rfl
    exact ⟨hstep, hreach.tail hstep, hsmooth.later hboundless instant,
      hboundless.deadline, hboundless.cacheDeadline, hboundless.known⟩

end World
end Simulation
end WriteLatch
