import WriteLatch.Proofs.Interleaving.Ledger

/-!
# Smooth going

Calls take their time, and nothing else happens to them.  No context ends, and
the clock can show the end of every lock.  Then a transaction comes to the reply
of the store, and all that its moves do to the cache happens in the slots of its
own keys, where nothing is left at its end.
-/

namespace WriteLatch

namespace Cache

/-!
## Apart from some slots

Caches that are the same once some slots are erased differ in these slots only.
-/

section Apart

variable {c : Cache} {slots : List String}

theorem eraseAll_eq (c : Cache) (slots : List String) :
    c.eraseAll slots = ⟨c.entries.filter fun e => decide (e.1 ∉ slots)⟩ := by
  rw [eraseAll]
  congr 1
  induction slots generalizing c with
  | nil => exact (List.filter_eq_self.mpr fun _ _ => by simp).symm
  | cons slot slots ih =>
      have hrest := ih ⟨Association.erase c.entries slot⟩
      rw [List.foldl_cons, hrest, Association.erase, List.filter_filter]
      congr 1
      funext e
      rw [Bool.eq_iff_iff]
      simp [and_comm]

theorem eraseAll_erase {slot : String} (h : slot ∈ slots) :
    (c.erase slot).eraseAll slots = c.eraseAll slots := by
  rw [eraseAll_eq, eraseAll_eq, erase, Association.erase, List.filter_filter]
  congr 2
  funext e
  rw [Bool.eq_iff_iff, Bool.and_eq_true, decide_eq_true_eq, bne_iff_ne, and_iff_left_iff_imp]
  intro hout heq
  rw [heq] at hout
  exact hout h

theorem eraseAll_insert {slot : String} (h : slot ∈ slots) (e : CacheEntry) :
    (c.insert slot e).eraseAll slots = c.eraseAll slots := by
  have hrest := eraseAll_erase (c := c) h
  rw [eraseAll_eq] at hrest ⊢
  rw [← hrest, insert, Association.put, List.filter_cons_of_neg]
  · rfl
  · rw [decide_eq_true_eq]
    exact not_not_intro h

theorem eraseAll_insertAll {items : List CacheItem} (h : ∀ item ∈ items, item.slot ∈ slots)
    (now : Millis) : (c.insertAll now items).eraseAll slots = c.eraseAll slots := by
  induction items generalizing c with
  | nil => rfl
  | cons item items ih =>
      have hrest := ih (c := c.insert item.slot (entryOf now item))
        fun other hmem => h other (List.mem_cons_of_mem item hmem)
      rw [eraseAll_insert (h item List.mem_cons_self)] at hrest
      exact hrest

theorem eraseAll_afterRead {slot : String} (h : slot ∈ slots) (now : Millis) :
    (c.afterRead now slot).eraseAll slots = c.eraseAll slots := by
  rw [afterRead]
  cases c.held? slot with
  | none => rfl
  | some e =>
      cases hlive : e.isLive now with
      | true => simp only [hlive, if_true]
      | false =>
          simp only [hlive, Bool.false_eq_true, if_false]
          exact eraseAll_erase h

theorem eraseAll_eraseAll {others : List String} (h : ∀ slot ∈ slots, slot ∈ others) :
    (c.eraseAll slots).eraseAll others = c.eraseAll others := by
  rw [eraseAll_eq c slots, eraseAll_eq, eraseAll_eq, List.filter_filter]
  congr 2
  funext e
  rw [Bool.eq_iff_iff, Bool.and_eq_true, decide_eq_true_eq, decide_eq_true_eq,
    and_iff_left_iff_imp]
  exact fun hout hmem => hout (h e.1 hmem)

theorem eraseAll_of_held?_eq_none (h : ∀ slot ∈ slots, c.held? slot = none) :
    c.eraseAll slots = c := by
  rw [eraseAll_eq, List.filter_eq_self.mpr]
  intro e hmem
  rw [decide_eq_true_eq]
  intro hslot
  have hnone := h e.1 hslot
  rw [held?, List.lookup_eq_none_iff] at hnone
  have hne := hnone e hmem
  rw [bne_self_eq_false] at hne
  cases hne

theorem held?_eq_of_eraseAll {c' : Cache} (h : c.eraseAll slots = c'.eraseAll slots) {slot : String}
    (hslot : slot ∉ slots) : c.held? slot = c'.held? slot := by
  have hheld : (c.eraseAll slots).held? slot = (c'.eraseAll slots).held? slot := by rw [h]
  rw [held?_eraseAll, held?_eraseAll, if_neg hslot, if_neg hslot] at hheld
  exact hheld

theorem eraseAll_mono {c' : Cache} {others : List String} (h : c.eraseAll slots = c'.eraseAll slots)
    (hmem : ∀ slot ∈ slots, slot ∈ others) : c.eraseAll others = c'.eraseAll others := by
  rw [← eraseAll_eraseAll hmem, h, eraseAll_eraseAll hmem]

end Apart
end Cache

/-- The clock can show the end of a lock that is set now. -/
def LockScheme.IsStorable (scheme : LockScheme) (now : Millis) : Prop :=
  scheme.lifetime = 0 ∨ now + scheme.lifetime < Cache.clockEnd

theorem LockScheme.IsStorable.isStorable_lockItem {scheme : LockScheme} {now : Millis}
    (h : scheme.IsStorable now) (k : Key) : Cache.isStorable now (scheme.lockItem k) = true := by
  have hlifetime : (scheme.lockItem k).lifetime = scheme.lifetime := rfl
  rw [Cache.isStorable, Cache.expiryOf, hlifetime]
  rcases h with hforever | hbefore
  · rw [if_pos hforever]
  · by_cases hforever : scheme.lifetime = 0
    · rw [if_pos hforever]
    · rw [if_neg hforever]
      exact decide_eq_true hbefore

/-!
## Contexts that do not end
-/

namespace Context

/-- A context that is derived from one that goes on goes on. -/
theorem interruption?_child {parent : Context} {ts : Tokens} {now : Millis}
    (hknown : ∀ t ∈ ts.cancelled, t.number < ts.issued)
    (hparent : parent.interruption? ts now = none) :
    (parent.child ts).1.interruption? ts now = none := by
  rw [interruption?_eq_none_iff] at hparent ⊢
  refine ⟨?_, hparent.2⟩
  have hfree := hparent.1
  rw [Tokens.isCancelled, List.any_eq_false] at hfree ⊢
  intro t hmem hunder
  have hsuffix : t.chain <:+ ts.issued :: parent.token.chain := by
    rw [Token.isUnder, List.isSuffixOf_iff_suffix] at hunder
    exact hunder
  rcases List.suffix_cons_iff.mp hsuffix with hwhole | hrest
  · have hlt := hknown t hmem
    rw [Token.number, hwhole] at hlt
    exact Nat.lt_irrefl _ hlt
  · apply hfree t hmem
    rw [Token.isUnder, List.isSuffixOf_iff_suffix]
    exact hrest

end Context

namespace Simulation

/-!
## Faults that take time
-/

def Beat.IsPause {ε : Type} : Beat ε -> Prop
  | .pause _ => True
  | .cancel _ => False
  | .crash _ => False
  | .fail _ => False

/-- The call may take its time, and nothing else happens to it. -/
structure Trouble.OnlyDelays {ε : Type} (t : Trouble ε) : Prop where
  cancel : t.cancel = none
  crash : t.crash = none
  fail : t.fail = none

theorem Trouble.OnlyDelays.isPause {ε : Type} {t : Trouble ε} (h : t.OnlyDelays) :
    ∀ beat ∈ t.beats, beat.IsPause := by
  intro beat hmem
  rw [beats, h.cancel, h.crash, h.fail] at hmem
  cases hpause : t.pause with
  | none =>
      rw [hpause] at hmem
      cases hmem
  | some duration =>
      rw [hpause] at hmem
      have heq : beat = .pause duration := List.mem_singleton.mp hmem
      rw [heq]
      trivial

/-- The collaborators may take their time, and that is all they do besides their
work. -/
structure Faults.OnlyDelay (faults : Faults) : Prop where
  answers : ∀ rule ∈ faults.store, rule.LeavesAnswers
  store : ∀ rule ∈ faults.store, rule.trouble.OnlyDelays
  context : faults.cache.context = {}
  set : faults.cache.set.OnlyDelays
  delete : faults.cache.delete.OnlyDelays

theorem Faults.OnlyDelay.isPause {faults : Faults} (h : faults.OnlyDelay) (keys : List Key) :
    ∀ beat ∈ faults.storeBeats keys, beat.IsPause := by
  intro beat hmem
  rcases List.mem_flatMap.mp hmem with ⟨rule, hrule, hbeat⟩
  exact (h.store rule (List.mem_filter.mp hrule).1).isPause beat hbeat

/-- Nothing but pauses is left of the call. -/
def Progress.IsSmooth {ε : Type} : Progress ε -> Prop
  | .notBegun => True
  | .serving beats => ∀ beat ∈ beats, beat.IsPause
  | .paused _ beats => ∀ beat ∈ beats, beat.IsPause

/-- The call that is due has nothing before it but pauses, and a result is one
from the store. -/
def Stage.IsSmooth : Stage -> Prop
  | .opening => True
  | .locking _ call => call.IsSmooth
  | .writing _ rules call => call.IsSmooth ∧ ∀ rule ∈ rules, rule.LeavesAnswers
  | .releasing _ result call => call.IsSmooth ∧ ∀ f, result ≠ Transaction.wholesale f
  | .ended (.finished result) => ∀ f, result ≠ Transaction.wholesale f
  | .ended (.crashed _) => False

namespace Scene

/-- What moves leave alone when nothing but time goes into calls. -/
structure Alike (before after : Scene) : Prop where
  faults : after.faults = before.faults
  now : after.now = before.now
  cacheNow : after.cacheNow = before.cacheNow
  cancelled : after.tokens.cancelled = before.tokens.cancelled
  issued : before.tokens.issued <= after.tokens.issued

theorem Alike.interruption?_eq {before after : Scene} (h : before.Alike after) (c : Context) :
    after.interruption? c = before.interruption? c := by
  rw [interruption?, interruption?, Context.interruption?, Context.interruption?,
    Tokens.isCancelled, Tokens.isCancelled, h.cancelled, h.now]

theorem alike_spend (scene : Scene) (n : Nat) : scene.Alike (scene.spend n) :=
  ⟨rfl, rfl, rfl, rfl, Nat.le_refl _⟩

theorem spend_spend (scene : Scene) (m n : Nat) : (scene.spend m).spend n = scene.spend (m + n) := by
  rw [spend, spend, spend, Nat.sub_sub]

/-- Pauses use up the allowance, and one of them may be waited for. -/
theorem serve_of_isPause {ε : Type} (scene : Scene) {beats : List (Beat ε)}
    (h : ∀ beat ∈ beats, beat.IsPause) :
    ∃ n served, scene.serve beats = (scene.spend n, served) ∧
      (served = .completed ∨ ∃ resume rest, (∀ beat ∈ rest, beat.IsPause) ∧
        (served = .paused resume rest ∨ served = .gaveWay resume rest)) := by
  induction beats generalizing scene with
  | nil => exact ⟨0, _, rfl, Or.inl rfl⟩
  | cons beat beats ih =>
      have hrest : ∀ beat ∈ beats, beat.IsPause :=
        fun other hmem => h other (List.mem_cons_of_mem beat hmem)
      cases beat with
      | cancel name | crash message | fail e => exact (h _ List.mem_cons_self).elim
      | pause duration =>
          unfold serve
          by_cases hspent : scene.allowance = 0
          · rw [if_pos hspent]
            exact ⟨0, _, rfl, Or.inr ⟨_, beats, hrest, Or.inr rfl⟩⟩
          · rw [if_neg hspent]
            by_cases hzero : duration = 0
            · rw [if_pos hzero]
              rcases ih (scene.spend 1) hrest with ⟨n, served, hserve, hserved⟩
              rw [spend_spend] at hserve
              exact ⟨1 + n, served, hserve, hserved⟩
            · rw [if_neg hzero]
              exact ⟨0, _, rfl, Or.inr ⟨_, beats, hrest, Or.inl rfl⟩⟩

/-- Who looks for locks changes the cache in the slots of the keys only. -/
theorem lookForLocks_eq (scene : Scene) {keys : List Key} {slots : List String}
    (h : ∀ k ∈ keys, scene.scheme.slot k ∈ slots) :
    ∃ locked cache, scene.lookForLocks keys = (locked, { scene with cache := cache }) ∧
      cache.eraseAll slots = scene.cache.eraseAll slots := by
  induction keys generalizing scene with
  | nil => exact ⟨[], scene.cache, rfl, rfl⟩
  | cons k keys ih =>
      have hfirst := Cache.eraseAll_afterRead (c := scene.cache) (h k List.mem_cons_self)
        scene.cacheNow
      rcases ih (scene.lookForLock k).2 fun other hmem => h other (List.mem_cons_of_mem k hmem) with
        ⟨locked, cache, hlook, hsame⟩
      refine ⟨(scene.lookForLock k).1 :: locked, cache, ?_, hsame.trans hfirst⟩
      have hcons : scene.lookForLocks (k :: keys) =
          ((scene.lookForLock k).1 :: ((scene.lookForLock k).2.lookForLocks keys).1,
            ((scene.lookForLock k).2.lookForLocks keys).2) := rfl
      rw [hcons, hlook]
      rfl

end Scene

/-!
## Moves
-/

namespace Run

/-- Nothing is in the way of the transaction. -/
structure GoesSmoothly (run : Run) (scene : Scene) : Prop where
  faults : scene.faults.OnlyDelay
  stage : run.stage.IsSmooth
  inTime : scene.interruption? run.ctx = none
  cacheInTime : ∀ c, run.cacheContext? = some c -> scene.interruption? c = none
  storable : ∀ item ∈ run.lockItems scene, Cache.isStorable scene.cacheNow item = true
  complete : ∀ k ∈ run.keys, k.isComplete = true
  refuses : scene.store.refuses run.keys run.values = false

/-- What is said of a move when nothing is in the way. -/
structure MovedSmoothly (run : Run) (scene after : Scene) (next : Run) : Prop where
  alike : scene.Alike after
  stage : next.stage.IsSmooth
  cacheContext : ∀ c, next.cacheContext? = some c ->
    run.cacheContext? = some c ∨ c = (run.ctx.child scene.tokens).1
  cache : after.cache.eraseAll (run.lockSlots scene) = scene.cache.eraseAll (run.lockSlots scene)
  freed : next.end?.isSome = true ->
    (run.end?.isSome = true ∧ after.cache = scene.cache) ∨
      ∀ slot ∈ run.lockSlots scene, after.cache.held? slot = none

section Moves

variable {run : Run} {scene : Scene}

/-- A move that leaves the cache alone and does not come to the end. -/
theorem movedSmoothly_quietly {after : Scene} {stage : Stage} (begun : Nat)
    (halike : scene.Alike after) (hcache : after.cache = scene.cache) (hstage : stage.IsSmooth)
    (hcontext : ({ run with stage := stage, begun := begun } : Run).cacheContext? =
      run.cacheContext?) (hend : ({ run with stage := stage, begun := begun } : Run).end? = none) :
    MovedSmoothly run scene after { run with stage := stage, begun := begun } where
  alike := halike
  stage := hstage
  cacheContext := by
    intro c hc
    exact Or.inl (hcontext.symm.trans hc)
  cache := by rw [hcache]
  freed := by
    rw [hend]
    exact fun hended => Bool.noConfusion hended

theorem movedSmoothly_nothing (h : run.GoesSmoothly scene) : MovedSmoothly run scene scene run where
  alike := scene.alike_spend 0
  stage := h.stage
  cacheContext := fun _ hc => Or.inl hc
  cache := rfl
  freed := fun hended => Or.inl ⟨hended, rfl⟩

theorem movedSmoothly_opening (h : run.GoesSmoothly scene) :
    MovedSmoothly run scene (run.openContext scene).1 (run.openContext scene).2 := by
  have hrule : (scene.call CollaboratorCall.newContext).faults.cache.context = {} :=
    h.faults.context
  unfold openContext
  simp only [hrule, Option.map_none, Option.getD_none]
  refine ⟨⟨rfl, rfl, rfl, rfl, Nat.le_succ _⟩, trivial, ?_, rfl, ?_⟩
  · intro c hc
    cases hc
    exact Or.inr rfl
  · intro hended
    cases hended

theorem movedSmoothly_locking (h : run.GoesSmoothly scene) {c : Context}
    {call : Progress (List String)} (hstage : run.stage = .locking c call) :
    MovedSmoothly run scene (run.advance scene).1 (run.advance scene).2.1 := by
  have hsmooth := h.stage
  have hfree := h.cacheInTime c (by rw [cacheContext?, hstage])
  have hcontext : run.cacheContext? = some c := by rw [cacheContext?, hstage]
  rw [hstage] at hsmooth
  cases call with
  | notBegun =>
      simp only [advance, hstage, hfree]
      by_cases hspent : scene.allowance = 0
      · simp only [hspent, if_true]
        exact movedSmoothly_nothing h
      · simp only [hspent, if_false]
        exact movedSmoothly_quietly _ ⟨rfl, rfl, rfl, rfl, Nat.le_refl _⟩ rfl
          (h.faults.set.isPause) hcontext.symm rfl
  | serving beats =>
      rcases scene.serve_of_isPause hsmooth with ⟨n, served, hserve, hserved⟩
      simp only [advance, hstage, hserve]
      rcases hserved with hcompleted | ⟨resume, rest, hrest, hpaused | hgaveWay⟩
      · have hset : (scene.spend n).cache.setAll (scene.spend n).cacheNow
            (run.lockItems (scene.spend n)) =
              .ok (scene.cache.insertAll scene.cacheNow (run.lockItems scene)) :=
          Cache.setAll_of_storable h.storable
        have hslots : ∀ item ∈ run.lockItems scene, item.slot ∈ run.lockSlots scene := by
          intro item hmem
          rw [lockSlots, ← LockScheme.map_slot_lockItems]
          exact List.mem_map_of_mem hmem
        rw [hcompleted]
        simp only [setLocks, hset]
        refine ⟨⟨rfl, rfl, rfl, rfl, Nat.le_refl _⟩, ⟨trivial, ?_⟩, ?_,
          Cache.eraseAll_insertAll hslots _, ?_⟩
        · intro rule hmem
          cases hmem
        · intro c' hc
          exact Or.inl (hcontext.trans hc)
        · intro hended
          cases hended
      · rw [hpaused]
        exact movedSmoothly_quietly _ (scene.alike_spend n) rfl hrest hcontext.symm rfl
      · rw [hgaveWay]
        exact movedSmoothly_quietly _ (scene.alike_spend n) rfl hrest hcontext.symm rfl
  | paused resume rest =>
      simp only [advance, hstage, hfree]
      by_cases hdue : resume <= scene.now
      · simp only [hdue, if_true]
        exact movedSmoothly_quietly _ (scene.alike_spend 1) rfl hsmooth hcontext.symm rfl
      · simp only [hdue, if_false]
        exact movedSmoothly_nothing h

/-- The reply to a call that is not refused is no wholesale failure. -/
theorem putAll_ne_wholesale {s : Store} {keys : List Key} {values : List Value}
    (hrefuses : s.refuses keys values = false) (f : Failure) :
    (s.putAll keys values).1 ≠ Transaction.wholesale f := by
  rw [Store.putAll_of_not_refuses hrefuses]
  exact Store.resultOf_ne_wholesale _ f

theorem movedSmoothly_writing (h : run.GoesSmoothly scene) {c : Context} {rules : List StoreRule}
    {call : Progress Failure} (hstage : run.stage = .writing c rules call) :
    MovedSmoothly run scene (run.advance scene).1 (run.advance scene).2.1 := by
  have hsmooth := h.stage
  have hcontext : run.cacheContext? = some c := by rw [cacheContext?, hstage]
  have hfree := h.inTime
  rw [hstage] at hsmooth
  cases call with
  | notBegun =>
      have hslots : ∀ k ∈ run.keys, scene.scheme.slot k ∈ run.lockSlots scene := by
        intro k hmem
        rw [lockSlots, LockScheme.lockSlots]
        exact List.mem_map_of_mem (List.mem_filter.mpr ⟨hmem, h.complete k hmem⟩)
      rcases scene.lookForLocks_eq hslots with ⟨locked, cache, hlook, hcache⟩
      simp only [advance, hstage, hfree]
      by_cases hspent : scene.allowance = 0
      · simp only [hspent, if_true]
        exact movedSmoothly_nothing h
      · simp only [hspent, if_false, hlook]
        refine ⟨⟨rfl, rfl, rfl, rfl, Nat.le_refl _⟩, ⟨h.faults.isPause run.keys, ?_⟩, ?_, hcache, ?_⟩
        · intro rule hmem
          exact h.faults.answers rule (List.mem_filter.mp hmem).1
        · intro c' hc
          exact Or.inl (hcontext.trans hc)
        · intro hended
          cases hended
  | serving beats =>
      rcases scene.serve_of_isPause hsmooth.1 with ⟨n, served, hserve, hserved⟩
      simp only [advance, hstage, hserve]
      rcases hserved with hcompleted | ⟨resume, rest, hrest, hpaused | hgaveWay⟩
      · have hreply : (Stage.releasing c (answerAfter rules run.keys
            (scene.store.putAll run.keys run.values).1) .notBegun).IsSmooth := by
          rw [answerAfter_putAll hsmooth.2]
          exact ⟨trivial, putAll_ne_wholesale h.refuses⟩
        have halike : scene.Alike (run.putEntities (scene.spend n) c rules).1 :=
          ⟨rfl, rfl, rfl, rfl, Nat.le_refl _⟩
        rw [hcompleted]
        exact movedSmoothly_quietly run.begun halike rfl hreply hcontext.symm rfl
      · rw [hpaused]
        exact movedSmoothly_quietly _ (scene.alike_spend n) rfl ⟨hrest, hsmooth.2⟩ hcontext.symm rfl
      · rw [hgaveWay]
        exact movedSmoothly_quietly _ (scene.alike_spend n) rfl ⟨hrest, hsmooth.2⟩ hcontext.symm rfl
  | paused resume rest =>
      simp only [advance, hstage, hfree]
      by_cases hdue : resume <= scene.now
      · simp only [hdue, if_true]
        exact movedSmoothly_quietly _ (scene.alike_spend 1) rfl hsmooth hcontext.symm rfl
      · simp only [hdue, if_false]
        exact movedSmoothly_nothing h

theorem movedSmoothly_releasing (h : run.GoesSmoothly scene) {c : Context} {result : CallResult}
    {call : Progress (List String)} (hstage : run.stage = .releasing c result call) :
    MovedSmoothly run scene (run.advance scene).1 (run.advance scene).2.1 := by
  have hsmooth := h.stage
  have hfree := h.cacheInTime c (by rw [cacheContext?, hstage])
  have hcontext : run.cacheContext? = some c := by rw [cacheContext?, hstage]
  rw [hstage] at hsmooth
  cases call with
  | notBegun =>
      simp only [advance, hstage, hfree]
      by_cases hspent : scene.allowance = 0
      · simp only [hspent, if_true]
        exact movedSmoothly_nothing h
      · simp only [hspent, if_false]
        exact movedSmoothly_quietly _ ⟨rfl, rfl, rfl, rfl, Nat.le_refl _⟩ rfl
          ⟨h.faults.delete.isPause, hsmooth.2⟩ hcontext.symm rfl
  | serving beats =>
      rcases scene.serve_of_isPause hsmooth.1 with ⟨n, served, hserve, hserved⟩
      simp only [advance, hstage, hserve]
      rcases hserved with hcompleted | ⟨resume, rest, hrest, hpaused | hgaveWay⟩
      · rw [hcompleted]
        refine ⟨⟨rfl, rfl, rfl, rfl, Nat.le_refl _⟩, hsmooth.2, ?_,
          Cache.eraseAll_eraseAll fun _ hmem => hmem, ?_⟩
        · intro c' hc
          cases hc
        · intro _
          right
          intro slot hslot
          have hheld := scene.cache.held?_eraseAll (run.lockSlots scene) slot
          rw [if_pos hslot] at hheld
          exact hheld
      · rw [hpaused]
        exact movedSmoothly_quietly _ (scene.alike_spend n) rfl ⟨hrest, hsmooth.2⟩ hcontext.symm rfl
      · rw [hgaveWay]
        exact movedSmoothly_quietly _ (scene.alike_spend n) rfl ⟨hrest, hsmooth.2⟩ hcontext.symm rfl
  | paused resume rest =>
      simp only [advance, hstage, hfree]
      by_cases hdue : resume <= scene.now
      · simp only [hdue, if_true]
        exact movedSmoothly_quietly _ (scene.alike_spend 1) rfl hsmooth hcontext.symm rfl
      · simp only [hdue, if_false]
        exact movedSmoothly_nothing h

theorem movedSmoothly_advance (h : run.GoesSmoothly scene) :
    MovedSmoothly run scene (run.advance scene).1 (run.advance scene).2.1 := by
  cases hstage : run.stage with
  | opening =>
      simp only [advance, hstage]
      exact movedSmoothly_opening h
  | locking c call => exact movedSmoothly_locking h hstage
  | writing c rules call => exact movedSmoothly_writing h hstage
  | releasing c result call => exact movedSmoothly_releasing h hstage
  | ended e =>
      simp only [advance, hstage]
      exact movedSmoothly_nothing h

theorem movedSmoothly_move (h : run.GoesSmoothly scene) :
    MovedSmoothly run scene (run.move scene).1 (run.move scene).2.1 := by
  have hmoved := movedSmoothly_advance h
  have halike := hmoved.alike
  rcases run.exists_move_eq scene with ⟨lineage, hmove⟩
  rw [hmove]
  exact ⟨⟨halike.faults, halike.now, halike.cacheNow, halike.cancelled, halike.issued⟩,
    hmoved.stage, hmoved.cacheContext, hmoved.cache, hmoved.freed⟩

end Moves
end Run

end Simulation
end WriteLatch
