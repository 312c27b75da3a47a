import WriteLatch.Proofs.Encoding.Keys
import WriteLatch.Proofs.Interleaving.Calls
import WriteLatch.Proofs.Interleaving.Traffic
import WriteLatch.Proofs.Store.Replies

/-!
# Readers of a store

A store without rules does what it is asked and answers what it has done.  Only
transactions change it, and nothing that is in it is ever taken out.  Readers
keep what they have found there in the cache, under the slots of the keys.  So
whatever stands in the cache and is no lock belongs to an entity of the store,
and every key that a transaction reports as written has come from one that it
was given and had locked.
-/

namespace WriteLatch

/-- What a key of one space becomes has one space, too. -/
theorem Store.CanBecome.isUniform {given k : Key} (h : CanBecome given k)
    (hgiven : given.IsUniform) : k.IsUniform := by
  rcases h with ⟨_, hsame⟩ | ⟨_, n, hcompleted⟩
  · rw [hsame]
    exact hgiven
  · rw [hcompleted]
    exact hgiven.completedWith n

namespace Simulation

/-!
## What a move does to the store
-/

/-- Without rules the answer is what the store has done. -/
theorem writtenAt?_answerAfter_nil (keys : List Key) (result : CallResult) (i : Nat) :
    writtenAt? (answerAfter [] keys result) i = writtenAt? result i := by
  cases result with
  | ok written =>
      have hanswer : answerAfter [] keys (.ok written) = Store.resultOf (written.map .ok) := rfl
      rw [hanswer, Store.writtenAt?_resultOf, writtenAt?, List.getElem?_map]
      cases written[i]? <;> rfl
  | error f =>
      cases f with
      | wholesale f => rfl
      | positional slots =>
          have hanswer : answerAfter [] keys (.error (.positional slots)) =
              Store.resultOf slots.toList := rfl
          rw [hanswer, Store.writtenAt?_resultOf, writtenAt?]

namespace Stage

/-- No rules have been taken for the call of the store. -/
def IsUnruled : Stage -> Prop
  | .writing _ rules _ => rules = []
  | .opening => True
  | .locking _ _ => True
  | .releasing _ _ _ => True
  | .ended _ => True

/-- What will be returned, once that is settled. -/
def result? : Stage -> Option CallResult
  | .releasing _ result _ => some result
  | .ended (.finished result) => some result
  | .opening => none
  | .locking _ _ => none
  | .writing _ _ _ => none
  | .ended (.crashed _) => none

theorem isUnruled_ofPhase (phase : Transaction.Phase) : (ofPhase phase).IsUnruled := by
  cases phase <;> trivial

end Stage

namespace Turns

variable {run : Run} {scene : Scene} {stage stage' : Stage} {store : Store}

theorem store_eq_or (h : Turns run scene stage store stage') :
    store = scene.store ∨ store = (scene.store.putAll run.keys run.values).2 := by
  cases h with
  | @putEnded c rules call answer hended =>
      cases hended with
      | interrupted hcall hover => exact Or.inl rfl
      | failed hserved => exact Or.inl rfl
      | completed hserved => exact Or.inr rfl
  | rests stage | opened hanswer | setGoesOn hcall | setEnded hended
  | setCrashed c beats message | putGoesOn hrules hcall | putCrashed c rules beats message
  | deleteGoesOn hcall | deleteEnded hended | deleteCrashed c result beats message =>
      exact Or.inl rfl

theorem isUnruled (h : Turns run scene stage store stage') (hfaults : scene.faults.store = [])
    (hunruled : stage.IsUnruled) : stage'.IsUnruled := by
  cases h with
  | rests stage => exact hunruled
  | @putGoesOn c rules rules' call call' hrules hcall =>
      rcases hrules with hsame | ⟨_, htaken⟩
      · rw [hsame]
        exact hunruled
      · have hnone : scene.faults.storeRules run.keys = [] := by
          rw [Faults.storeRules, hfaults, List.filter_nil]
        rw [htaken]
        exact hnone
  | opened hanswer => exact Stage.isUnruled_ofPhase _
  | setEnded hended => exact Stage.isUnruled_ofPhase _
  | putEnded hended => exact Stage.isUnruled_ofPhase _
  | deleteEnded hended => exact Stage.isUnruled_ofPhase _
  | setGoesOn hcall | setCrashed c beats message | putCrashed c rules beats message
  | deleteGoesOn hcall | deleteCrashed c result beats message => trivial

/-- A key that is reported as written is one that the store has just written, or
it was reported before. -/
theorem result?_eq_or (h : Turns run scene stage store stage') (hunruled : stage.IsUnruled)
    {result : CallResult} (hresult : stage'.result? = some result) {l : Nat} {k : Key}
    (hwritten : writtenAt? result l = some k) :
    stage.result? = some result ∨
      ((∃ c rules call, stage = .writing c rules call) ∧
        ∃ given, run.keys[l]? = some given ∧ Store.CanBecome given k) := by
  have hfailed (f : Failure) (hwholesale : Transaction.wholesale f = result) : False := by
    rw [← hwholesale, Transaction.wholesale, writtenAt?_wholesale] at hwritten
    cases hwritten
  cases h with
  | rests stage => exact Or.inl hresult
  | @opened answer hanswer =>
      cases answer with
      | ok c => cases hresult
      | error causes => exact (hfailed _ (Option.some.inj hresult)).elim
  | @setEnded c call answer hended =>
      cases hended with
      | interrupted hcall hover => exact (hfailed _ (Option.some.inj hresult)).elim
      | failed hserved => exact (hfailed _ (Option.some.inj hresult)).elim
      | completed hserved => cases hresult
  | @putEnded c rules call answer hended =>
      cases hended with
      | interrupted hcall hover => exact (hfailed _ (Option.some.inj hresult)).elim
      | failed hserved => exact (hfailed _ (Option.some.inj hresult)).elim
      | completed hserved =>
          right
          refine ⟨⟨_, _, _, rfl⟩, ?_⟩
          have hrules : rules = [] := hunruled
          have hanswer : answerAfter rules run.keys
              (scene.store.putAll run.keys run.values).1 = result := Option.some.inj hresult
          rw [← hanswer, hrules, writtenAt?_answerAfter_nil] at hwritten
          exact Store.canBecome_of_writtenAt? hwritten
  | deleteGoesOn hcall => exact Or.inl hresult
  | deleteEnded hended => exact Or.inl hresult
  | setGoesOn hcall | setCrashed c beats message | putGoesOn hrules hcall
  | putCrashed c rules beats message | deleteCrashed c result beats message => cases hresult

end Turns

/-!
## Steps over a faithful store
-/

namespace World

/-- There is an entity under the key. -/
def Stores (w : World) (k : Key) : Prop :=
  (w.scene.store.find? k).isSome = true

/-- Steps over a store that only transactions change, and that has no rules.
What others set in the cache are entities of the store. -/
inductive FaithfulStep (scheme : LockScheme) (w : World) : World -> Prop where
  | moved {i : Nat} {writer : Writer} (hwriter : w.writers[i]? = some writer)
      (hfaults : w.scene.faults.store = []) : FaithfulStep scheme w (w.moved i writer)
  | cached {items : List CacheItem}
      (hitems : ∀ item ∈ items, ∃ k, w.Stores k ∧ item.slot = scheme.slot k) :
      FaithfulStep scheme w (w.stored items)
  | erased (slots : List String) : FaithfulStep scheme w (w.erased slots)
  | meanwhile {scene : Scene} (hquiet : w.scene.Quiet scene)
      (hstore : scene.store = w.scene.store) : FaithfulStep scheme w { w with scene := scene }

/-- Nobody has called yet, and there is nothing in the store and the cache. -/
structure Empty (w : World) : Prop where
  history : w.history = []
  writers : w.writers = []
  entities : w.scene.store.entities = []
  cache : w.scene.cache = {}

variable {scheme : LockScheme} {w w' : World}

theorem FaithfulStep.step (h : FaithfulStep scheme w w') : Step w w' := by
  cases h with
  | moved hwriter hfaults => exact Step.moved hwriter
  | cached hitems => exact Step.stored _
  | erased slots => exact Step.erased slots
  | meanwhile hquiet hstore => exact Step.meanwhile hquiet

theorem turns_moved (w : World) (i : Nat) (writer : Writer) :
    Turns writer.run (w.sceneOf writer) writer.run.stage (w.moved i writer).scene.store
      (w.next writer).run.stage :=
  writer.run.turns_move (w.sceneOf writer)

theorem FaithfulStep.stores (h : FaithfulStep scheme w w') {k : Key} (hk : w.Stores k) :
    w'.Stores k := by
  cases h with
  | @moved i writer hwriter hfaults =>
      unfold Stores
      rcases (w.turns_moved i writer).store_eq_or with hsame | hput
      · rw [hsame]
        exact hk
      · rw [hput]
        exact Store.isSome_find?_putAll hk writer.run.keys writer.run.values
  | cached hitems => exact hk
  | erased slots => exact hk
  | meanwhile hquiet hstore =>
      unfold Stores
      rw [hstore]
      exact hk

theorem FaithfulStep.stores_or (h : FaithfulStep scheme w w') {k : Key} (hk : w'.Stores k) :
    w.Stores k ∨ ∃ writer ∈ w.writers, ∃ given ∈ writer.run.keys, Store.CanBecome given k := by
  cases h with
  | @moved i writer hwriter hfaults =>
      unfold Stores at hk
      rcases (w.turns_moved i writer).store_eq_or with hsame | hput
      · rw [hsame] at hk
        exact Or.inl hk
      · rw [hput] at hk
        rcases Store.canBecome_of_isSome_find?_putAll hk with hold | hnew
        · exact Or.inl hold
        · exact Or.inr ⟨writer, List.mem_of_getElem? hwriter, hnew⟩
  | cached hitems => exact Or.inl hk
  | erased slots => exact Or.inl hk
  | meanwhile hquiet hstore =>
      unfold Stores at hk
      rw [hstore] at hk
      exact Or.inl hk

/-!
## The invariant
-/

/-- The transaction has set its locks. -/
def HasSet (w : World) (i : Nat) (writer : Writer) : Prop :=
  ∃ now, .set now writer.items ∈ w.deedsOf i

/-- What faithful steps keep, and transactions that come in addition. -/
structure Faithful (scheme : LockScheme) (w : World) : Prop where
  sound : Sound {} w
  unruled : ∀ writer ∈ w.writers, writer.run.stage.IsUnruled
  valid : ∀ writer ∈ w.writers, ∀ k ∈ writer.run.keys, k.isValid = true
  uniform : ∀ k, w.Stores k -> k.IsUniform
  /-- Whatever someone else has set is an entity of the store. -/
  cached : ∀ now items, ⟨none, .set now items⟩ ∈ w.history -> ∀ item ∈ items,
    ∃ k, w.Stores k ∧ item.slot = scheme.slot k
  /-- Whatever is reported as written was given, and complete keys are locked first. -/
  reported : ∀ (i : Nat) (writer : Writer) (result : CallResult), w.writers[i]? = some writer ->
    writer.run.stage.result? = some result -> ∀ (l : Nat) (k : Key),
      writtenAt? result l = some k ->
        w.HasSet i writer ∧ ∃ given, writer.run.keys[l]? = some given ∧ Store.CanBecome given k

theorem faithful_of_empty (h : w.Empty) : Faithful scheme w where
  sound := by
    have hfresh : w.Fresh := by
      refine ⟨h.history, ?_⟩
      rw [h.writers]
      intro writer hmem
      cases hmem
    rw [← h.cache]
    exact sound_of_fresh hfresh
  unruled := by
    rw [h.writers]
    intro writer hmem
    cases hmem
  valid := by
    rw [h.writers]
    intro writer hmem
    cases hmem
  uniform := by
    intro k hk
    rw [Stores, Store.find?, h.entities] at hk
    cases hk
  cached := by
    rw [h.history]
    intro now items hmem
    cases hmem
  reported := by
    rw [h.writers]
    intro i writer result hwriter
    cases hwriter

theorem Faithful.started {t : Traffic} (h : Faithful scheme t.world) {writers : List Writer}
    (hincoming : ∀ writer ∈ writers, writer.Incoming) :
    Faithful scheme (t.started writers).world where
  sound := h.sound.started hincoming
  unruled := by
    intro writer hmem
    rcases List.mem_append.mp hmem with hold | hnew
    · exact h.unruled writer hold
    · rw [(hincoming writer hnew).opening]
      trivial
  valid := by
    intro writer hmem
    rcases List.mem_append.mp hmem with hold | hnew
    · exact h.valid writer hold
    · exact (hincoming writer hnew).valid
  uniform := h.uniform
  cached := h.cached
  reported := by
    intro i writer result hwriter hresult
    rcases Traffic.getElem?_started hwriter with hold | ⟨_, hnew⟩
    · exact h.reported i writer result hold hresult
    · rw [(hincoming writer hnew).opening] at hresult
      cases hresult

theorem FaithfulStep.isUnruled (h : FaithfulStep scheme w w')
    (hunruled : ∀ writer ∈ w.writers, writer.run.stage.IsUnruled) :
    ∀ writer ∈ w'.writers, writer.run.stage.IsUnruled := by
  cases h with
  | @moved i writer hwriter hfaults =>
      intro other hmem
      rcases List.mem_or_eq_of_mem_set hmem with hold | hnext
      · exact hunruled other hold
      · rw [hnext]
        exact (w.turns_moved i writer).isUnruled hfaults
          (hunruled writer (List.mem_of_getElem? hwriter))
  | cached hitems => exact hunruled
  | erased slots => exact hunruled
  | meanwhile hquiet hstore => exact hunruled

/-- What someone else has set was there before, or is from the store. -/
theorem FaithfulStep.cached_or (h : FaithfulStep scheme w w') {now : Millis}
    {items : List CacheItem} (hmem : ⟨none, .set now items⟩ ∈ w'.history) :
    ⟨none, .set now items⟩ ∈ w.history ∨
      ∀ item ∈ items, ∃ k, w.Stores k ∧ item.slot = scheme.slot k := by
  cases h with
  | moved hwriter hfaults =>
      rcases List.mem_append.mp hmem with hnew | hold
      · rw [Option.mem_toList, Option.map_eq_some_iff] at hnew
        rcases hnew with ⟨deed, _, hentry⟩
        cases hentry
      · exact Or.inl hold
  | @cached given hitems =>
      rcases List.mem_cons.mp hmem with heq | hold
      · right
        intro item hitem
        cases heq
        exact hitems item ((List.takeWhile_prefix _).subset hitem)
      · exact Or.inl hold
  | erased slots =>
      rcases List.mem_cons.mp hmem with heq | hold
      · cases heq
      · exact Or.inl hold
  | meanwhile hquiet hstore => exact Or.inl hmem

theorem Faithful.reported_next (h : Faithful scheme w) {i : Nat} {writer : Writer}
    (hwriter : w.writers[i]? = some writer) {result : CallResult}
    (hresult : (w.next writer).run.stage.result? = some result) {l : Nat} {k : Key}
    (hwritten : writtenAt? result l = some k) :
    (w.moved i writer).HasSet i (w.next writer) ∧
      ∃ given, (w.next writer).run.keys[l]? = some given ∧ Store.CanBecome given k := by
  have hcontinues := w.continues_next writer
  have hset (hset : w.HasSet i writer) : (w.moved i writer).HasSet i (w.next writer) := by
    rcases hset with ⟨now, hmem⟩
    refine ⟨now, ?_⟩
    rw [deedsOf_moved_self, hcontinues.items_eq]
    exact List.mem_append_right _ hmem
  have hunruled := h.unruled writer (List.mem_of_getElem? hwriter)
  rw [hcontinues.keys]
  rcases (w.turns_moved i writer).result?_eq_or hunruled hresult hwritten with
    hbefore | ⟨⟨c, rules, call, hstage⟩, hgiven⟩
  · rcases h.reported i writer result hwriter hbefore l k hwritten with ⟨hold, hgiven⟩
    exact ⟨hset hold, hgiven⟩
  · have htells := h.sound.tells i writer hwriter
    rw [hstage] at htells
    rcases htells with ⟨now, hdeeds⟩
    refine ⟨hset ⟨now, ?_⟩, hgiven⟩
    rw [hdeeds]
    exact List.mem_cons_self

theorem Faithful.step (h : Faithful scheme w) (hstep : FaithfulStep scheme w w') :
    Faithful scheme w' where
  sound := h.sound.step hstep.step
  unruled := hstep.isUnruled h.unruled
  valid := by
    intro writer' hmem
    rcases List.mem_iff_getElem?.mp hmem with ⟨i, hwriter'⟩
    rcases hstep.step.continues hwriter' with ⟨writer, hwriter, hcontinues⟩
    rw [hcontinues.keys]
    exact h.valid writer (List.mem_of_getElem? hwriter)
  uniform := by
    intro k hk
    rcases hstep.stores_or hk with hold | ⟨writer, hmem, given, hgiven, hbecome⟩
    · exact h.uniform k hold
    · exact hbecome.isUniform (Key.space_eq_of_mem_elements (h.valid writer hmem given hgiven))
  cached := by
    intro now items hmem item hitem
    have hstored : ∃ k, w.Stores k ∧ item.slot = scheme.slot k := by
      rcases hstep.cached_or hmem with hold | hnew
      · exact h.cached now items hold item hitem
      · exact hnew item hitem
    rcases hstored with ⟨k, hk, hslot⟩
    exact ⟨k, hstep.stores hk, hslot⟩
  reported := by
    intro i writer' result hwriter' hresult l k hwritten
    rcases hstep.step.continues hwriter' with ⟨writer, hwriter, _⟩
    rcases hstep.step.own_or_other hwriter with hown | ⟨hsame, hdeeds⟩
    · rw [hown, getElem?_moved_self hwriter, Option.some.injEq] at hwriter'
      rw [hown, ← hwriter']
      rw [← hwriter'] at hresult
      exact h.reported_next hwriter hresult hwritten
    · rw [hsame, Option.some.injEq] at hwriter'
      rw [HasSet, hdeeds, ← hwriter']
      rw [← hwriter'] at hresult
      exact h.reported i writer result hwriter hresult l k hwritten

end World

theorem Traffic.Reaches.faithful {scheme : LockScheme} {start t : Traffic}
    (h : Reaches (World.FaithfulStep scheme) start t) (hempty : start.world.Empty) :
    World.Faithful scheme t.world :=
  h.induct (World.faithful_of_empty hempty) (fun _ _ h hincoming => h.started hincoming)
    (fun _ _ h hstep => h.step hstep)

end Simulation
end WriteLatch
