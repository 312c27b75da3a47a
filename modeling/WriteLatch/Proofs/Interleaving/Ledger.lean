import WriteLatch.Proofs.Interleaving.Answers
import WriteLatch.Proofs.Interleaving.Returns
import WriteLatch.Proofs.Store.Entities

/-!
# The ledger of a store

A store that nobody else writes to is what the calls carried out so far have
made of it.  They are carried out one after another, each of them once at most,
and in whatever order the transactions come to them.  A transaction whose call
was carried out returns the reply to it, and one whose call was not returns a
failure.
-/

namespace WriteLatch

/-- The calls of the store for the pieces at some positions. -/
def Client.callsOf (c : Client) (keys : List Key) (values : List Value) (order : List Nat) :
    List (List Key × List Value) :=
  order.filterMap fun j =>
    (c.pieces keys values)[j]?.map fun piece => (piece.keys, piece.values)

namespace Simulation

/-!
## Answers that are left as they are
-/

/-- The rule may take its time, cancel, fail or crash, but it changes nothing
about an answer. -/
structure StoreRule.LeavesAnswers (rule : StoreRule) : Prop where
  reject : rule.reject = none
  reply : rule.reply = none

theorem StoreRule.LeavesAnswers.slotsAfter {rule : StoreRule} (h : rule.LeavesAnswers)
    (keys : List Key) (slots : List Slot) : rule.slotsAfter keys slots = slots := by
  have hreject : rule.rejectIn keys slots = slots := by
    rw [StoreRule.rejectIn, h.reject]
    cases rule.only <;> rfl
  rw [StoreRule.slotsAfter, h.reply, hreject]

section Answers

variable {rules : List StoreRule} (h : ∀ rule ∈ rules, rule.LeavesAnswers)
include h

theorem foldl_slotsAfter (keys : List Key) (slots : List Slot) :
    rules.foldl (fun slots rule => rule.slotsAfter keys slots) slots = slots := by
  induction rules generalizing slots with
  | nil => rfl
  | cons rule rest ih =>
      rw [List.foldl_cons, (h rule List.mem_cons_self).slotsAfter]
      exact ih (fun other hmem => h other (List.mem_cons_of_mem rule hmem)) slots

theorem any_positional_eq_false :
    (rules.any fun rule => rule.reply == some .positional) = false := by
  rw [List.any_eq_false]
  intro rule hmem
  rw [(h rule hmem).reply]
  exact Bool.false_ne_true

theorem answerAfter_resultOf (keys : List Key) (slots : List Slot) :
    answerAfter rules keys (Store.resultOf slots) = Store.resultOf slots := by
  unfold Store.resultOf
  cases hkeys : slots.mapM fun slot => slot.toOption with
  | none => simp only [answerAfter, foldl_slotsAfter h, hkeys]
  | some written =>
      have hslots : slots = written.map .ok := mapM_toOption_eq_some_iff.mp hkeys
      rw [hslots] at hkeys
      simp only [answerAfter, foldl_slotsAfter h, hkeys, any_positional_eq_false h,
        Bool.false_eq_true, if_false]

theorem answerAfter_putAll (s : Store) (keys : List Key) (values : List Value) :
    answerAfter rules keys (s.putAll keys values).1 = (s.putAll keys values).1 := by
  cases hrefuses : s.refuses keys values with
  | true =>
      rcases Store.putAll_of_refuses hrefuses with ⟨f, hput⟩
      rw [hput, answerAfter_wholesale]
  | false =>
      rw [Store.putAll_of_not_refuses hrefuses]
      exact answerAfter_resultOf h keys _

end Answers

namespace Stage

/-- The rules that were taken for the call of the store leave its answer as it
is. -/
def IsPlainlyRuled : Stage -> Prop
  | .writing _ rules _ => ∀ rule ∈ rules, rule.LeavesAnswers
  | .opening => True
  | .locking _ _ => True
  | .releasing _ _ _ => True
  | .ended _ => True

end Stage

theorem Turns.isPlainlyRuled {run : Run} {scene : Scene} {stage stage' : Stage} {store : Store}
    (h : Turns run scene stage store stage')
    (hrules : ∀ rule ∈ scene.faults.store, rule.LeavesAnswers) (hstage : stage.IsPlainlyRuled) :
    stage'.IsPlainlyRuled := by
  have hphase (phase : Transaction.Phase) : (Stage.ofPhase phase).IsPlainlyRuled := by
    cases phase with
    | writing c =>
        intro rule hmem
        cases hmem
    | opening | locking c | releasing c result | finished result => trivial
  cases h with
  | rests stage => exact hstage
  | @putGoesOn c rules rules' call call' htaken hcall =>
      rcases htaken with hsame | ⟨_, hnew⟩
      · rw [hsame]
        exact hstage
      · rw [hnew]
        intro rule hmem
        exact hrules rule (List.mem_filter.mp hmem).1
  | opened hanswer => exact hphase _
  | setEnded hended => exact hphase _
  | putEnded hended => exact hphase _
  | deleteEnded hended => exact hphase _
  | setGoesOn hcall | setCrashed c beats message | putCrashed c rules beats message
  | deleteGoesOn hcall | deleteCrashed c result beats message => trivial

/-!
## Steps with the store to themselves
-/

namespace World

/-- A step in a world in which nobody else writes to the store, and its answers
are left as they are. -/
inductive SoleStep (w : World) : World -> Prop where
  | moved {i : Nat} {writer : Writer} (hwriter : w.writers[i]? = some writer)
      (hrules : ∀ rule ∈ w.scene.faults.store, rule.LeavesAnswers) :
      SoleStep w (w.moved i writer)
  | stored (items : List CacheItem) : SoleStep w (w.stored items)
  | erased (slots : List String) : SoleStep w (w.erased slots)
  | meanwhile {scene : Scene} (hquiet : w.scene.Quiet scene)
      (hstore : scene.store = w.scene.store) : SoleStep w { w with scene := scene }

theorem SoleStep.step {w w' : World} (h : SoleStep w w') : Step w w' := by
  cases h with
  | moved hwriter hrules => exact Step.moved hwriter
  | stored items => exact Step.stored items
  | erased slots => exact Step.erased slots
  | meanwhile hquiet hstore => exact Step.meanwhile hquiet

theorem reaches_of_sole {w w' : World} (h : Relation.ReflTransGen SoleStep w w') :
    Reaches w w' :=
  h.lift id fun _ _ hstep => hstep.step

/-- The calls of the store that the transactions at some positions make, the
last one first. -/
def callsOf (w : World) (order : List Nat) : List (List Key × List Value) :=
  order.reverse.filterMap fun i =>
    w.writers[i]?.map fun writer => (writer.run.keys, writer.run.values)

theorem callsOf_cons {w : World} {i : Nat} {writer : Writer} (h : w.writers[i]? = some writer)
    (earlier : List Nat) :
    w.callsOf (i :: earlier) = w.callsOf earlier ++ [(writer.run.keys, writer.run.values)] := by
  rw [callsOf, List.reverse_cons, List.filterMap_append, List.filterMap_cons, h]
  rfl

/-- The store after some calls, of which the last comes first. -/
def storeAfter (start : World) (order : List Nat) : Store :=
  start.scene.store.afterCalls (start.callsOf order)

/-- What the calls carried out since the start, the last one first, have to do
with the store and with the results. -/
structure Ledger (start w : World) (order : List Nat) : Prop where
  nodup : order.Nodup
  store : w.scene.store = start.storeAfter order
  /-- Who has called the store does not call it again. -/
  called : ∀ i ∈ order, ∃ writer, w.writers[i]? = some writer ∧
    (writer.run.stage.result?.isSome = true ∨
      ∃ message, writer.run.stage = .ended (.crashed message))
  replied : ∀ later i earlier, order = later ++ i :: earlier ->
    ∀ writer result, w.writers[i]? = some writer -> writer.run.stage.result? = some result ->
      result = ((start.storeAfter earlier).putAll writer.run.keys writer.run.values).1
  failed : ∀ i writer result, i ∉ order -> w.writers[i]? = some writer ->
    writer.run.stage.result? = some result -> ∃ f, result = Transaction.wholesale f
  rules : ∀ writer ∈ w.writers, writer.run.stage.IsPlainlyRuled

theorem ledger_of_fresh {start : World} (h : start.Fresh) : Ledger start start [] where
  nodup := List.nodup_nil
  store := rfl
  called := by
    intro i hmem
    cases hmem
  replied := by
    intro later i earlier hempty
    cases later <;> cases hempty
  failed := by
    intro i writer result _ hwriter hresult
    rw [h.opening writer (List.mem_of_getElem? hwriter)] at hresult
    cases hresult
  rules := by
    intro writer hmem
    rw [h.opening writer hmem]
    trivial

section Steps

variable {start w : World} {order : List Nat}

/-- Nothing has happened to the transactions or to the store. -/
theorem Ledger.of_eq {w' : World} (h : Ledger start w order) (hwriters : w'.writers = w.writers)
    (hstore : w'.scene.store = w.scene.store) : Ledger start w' order where
  nodup := h.nodup
  store := hstore.trans h.store
  called := by
    rw [hwriters]
    exact h.called
  replied := by
    rw [hwriters]
    exact h.replied
  failed := by
    rw [hwriters]
    exact h.failed
  rules := by
    rw [hwriters]
    exact h.rules

theorem Ledger.rules_moved (h : Ledger start w order) {i : Nat} {writer : Writer}
    (hwriter : w.writers[i]? = some writer)
    (hrules : ∀ rule ∈ w.scene.faults.store, rule.LeavesAnswers) :
    ∀ other ∈ (w.moved i writer).writers, other.run.stage.IsPlainlyRuled := by
  intro other hmem
  rcases List.mem_or_eq_of_mem_set hmem with hold | hnext
  · exact h.rules other hold
  · rw [hnext]
    exact (w.turns_moved i writer).isPlainlyRuled hrules
      (h.rules writer (List.mem_of_getElem? hwriter))

/-- A move that leaves the store alone, and comes to no result but a failure. -/
theorem Ledger.moved_apart (h : Ledger start w order) {i : Nat} {writer : Writer}
    (hwriter : w.writers[i]? = some writer)
    (hrules : ∀ rule ∈ w.scene.faults.store, rule.LeavesAnswers)
    (hstore : (w.moved i writer).scene.store = w.scene.store)
    (hcalled : i ∈ order -> (w.next writer).run.stage.result?.isSome = true ∨
      ∃ message, (w.next writer).run.stage = .ended (.crashed message))
    (hresult : ∀ result, (w.next writer).run.stage.result? = some result ->
      writer.run.stage.result? = some result ∨
        (i ∉ order ∧ ∃ f, result = Transaction.wholesale f)) :
    Ledger start (w.moved i writer) order where
  nodup := h.nodup
  store := hstore.trans h.store
  called := by
    intro j hmem
    by_cases hij : j = i
    · rw [hij]
      exact ⟨_, getElem?_moved_self hwriter, hcalled (hij ▸ hmem)⟩
    · rcases h.called j hmem with ⟨other, hother, hstands⟩
      exact ⟨other, (w.getElem?_moved_of_ne writer hij).trans hother, hstands⟩
  replied := by
    intro later j earlier horder other result hother hfound
    rcases getElem?_moved hother with ⟨hij, hnext⟩ | ⟨_, hsame⟩
    · rw [hnext] at hfound ⊢
      rcases hresult result hfound with hbefore | ⟨habsent, _⟩
      · have hcontinues := w.continues_next writer
        rw [hcontinues.keys, hcontinues.values]
        exact h.replied later j earlier horder writer result (hij ▸ hwriter) hbefore
      · rw [horder, ← hij] at habsent
        exact absurd (List.mem_append_right later List.mem_cons_self) habsent
    · exact h.replied later j earlier horder other result hsame hfound
  failed := by
    intro j other result habsent hother hfound
    rcases getElem?_moved hother with ⟨hij, hnext⟩ | ⟨_, hsame⟩
    · rw [hnext] at hfound
      rcases hresult result hfound with hbefore | ⟨_, hfailed⟩
      · exact h.failed j writer result habsent (hij ▸ hwriter) hbefore
      · exact hfailed
    · exact h.failed j other result habsent hsame hfound
  rules := h.rules_moved hwriter hrules

/-- A move in which the store carries out the call of a transaction. -/
theorem Ledger.moved_calling (h : Ledger start w order) (hreach : Reaches start w) {i : Nat}
    {writer : Writer} (hwriter : w.writers[i]? = some writer)
    (hrules : ∀ rule ∈ w.scene.faults.store, rule.LeavesAnswers) (habsent : i ∉ order)
    (hstore : (w.moved i writer).scene.store =
      (w.scene.store.putAll writer.run.keys writer.run.values).2)
    (hreply : (w.next writer).run.stage.result? =
      some (w.scene.store.putAll writer.run.keys writer.run.values).1) :
    Ledger start (w.moved i writer) (i :: order) where
  nodup := List.nodup_cons.mpr ⟨habsent, h.nodup⟩
  store := by
    rcases hreach.continues hwriter with ⟨first, hfirst, hcontinues⟩
    rw [storeAfter, callsOf_cons hfirst, Store.afterCalls_concat, ← storeAfter, ← h.store, hstore,
      hcontinues.keys, hcontinues.values]
  called := by
    intro j hmem
    by_cases hij : j = i
    · rw [hij]
      exact ⟨_, getElem?_moved_self hwriter, Or.inl (Option.isSome_of_eq_some hreply)⟩
    · rcases h.called j ((List.mem_cons.mp hmem).resolve_left hij) with ⟨other, hother, hstands⟩
      exact ⟨other, (w.getElem?_moved_of_ne writer hij).trans hother, hstands⟩
  replied := by
    intro later j earlier horder other result hother hfound
    cases later with
    | nil =>
        cases horder
        rw [getElem?_moved_self hwriter, Option.some.injEq] at hother
        rw [← hother, hreply, Option.some.injEq] at hfound
        have hcontinues := w.continues_next writer
        rw [← hother, hcontinues.keys, hcontinues.values, ← h.store]
        exact hfound.symm
    | cons last later =>
        rw [List.cons_append, List.cons.injEq] at horder
        rcases getElem?_moved hother with ⟨hij, _⟩ | ⟨_, hsame⟩
        · rw [horder.2, ← hij] at habsent
          exact absurd (List.mem_append_right later List.mem_cons_self) habsent
        · exact h.replied later j earlier horder.2 other result hsame hfound
  failed := by
    intro j other result hout hother hfound
    rcases getElem?_moved hother with ⟨hij, _⟩ | ⟨_, hsame⟩
    · rw [hij] at hout
      exact absurd List.mem_cons_self hout
    · exact h.failed j other result (fun hmem => hout (List.mem_cons_of_mem i hmem)) hsame hfound
  rules := h.rules_moved hwriter hrules

/-- Who has no result and has not crashed has not called the store. -/
theorem Ledger.not_mem (h : Ledger start w order) {i : Nat} {writer : Writer}
    (hwriter : w.writers[i]? = some writer) (hresult : writer.run.stage.result? = none)
    (hgoesOn : ∀ message, writer.run.stage ≠ .ended (.crashed message)) : i ∉ order := by
  intro hmem
  rcases h.called i hmem with ⟨other, hother, hstands⟩
  rw [hwriter, Option.some.injEq] at hother
  rw [← hother, hresult] at hstands
  rcases hstands with hsome | ⟨message, hcrashed⟩
  · cases hsome
  · exact hgoesOn message hcrashed

/-- Any move keeps the ledger, with at most one call more. -/
theorem Ledger.moved (h : Ledger start w order) (hreach : Reaches start w) {i : Nat}
    {writer : Writer} (hwriter : w.writers[i]? = some writer)
    (hrules : ∀ rule ∈ w.scene.faults.store, rule.LeavesAnswers) :
    ∃ order', Ledger start (w.moved i writer) order' := by
  have hturns := w.turns_moved i writer
  have hcrashed (message : String) (hstage : writer.run.stage = .ended (.crashed message)) :
      (w.next writer).run.stage = .ended (.crashed message) := by
    rw [hstage] at hturns
    exact eq_of_turns_ended hturns
  cases hnext : (w.next writer).run.stage.result? with
  | none =>
      rcases hturns.result?_eq_none hnext with ⟨hstore, hbefore⟩
      refine ⟨order, h.moved_apart hwriter hrules hstore ?_ ?_⟩
      · intro hmem
        right
        rcases hbefore with hnone | hgone
        · by_contra hgoesOn
          apply h.not_mem hwriter hnone _ hmem
          intro message hstage
          exact hgoesOn ⟨message, hcrashed message hstage⟩
        · exact hgone
      · intro result hresult
        rw [hnext] at hresult
        cases hresult
  | some result =>
      have hgoesOn (message : String) : writer.run.stage ≠ .ended (.crashed message) := by
        intro hstage
        rw [hcrashed message hstage] at hnext
        cases hnext
      have hcalled : i ∈ order -> (w.next writer).run.stage.result?.isSome = true ∨
          ∃ message, (w.next writer).run.stage = .ended (.crashed message) :=
        fun _ => Or.inl (Option.isSome_of_eq_some hnext)
      rcases hturns.result?_cases hnext with
        ⟨hsame, hstore⟩ | ⟨hnone, hstore, hfailed⟩ | ⟨c, rules, beats, hstage, _, hstore, hreply⟩
      · refine ⟨order, h.moved_apart hwriter hrules hstore hcalled ?_⟩
        intro result' hresult
        rw [← hresult, hnext]
        exact Or.inl hsame
      · refine ⟨order, h.moved_apart hwriter hrules hstore hcalled ?_⟩
        intro result' hresult
        rw [hnext, Option.some.injEq] at hresult
        rw [← hresult]
        exact Or.inr ⟨h.not_mem hwriter hnone hgoesOn, hfailed⟩
      · have hplain := h.rules writer (List.mem_of_getElem? hwriter)
        rw [hstage] at hplain
        rw [answerAfter_putAll hplain] at hreply
        have hnone : writer.run.stage.result? = none := by rw [hstage]; rfl
        rw [hreply] at hnext
        exact ⟨i :: order, h.moved_calling hreach hwriter hrules
          (h.not_mem hwriter hnone hgoesOn) hstore hnext⟩

theorem Ledger.step (h : Ledger start w order) (hreach : Reaches start w) {w' : World}
    (hstep : SoleStep w w') : ∃ order', Ledger start w' order' := by
  cases hstep with
  | moved hwriter hrules => exact h.moved hreach hwriter hrules
  | stored items => exact ⟨order, h.of_eq rfl rfl⟩
  | erased slots => exact ⟨order, h.of_eq rfl rfl⟩
  | meanwhile hquiet hstore => exact ⟨order, h.of_eq rfl hstore⟩

end Steps

/-- Whatever order the transactions take turns in, there is one in which the store
has carried out their calls. -/
theorem exists_ledger {start w : World} (hfresh : start.Fresh)
    (hreach : Relation.ReflTransGen SoleStep start w) : ∃ order, Ledger start w order := by
  induction hreach with
  | refl => exact ⟨[], ledger_of_fresh hfresh⟩
  | tail hreach hstep ih =>
      rcases ih with ⟨order, hledger⟩
      exact hledger.step (reaches_of_sole hreach) hstep

/-- The store after calls for the pieces of a request. -/
theorem storeAfter_dispatched {client : Client} {scene : Scene} {ctx : Context} {keys : List Key}
    {values : List Value} (order : List Nat) :
    storeAfter (dispatched client scene ctx keys values) order =
      scene.store.afterCalls (client.callsOf keys values order.reverse) := by
  have hcalls : (dispatched client scene ctx keys values).callsOf order =
      client.callsOf keys values order.reverse := by
    rw [callsOf, Client.callsOf]
    congr 1
    funext j
    rw [dispatched, List.getElem?_map, Option.map_map]
    rfl
  rw [storeAfter, hcalls]
  rfl

end World
end Simulation
end WriteLatch
