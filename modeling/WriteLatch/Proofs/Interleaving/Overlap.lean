import WriteLatch.Proofs.Interleaving.Ledger

/-!
# Calls that overlap

The entities of a call are written one after another, and nothing keeps the store
from carrying out several calls at the same time.  So a call takes a turn for
every entity, and between two of them other transactions take theirs.  A world in
which every call is carried out in one move is one in which nobody takes a turn
in between.
-/

namespace WriteLatch
namespace Simulation

/-- A call of the store that is being carried out. -/
structure OpenCall where
  context : Context
  rules : List StoreRule
  /-- What has become of the entities so far. -/
  slots : List Slot := []
  rest : List (Key × Value)

/-- Where the next move of a transaction comes to the entities of a call.  A call
that is refused comes to none. -/
def Run.puts? (run : Run) (scene : Scene) : Option (Context × List StoreRule × Scene) :=
  match run.stage with
  | .writing c rules (.serving beats) =>
      match scene.serve beats with
      | (mid, .completed) =>
          if mid.store.refuses run.keys run.values then none else some (c, rules, mid)
      | _ => none
  | _ => none

/-- A world with the calls of the store that are being carried out, by the
positions of their transactions. -/
structure Overlap where
  world : World
  calls : Association Nat OpenCall := []

namespace Overlap

/-- No call is being carried out. -/
def of (w : World) : Overlap :=
  { world := w }

def withStore (p : Overlap) (store : Store) : World :=
  { p.world with scene := { p.world.scene with store := store } }

/-- The store has counted a call and turns to its entities. -/
def began (p : Overlap) (i : Nat) (run : Run) (c : Context) (rules : List StoreRule)
    (mid : Scene) : Overlap :=
  { world := { p.world with
      scene := { mid with store := mid.store.counting run.keys.length } }
    calls := p.calls.put i { context := c, rules := rules, rest := run.keys.zip run.values } }

/-- The store has written the next entity of a call. -/
def wrote (p : Overlap) (i : Nat) (call : OpenCall) (entry : Key × Value)
    (rest : List (Key × Value)) : Overlap :=
  let (slot, store) := p.world.scene.store.write entry.1 entry.2
  { world := p.withStore store
    calls := p.calls.put i { call with slots := call.slots ++ [slot], rest := rest } }

/-- The store has come to the end of a call, and the transaction has its answer. -/
def answered (p : Overlap) (i : Nat) (writer : Writer) (call : OpenCall) : Overlap :=
  let (scene, run) := writer.run.storeAnswered (p.world.sceneOf writer) call.context
    (answerAfter call.rules writer.run.keys (Store.resultOf call.slots))
  { world := { p.world with
      scene := scene
      writers := p.world.writers.set i ⟨writer.scheme, run⟩ }
    calls := p.calls.erase i }

/-- The world after a turn of the writer at a position. -/
def turn (p : Overlap) (i : Nat) (writer : Writer) : Overlap :=
  match p.calls.lookup i with
  | some call =>
      match call.rest with
      | entry :: rest => p.wrote i call entry rest
      | [] => p.answered i writer call
  | none =>
      match writer.run.puts? (p.world.sceneOf writer) with
      | some (c, rules, mid) => p.began i writer.run c rules mid
      | none => { p with world := p.world.moved i writer }

/-- A step over a store that nobody else writes to. -/
inductive Step (p : Overlap) : Overlap -> Prop where
  | turned {i : Nat} {writer : Writer} (h : p.world.writers[i]? = some writer) :
      Step p (p.turn i writer)
  | stored (items : List CacheItem) : Step p { p with world := p.world.stored items }
  | erased (slots : List String) : Step p { p with world := p.world.erased slots }
  | meanwhile {scene : Scene} (hquiet : p.world.scene.Quiet scene)
      (hstore : scene.store = p.world.scene.store) :
      Step p { p with world := { p.world with scene := scene } }

theorem step_of_turn {p p' : Overlap} {i : Nat} {writer : Writer}
    (h : p.world.writers[i]? = some writer) (hturn : p.turn i writer = p') : Step p p' := by
  rw [← hturn]
  exact Step.turned h

abbrev Reaches : Overlap -> Overlap -> Prop :=
  Relation.ReflTransGen Step

/-- The world after turns of the writers at some positions, one after another. -/
def turns (p : Overlap) : List Nat -> Overlap
  | [] => p
  | i :: rest =>
      match p.world.writers[i]? with
      | some writer => (p.turn i writer).turns rest
      | none => p.turns rest

theorem reaches_turns (p : Overlap) (ids : List Nat) : Reaches p (p.turns ids) := by
  induction ids generalizing p with
  | nil => exact Relation.ReflTransGen.refl
  | cons i rest ih =>
      unfold turns
      cases hwriter : p.world.writers[i]? with
      | none => exact ih p
      | some writer => exact Relation.ReflTransGen.head (Step.turned hwriter) (ih _)

/-- The kinds of turns. -/
inductive Turned (p : Overlap) (i : Nat) (writer : Writer) : Overlap -> Prop where
  | moved (hidle : p.calls.lookup i = none)
      (hputs : writer.run.puts? (p.world.sceneOf writer) = none) :
      Turned p i writer { p with world := p.world.moved i writer }
  | began {c : Context} {rules : List StoreRule} {mid : Scene} (hidle : p.calls.lookup i = none)
      (hputs : writer.run.puts? (p.world.sceneOf writer) = some (c, rules, mid)) :
      Turned p i writer (p.began i writer.run c rules mid)
  | wrote {call : OpenCall} {entry : Key × Value} {rest : List (Key × Value)}
      (hcall : p.calls.lookup i = some call) (hrest : call.rest = entry :: rest) :
      Turned p i writer (p.wrote i call entry rest)
  | answered {call : OpenCall} (hcall : p.calls.lookup i = some call) (hrest : call.rest = []) :
      Turned p i writer (p.answered i writer call)

theorem turned_turn (p : Overlap) (i : Nat) (writer : Writer) :
    Turned p i writer (p.turn i writer) := by
  unfold turn
  cases hcall : p.calls.lookup i with
  | some call =>
      cases hrest : call.rest with
      | nil =>
          simp only [hrest]
          exact Turned.answered hcall hrest
      | cons entry rest =>
          simp only [hrest]
          exact Turned.wrote hcall hrest
  | none =>
      cases hputs : writer.run.puts? (p.world.sceneOf writer) with
      | none => exact Turned.moved hcall hputs
      | some put => exact Turned.began hcall hputs

end Overlap

/-!
## A call carried out in one move
-/

namespace Run

variable {run : Run} {scene mid : Scene} {c : Context} {rules : List StoreRule}

theorem exists_beats_of_puts? (h : run.puts? scene = some (c, rules, mid)) :
    ∃ beats, run.stage = .writing c rules (.serving beats) ∧
      scene.serve beats = (mid, .completed) ∧ mid.store.refuses run.keys run.values = false := by
  unfold puts? at h
  split at h
  · rename_i c' rules' beats hstage
    split at h
    · rename_i mid' hserve
      cases hrefuses : mid'.store.refuses run.keys run.values with
      | true =>
          rw [hrefuses, if_pos rfl] at h
          cases h
      | false =>
          rw [hrefuses, if_neg Bool.false_ne_true] at h
          cases h
          exact ⟨beats, hstage, hserve, hrefuses⟩
    · cases h
  · cases h

/-- A call that is due and comes to no entity is refused. -/
theorem refuses_of_puts?_eq_none {beats : List (Beat Failure)} (h : run.puts? scene = none)
    (hstage : run.stage = .writing c rules (.serving beats))
    (hserved : (scene.serve beats).2 = .completed) :
    scene.store.refuses run.keys run.values = true := by
  have hstore := scene.store_serve beats
  cases hserve : scene.serve beats with
  | mk mid served =>
      rw [hserve] at hstore hserved
      cases hserved
      have hsame : mid.store = scene.store := hstore
      simp only [puts?, hstage, hserve, hsame] at h
      cases hrefuses : scene.store.refuses run.keys run.values with
      | true => rfl
      | false =>
          rw [hrefuses, if_neg Bool.false_ne_true] at h
          cases h

end Run

/-- There is a result, or there will be none. -/
def Stage.IsSettled (stage : Stage) : Prop :=
  stage.result?.isSome = true ∨ ∃ message, stage = .ended (.crashed message)

namespace Turns

variable {run : Run} {scene : Scene} {stage stage' : Stage} {store : Store}

theorem isSettled (h : Turns run scene stage store stage') (hsettled : stage.IsSettled) :
    stage'.IsSettled := by
  rcases hsettled with hresult | ⟨message, hcrashed⟩
  · cases hnext : stage'.result? with
    | some result => exact Or.inl (Option.isSome_of_eq_some hnext)
    | none =>
        rcases h.result?_eq_none hnext with ⟨_, hnone | hgone⟩
        · rw [hnone] at hresult
          cases hresult
        · exact Or.inr hgone
  · rw [hcrashed] at h
    exact Or.inr ⟨message, eq_of_turns_ended h⟩

/-- A move that comes to no entity of a call writes nothing, and gives no result but a
failure. -/
theorem of_puts?_eq_none (h : Turns run scene run.stage store stage')
    (hputs : run.puts? scene = none) :
    store.entities = scene.store.entities ∧ store.maxEntitySize = scene.store.maxEntitySize ∧
      ∀ result, stage'.result? = some result ->
        run.stage.result? = some result ∨ ∃ f, result = Transaction.wholesale f := by
  cases hnext : stage'.result? with
  | none =>
      rw [(h.result?_eq_none hnext).1]
      exact ⟨rfl, rfl, fun _ hresult => nomatch hresult⟩
  | some result =>
      rcases h.result?_cases hnext with
        ⟨hsame, hstore⟩ | ⟨_, hstore, hfailed⟩ | ⟨c, rules, beats, hstage, hserved, hstore, hreply⟩
      · rw [hstore, hsame]
        exact ⟨rfl, rfl, fun _ hresult => Or.inl hresult⟩
      · rw [hstore]
        refine ⟨rfl, rfl, ?_⟩
        rintro _ ⟨⟩
        exact Or.inr hfailed
      · have hrefuses := Run.refuses_of_puts?_eq_none hputs hstage hserved
        rcases Store.putAll_of_refuses hrefuses with ⟨f, hput⟩
        rw [hput] at hstore hreply
        rw [hstore]
        refine ⟨rfl, rfl, ?_⟩
        rintro _ ⟨⟩
        exact Or.inr ⟨f, hreply⟩

end Turns

namespace Overlap

variable {w : World} {i : Nat} {writer : Writer}

theorem put_singleton (i : Nat) (call call' : OpenCall) :
    Association.put [(i, call)] i call' = [(i, call')] := by
  simp [Association.put, Association.erase]

theorem erase_singleton (i : Nat) (call : OpenCall) : Association.erase [(i, call)] i = [] := by
  simp [Association.erase]

/-- While nobody else takes a turn, the entities of a call are written in a row. -/
theorem reaches_writeAll {entries : List (Key × Value)} (hwriter : w.writers[i]? = some writer)
    {call : OpenCall} (hrest : call.rest = entries) :
    Reaches ⟨w, [(i, call)]⟩
      ⟨(of w).withStore (w.scene.store.writeAll entries).2,
        [(i, { call with
          slots := call.slots ++ (w.scene.store.writeAll entries).1
          rest := [] })]⟩ := by
  induction entries generalizing w call with
  | nil =>
      rw [Store.writeAll, List.append_nil, ← hrest]
      exact Relation.ReflTransGen.refl
  | cons entry entries ih =>
      have hturn : turn ⟨w, [(i, call)]⟩ i writer =
          ⟨(of w).withStore (w.scene.store.write entry.1 entry.2).2,
            [(i, { call with
              slots := call.slots ++ [(w.scene.store.write entry.1 entry.2).1]
              rest := entries })]⟩ := by
        simp only [turn, List.lookup_cons_self, hrest, wrote, put_singleton]
        rfl
      have hothers := @ih ((of w).withStore (w.scene.store.write entry.1 entry.2).2) hwriter
        { call with
          slots := call.slots ++ [(w.scene.store.write entry.1 entry.2).1]
          rest := entries } rfl
      rw [List.append_assoc] at hothers
      exact Relation.ReflTransGen.head (step_of_turn hwriter hturn) hothers

/-- The move in which a call is carried out. -/
theorem moved_of_puts? {c : Context} {rules : List StoreRule} {mid : Scene}
    (hputs : writer.run.puts? (w.sceneOf writer) = some (c, rules, mid)) :
    w.moved i writer =
      let moved := writer.run.putEntities mid c rules
      { w with scene := moved.1, writers := w.writers.set i ⟨writer.scheme, moved.2⟩ } := by
  rcases Run.exists_beats_of_puts? hputs with ⟨beats, hstage, hserve, _⟩
  have hmove : writer.run.move (w.sceneOf writer) =
      let moved := writer.run.putEntities mid c rules
      (moved.1, moved.2, .goesOn) := by
    simp only [Run.move, Run.advance, hstage, hserve]
    rfl
  have hdeed : writer.run.deed? (w.sceneOf writer) = none := by
    simp only [Run.deed?, hstage]
  rw [World.moved, World.next, hmove, hdeed]
  rfl

/-- A call may be carried out in one move, as if nobody had taken a turn in
between. -/
theorem reaches_moved (hwriter : w.writers[i]? = some writer) :
    Reaches (of w) (of (w.moved i writer)) := by
  cases hputs : writer.run.puts? (w.sceneOf writer) with
  | none =>
      apply Relation.ReflTransGen.single
      apply step_of_turn hwriter
      simp only [turn, of, List.lookup_nil, hputs]
  | some put =>
      rcases put with ⟨c, rules, mid⟩
      rcases Run.exists_beats_of_puts? hputs with ⟨beats, _, hserve, hrefuses⟩
      have hscheme : mid.scheme = writer.scheme := by
        have hsame := (w.sceneOf writer).scheme_serve beats
        rw [hserve] at hsame
        exact hsame
      have hbegan : (of w).turn i writer = (of w).began i writer.run c rules mid := by
        simp only [turn, of, List.lookup_nil, hputs]
      have hwritten := @reaches_writeAll ((of w).began i writer.run c rules mid).world i writer _
        hwriter { context := c, rules := rules, rest := writer.run.keys.zip writer.run.values } rfl
      apply Relation.ReflTransGen.head (step_of_turn hwriter hbegan)
      apply Relation.ReflTransGen.tail hwritten
      apply step_of_turn hwriter
      rw [moved_of_puts? hputs, Run.putEntities, Store.putAll_of_not_refuses hrefuses]
      simp only [turn, List.lookup_cons_self, answered, erase_singleton, World.sceneOf, ← hscheme]
      rfl

/-- So a run in which every call is carried out in one move is one in which calls may
overlap. -/
theorem reaches_of_sole {w w' : World} (h : Relation.ReflTransGen World.SoleStep w w') :
    Reaches (of w) (of w') := by
  induction h with
  | refl => exact Relation.ReflTransGen.refl
  | tail hreach hstep ih =>
      cases hstep with
      | moved hwriter hrules => exact ih.trans (reaches_moved hwriter)
      | stored items => exact ih.tail (Step.stored items)
      | erased slots => exact ih.tail (Step.erased slots)
      | meanwhile hquiet hstore => exact ih.tail (Step.meanwhile hquiet hstore)

/-!
## What has been written
-/

/-- What the transaction at a position has written, of all that was written. -/
def partOf (log : List (Nat × Key × Value)) (i : Nat) : List (Key × Value) :=
  (log.filter fun write => write.1 == i).map Prod.snd

theorem partOf_append (first last : List (Nat × Key × Value)) (i : Nat) :
    partOf (first ++ last) i = partOf first i ++ partOf last i := by
  rw [partOf, List.filter_append, List.map_append]
  rfl

theorem partOf_cons_self (i : Nat) (entry : Key × Value) (log : List (Nat × Key × Value)) :
    partOf ((i, entry) :: log) i = entry :: partOf log i := by
  simp [partOf]

theorem partOf_cons_of_ne {i j : Nat} (h : j ≠ i) (entry : Key × Value)
    (log : List (Nat × Key × Value)) : partOf ((i, entry) :: log) j = partOf log j := by
  simp [partOf, h.symm]

theorem mem_partOf {log : List (Nat × Key × Value)} {i : Nat} {entry : Key × Value} :
    entry ∈ partOf log i ↔ (i, entry) ∈ log := by
  simp [partOf]

theorem lastValue?_filter_singleton (p : Key × Value -> Bool) (entry : Key × Value) (k : Key) :
    lastValue? ([entry].filter p) k =
      if p entry = true ∧ k = entry.1 then some entry.2 else none := by
  cases hp : p entry with
  | true => simp [hp, lastValue?_cons, lastValue?_eq_none]
  | false => simp [hp, lastValue?_eq_none]

/-- How far the call of a transaction has come, by what it has written. -/
inductive Entered (writer : Writer) : Option OpenCall -> List (Key × Value) -> Prop where
  | uncalled (h : ∀ result, writer.run.stage.result? = some result ->
      ∃ f, result = Transaction.wholesale f) : Entered writer none []
  | writing {call : OpenCall} {written : List (Key × Value)}
      (hresult : writer.run.stage.result? = none)
      (h : written ++ call.rest = writer.run.keys.zip writer.run.values) :
      Entered writer (some call) written
  | carriedOut (h : writer.run.stage.IsSettled) :
      Entered writer none (writer.run.keys.zip writer.run.values)

/-- What the transactions have written since the start, one entity after another. -/
structure Logged (start : World) (p : Overlap) (log : List (Nat × Key × Value)) : Prop where
  size : p.world.scene.store.maxEntitySize = start.scene.store.maxEntitySize
  found : ∀ k, p.world.scene.store.find? k =
    (lastValue? ((log.map Prod.snd).filter start.scene.store.accepts) k).or
      (start.scene.store.find? k)
  entered : ∀ i writer, p.world.writers[i]? = some writer ->
    Entered writer (p.calls.lookup i) (partOf log i)
  unknown : ∀ i, p.world.writers[i]? = none -> partOf log i = []

section Steps

variable {start : World} {p : Overlap} {log : List (Nat × Key × Value)}

theorem logged_of_fresh (h : start.Fresh) : Logged start (of start) [] where
  size := rfl
  found := fun _ => rfl
  entered := by
    intro i writer hwriter
    apply Entered.uncalled
    intro result hresult
    rw [h.opening writer (List.mem_of_getElem? hwriter)] at hresult
    cases hresult
  unknown := fun _ _ => rfl

/-- Nothing has happened to the transactions or to the store. -/
theorem Logged.of_eq {w : World} (h : Logged start p log) (hwriters : w.writers = p.world.writers)
    (hstore : w.scene.store = p.world.scene.store) : Logged start { p with world := w } log where
  size := by
    rw [hstore]
    exact h.size
  found := by
    rw [hstore]
    exact h.found
  entered := by
    rw [hwriters]
    exact h.entered
  unknown := by
    rw [hwriters]
    exact h.unknown

/-- A turn changes nothing about the transactions at other positions. -/
theorem Logged.of_own {p' : Overlap} {log' : List (Nat × Key × Value)} {i : Nat} {writer : Writer}
    (h : Logged start p log) (hown : p'.world.writers[i]? = some writer)
    (hentered : Entered writer (p'.calls.lookup i) (partOf log' i))
    (hwriters : ∀ j, j ≠ i -> p'.world.writers[j]? = p.world.writers[j]?)
    (hcalls : ∀ j, j ≠ i -> p'.calls.lookup j = p.calls.lookup j)
    (hparts : ∀ j, j ≠ i -> partOf log' j = partOf log j)
    (hsize : p'.world.scene.store.maxEntitySize = start.scene.store.maxEntitySize)
    (hfound : ∀ k, p'.world.scene.store.find? k =
      (lastValue? ((log'.map Prod.snd).filter start.scene.store.accepts) k).or
        (start.scene.store.find? k)) : Logged start p' log' where
  size := hsize
  found := hfound
  entered := by
    intro j other hother
    by_cases hij : j = i
    · rw [hij, hown, Option.some.injEq] at hother
      rw [hij, ← hother]
      exact hentered
    · rw [hcalls j hij, hparts j hij]
      exact h.entered j other ((hwriters j hij).symm.trans hother)
  unknown := by
    intro j hnone
    by_cases hij : j = i
    · rw [hij, hown] at hnone
      cases hnone
    · rw [hparts j hij]
      exact h.unknown j ((hwriters j hij).symm.trans hnone)

variable {i : Nat} {writer : Writer} (h : Logged start p log)
  (hwriter : p.world.writers[i]? = some writer)
include h hwriter

theorem Logged.moved (hidle : p.calls.lookup i = none)
    (hputs : writer.run.puts? (p.world.sceneOf writer) = none) :
    Logged start { p with world := p.world.moved i writer } log := by
  have hturns := p.world.turns_moved i writer
  rcases hturns.of_puts?_eq_none hputs with ⟨hentities, hlimits, hresult⟩
  apply h.of_own (World.getElem?_moved_self hwriter)
  case hentered =>
    have hentered := h.entered i writer hwriter
    rw [hidle] at hentered ⊢
    generalize partOf log i = written at hentered ⊢
    cases hentered with
    | uncalled hfailed =>
        apply Entered.uncalled
        intro result hnext
        rcases hresult result hnext with hbefore | hfailure
        · exact hfailed result hbefore
        · exact hfailure
    | carriedOut hsettled =>
        have hcontinues := p.world.continues_next writer
        rw [← hcontinues.keys, ← hcontinues.values]
        exact Entered.carriedOut (hturns.isSettled hsettled)
  case hwriters => exact fun j hij => p.world.getElem?_moved_of_ne writer hij
  case hcalls => exact fun _ _ => rfl
  case hparts => exact fun _ _ => rfl
  case hsize => exact hlimits.trans h.size
  case hfound =>
    intro k
    rw [← h.found, Store.find?, Store.find?, hentities]
    rfl

theorem Logged.began {c : Context} {rules : List StoreRule} {mid : Scene}
    (hidle : p.calls.lookup i = none)
    (hputs : writer.run.puts? (p.world.sceneOf writer) = some (c, rules, mid)) :
    Logged start (p.began i writer.run c rules mid) log := by
  rcases Run.exists_beats_of_puts? hputs with ⟨beats, hstage, hserve, _⟩
  have hstore : mid.store = p.world.scene.store := by
    have hsame := (p.world.sceneOf writer).store_serve beats
    rw [hserve] at hsame
    exact hsame
  have hown : (p.began i writer.run c rules mid).world.writers[i]? = some writer := hwriter
  apply h.of_own hown
  case hentered =>
    have hentered := h.entered i writer hwriter
    have hcall : (p.began i writer.run c rules mid).calls.lookup i =
        some { context := c, rules := rules, rest := writer.run.keys.zip writer.run.values } := by
      rw [Overlap.began, Association.lookup_put, if_pos rfl]
    rw [hidle] at hentered
    rw [hcall]
    generalize partOf log i = written at hentered ⊢
    have hresult : writer.run.stage.result? = none := by
      rw [hstage]
      rfl
    cases hentered with
    | uncalled hfailed => exact Entered.writing hresult rfl
    | carriedOut hsettled =>
        rcases hsettled with hsome | ⟨message, hcrashed⟩
        · rw [hresult] at hsome
          cases hsome
        · rw [hstage] at hcrashed
          cases hcrashed
  case hwriters => exact fun _ _ => rfl
  case hcalls =>
    intro j hij
    rw [Overlap.began, Association.lookup_put, if_neg hij]
  case hparts => exact fun _ _ => rfl
  case hsize =>
    rw [← h.size, ← hstore]
    rfl
  case hfound =>
    intro k
    rw [← h.found, ← hstore]
    rfl

theorem Logged.wrote {call : OpenCall} {entry : Key × Value} {rest : List (Key × Value)}
    (hcomplete : ∀ k ∈ writer.run.keys, k.isComplete = true)
    (hcall : p.calls.lookup i = some call) (hrest : call.rest = entry :: rest) :
    Logged start (p.wrote i call entry rest) (log ++ [(i, entry)]) := by
  have hentered := h.entered i writer hwriter
  rw [hcall] at hentered
  generalize hpart : partOf log i = written at hentered
  cases hentered with
  | writing hresult hzip =>
      have hmem : entry ∈ writer.run.keys.zip writer.run.values := by
        rw [← hzip, hrest]
        exact List.mem_append_right _ List.mem_cons_self
      have hown : (p.wrote i call entry rest).world.writers[i]? = some writer := hwriter
      apply h.of_own hown
      case hentered =>
        rw [Overlap.wrote, Association.lookup_put, if_pos rfl, partOf_append, hpart,
          partOf_cons_self]
        apply Entered.writing hresult
        rw [← hzip, hrest, List.append_assoc]
        rfl
      case hwriters => exact fun _ _ => rfl
      case hcalls =>
        intro j hij
        rw [Overlap.wrote, Association.lookup_put, if_neg hij]
      case hparts =>
        intro j hij
        rw [partOf_append, partOf_cons_of_ne hij]
        exact List.append_nil _
      case hsize => exact (Store.limits_write _ entry.1 entry.2).2.trans h.size
      case hfound =>
        intro k
        have hfind := Store.find?_write (s := p.world.scene.store)
          (Store.isComplete_of_mem_zip hcomplete entry hmem) k
        rw [Store.accepts_congr h.size, h.found, ← Option.or_assoc] at hfind
        rw [List.map_append, List.filter_append, lastValue?_append, List.map_singleton,
          lastValue?_filter_singleton]
        exact hfind

theorem Logged.answered {call : OpenCall} (hcall : p.calls.lookup i = some call)
    (hrest : call.rest = []) : Logged start (p.answered i writer call) log := by
  have hentered := h.entered i writer hwriter
  rw [hcall] at hentered
  have hown : (p.answered i writer call).world.writers[i]? = some ⟨writer.scheme,
      (writer.run.storeAnswered (p.world.sceneOf writer) call.context
        (answerAfter call.rules writer.run.keys (Store.resultOf call.slots))).2⟩ :=
    List.getElem?_set_self (List.getElem?_eq_some_iff.mp hwriter).1
  generalize hpart : partOf log i = written at hentered
  cases hentered with
  | writing hresult hzip =>
      rw [hrest, List.append_nil] at hzip
      apply h.of_own hown
      case hentered =>
        rw [Overlap.answered, Association.lookup_erase, if_pos rfl, hpart, hzip]
        exact Entered.carriedOut (Or.inl rfl)
      case hwriters => exact fun j hij => List.getElem?_set_ne fun heq => hij heq.symm
      case hcalls =>
        intro j hij
        rw [Overlap.answered, Association.lookup_erase, if_neg hij]
      case hparts => exact fun _ _ => rfl
      case hsize => exact h.size
      case hfound => exact h.found

end Steps

/-!
## Where calls that overlap lead
-/

/-- A turn is one of the transaction at its position. -/
theorem Turned.exists_writers_eq {p p' : Overlap} {i : Nat} {writer : Writer}
    (h : Turned p i writer p') (hwriter : p.world.writers[i]? = some writer) :
    ∃ writer', p'.world.writers = p.world.writers.set i writer' ∧
      World.Continues writer' writer := by
  have hsame : p.world.writers = p.world.writers.set i writer := by
    rcases List.getElem?_eq_some_iff.mp hwriter with ⟨hlt, heq⟩
    rw [← heq, List.set_getElem_self]
  cases h with
  | moved hidle hputs => exact ⟨p.world.next writer, rfl, p.world.continues_next writer⟩
  | began hidle hputs => exact ⟨writer, hsame, ⟨rfl, rfl, rfl, rfl⟩⟩
  | wrote hcall hrest => exact ⟨writer, hsame, ⟨rfl, rfl, rfl, rfl⟩⟩
  | answered hcall hrest => exact ⟨_, rfl, ⟨rfl, rfl, rfl, rfl⟩⟩

theorem Step.continues {p p' : Overlap} (h : Step p p') {i : Nat} {writer' : Writer}
    (hwriter' : p'.world.writers[i]? = some writer') :
    ∃ writer, p.world.writers[i]? = some writer ∧ World.Continues writer' writer := by
  cases h with
  | @turned j writer hwriter =>
      rcases (p.turned_turn j writer).exists_writers_eq hwriter with ⟨next, hwriters, hcontinues⟩
      rw [hwriters] at hwriter'
      by_cases hij : i = j
      · rw [hij, List.getElem?_set_self (List.getElem?_eq_some_iff.mp hwriter).1,
          Option.some.injEq] at hwriter'
        rw [hij, ← hwriter']
        exact ⟨writer, hwriter, hcontinues⟩
      · rw [List.getElem?_set_ne fun heq => hij heq.symm] at hwriter'
        exact ⟨writer', hwriter', ⟨rfl, rfl, rfl, rfl⟩⟩
  | stored items | erased slots | meanwhile hquiet hstore =>
      exact ⟨writer', hwriter', ⟨rfl, rfl, rfl, rfl⟩⟩

theorem Step.length_writers {p p' : Overlap} (h : Step p p') :
    p'.world.writers.length = p.world.writers.length := by
  cases h with
  | @turned j writer hwriter =>
      rcases (p.turned_turn j writer).exists_writers_eq hwriter with ⟨next, hwriters, _⟩
      rw [hwriters, List.length_set]
  | stored items | erased slots | meanwhile hquiet hstore => rfl

theorem Reaches.continues {p p' : Overlap} (h : Reaches p p') {i : Nat} {writer' : Writer}
    (hwriter' : p'.world.writers[i]? = some writer') :
    ∃ writer, p.world.writers[i]? = some writer ∧ World.Continues writer' writer := by
  induction h generalizing writer' with
  | refl => exact ⟨writer', hwriter', ⟨rfl, rfl, rfl, rfl⟩⟩
  | tail hreach hstep ih =>
      rcases hstep.continues hwriter' with ⟨between, hbetween, hlast⟩
      rcases ih hbetween with ⟨writer, hwriter, hfirst⟩
      exact ⟨writer, hwriter, hlast.trans hfirst⟩

theorem Reaches.length_writers {p p' : Overlap} (h : Reaches p p') :
    p'.world.writers.length = p.world.writers.length := by
  induction h with
  | refl => rfl
  | tail hreach hstep ih => exact hstep.length_writers.trans ih

section Runs

variable {start : World}
  (hcomplete : ∀ writer ∈ start.writers, ∀ k ∈ writer.run.keys, k.isComplete = true)
include hcomplete

theorem Logged.step {p p' : Overlap} {log : List (Nat × Key × Value)} (h : Logged start p log)
    (hreach : Reaches (of start) p) (hstep : Step p p') : ∃ log', Logged start p' log' := by
  cases hstep with
  | @turned i writer hwriter =>
      rcases hreach.continues hwriter with ⟨first, hfirst, hcontinues⟩
      have hkeys : ∀ k ∈ writer.run.keys, k.isComplete = true := by
        rw [hcontinues.keys]
        exact hcomplete first (List.mem_of_getElem? hfirst)
      have hturned := p.turned_turn i writer
      generalize p.turn i writer = p' at hturned ⊢
      cases hturned with
      | moved hidle hputs => exact ⟨log, h.moved hwriter hidle hputs⟩
      | began hidle hputs => exact ⟨log, h.began hwriter hidle hputs⟩
      | wrote hcall hrest => exact ⟨_, h.wrote hwriter hkeys hcall hrest⟩
      | answered hcall hrest => exact ⟨log, h.answered hwriter hcall hrest⟩
  | stored items => exact ⟨log, h.of_eq rfl rfl⟩
  | erased slots => exact ⟨log, h.of_eq rfl rfl⟩
  | meanwhile hquiet hstore => exact ⟨log, h.of_eq rfl hstore⟩

/-- However calls overlap, their entities have been written one after another. -/
theorem exists_log (hfresh : start.Fresh) {p : Overlap} (hreach : Reaches (of start) p) :
    ∃ log, Logged start p log := by
  induction hreach with
  | refl => exact ⟨[], logged_of_fresh hfresh⟩
  | tail hreach hstep ih =>
      rcases ih with ⟨log, hlogged⟩
      exact hlogged.step hcomplete hreach hstep

end Runs

/-- Who has a result that is no wholesale failure has written all of its entities. -/
theorem Logged.partOf_eq {start : World} {p : Overlap} {log : List (Nat × Key × Value)}
    (h : Logged start p log) {i : Nat} {writer : Writer}
    (hwriter : p.world.writers[i]? = some writer) {result : CallResult}
    (hresult : writer.run.stage.result? = some result)
    (hproper : ∀ f, result ≠ Transaction.wholesale f) :
    partOf log i = writer.run.keys.zip writer.run.values := by
  have hentered := h.entered i writer hwriter
  generalize p.calls.lookup i = call at hentered
  generalize partOf log i = written at hentered ⊢
  cases hentered with
  | uncalled hfailed =>
      rcases hfailed result hresult with ⟨f, hwholesale⟩
      exact absurd hwholesale (hproper f)
  | writing hnone hzip =>
      rw [hnone] at hresult
      cases hresult
  | carriedOut hsettled => rfl

end Overlap
end Simulation
end WriteLatch
