import WriteLatch.Proofs.Interleaving.Deeds
import WriteLatch.Proofs.Interleaving.Dispatch

/-!
# Traffic of many clients

Clients come with requests at any time, each under its own settings, and share
one world.  A request that may be written starts its transactions, and whoever
made it waits for them.  Who waits may leave at any time; the transactions stay.
What else can happen in the world is given by a relation.
-/

namespace WriteLatch
namespace Simulation

/-- The transaction that writes one key. -/
def Writer.single (scheme : LockScheme) (ctx : Context) (key : Key) (value : Value) : Writer :=
  ⟨scheme, { ctx := ctx, keys := [key], values := [value] }⟩

/-- A transaction that is about to begin, for keys that were checked. -/
structure Writer.Incoming (writer : Writer) : Prop where
  opening : writer.run.stage = .opening
  valid : ∀ k ∈ writer.run.keys, k.isValid = true

structure Traffic where
  world : World
  /-- The positions of the transactions that are waited for, call by call. -/
  waiting : List Span := []

namespace Traffic

/-- The positions of so many transactions that come next. -/
def nextSpan (t : Traffic) (count : Nat) : Span :=
  ⟨t.world.writers.length, t.world.writers.length + count⟩

/-- A call starts transactions and waits for them. -/
def started (t : Traffic) (writers : List Writer) : Traffic :=
  { world := { t.world with writers := t.world.writers ++ writers }
    waiting := t.waiting ++ [t.nextSpan writers.length] }

/-- How the transactions in a span have ended, once all of them have. -/
def ends? (t : Traffic) (span : Span) : Option (List Client.TaskEnd) :=
  (span.slice t.world.writers).mapM fun writer => writer.run.end?

/-- The transactions of a request for many keys. -/
def writersOf (t : Traffic) (client : Client) (ctx : Context) (keys : List Key)
    (values : List Value) : List Writer :=
  (client.pieces keys values).map
    (Writer.ofPiece client.config.lockScheme (client.bounded t.world.scene.now ctx))

inductive Step (within : World -> World -> Prop) (t : Traffic) : Traffic -> Prop where
  | calledForMany (client : Client) (ctx : Context) {keys : List Key} {values : List Value}
      (hcheck : Request.check keys values = .ok ()) :
      Step within t (t.started (t.writersOf client ctx keys values))
  | calledForOne (client : Client) (ctx : Context) {key : Key} {value : Value}
      (hcheck : Request.check [key] [value] = .ok ()) :
      Step within t (t.started [Writer.single client.config.lockScheme
        (client.bounded t.world.scene.now ctx) key value])
  /-- A caller has its answer, or waits no longer. -/
  | left (span : Span) : Step within t { t with waiting := t.waiting.erase span }
  | within {world : World} (h : within t.world world) : Step within t { t with world := world }

abbrev Reaches (within : World -> World -> Prop) : Traffic -> Traffic -> Prop :=
  Relation.ReflTransGen (Step within)

section Steps

variable {within : World -> World -> Prop}

theorem incoming_writersOf {t : Traffic} (client : Client) (ctx : Context) {keys : List Key}
    {values : List Value} (hcheck : Request.check keys values = .ok ()) :
    ∀ writer ∈ t.writersOf client ctx keys values, writer.Incoming := by
  intro writer hmem
  rcases List.mem_map.mp hmem with ⟨piece, hpiece, heq⟩
  rw [← heq]
  constructor
  · rfl
  · intro k hk
    exact Request.isValid_of_check hcheck k (Client.mem_of_mem_piece hpiece hk)

/-- A step of traffic starts transactions, or is one in the world, or leaves the
world alone. -/
theorem Step.starts_or_within {t t' : Traffic} (h : Step within t t') :
    (∃ writers, t' = t.started writers ∧ ∀ writer ∈ writers, writer.Incoming) ∨
      within t.world t'.world ∨ t'.world = t.world := by
  cases h with
  | calledForMany client ctx hcheck =>
      exact Or.inl ⟨_, rfl, incoming_writersOf client ctx hcheck⟩
  | calledForOne client ctx hcheck =>
      left
      refine ⟨_, rfl, ?_⟩
      intro writer hmem
      rw [List.mem_singleton.mp hmem]
      exact ⟨rfl, Request.isValid_of_check hcheck⟩
  | left span => exact Or.inr (Or.inr rfl)
  | within hstep => exact Or.inr (Or.inl hstep)

/-- What holds at first, is kept by the steps in the world and does not mind
transactions that come in addition holds of all traffic. -/
theorem Reaches.induct {p : World -> Prop} {t t' : Traffic} (h : Reaches within t t')
    (hfirst : p t.world)
    (hstarted : ∀ (t : Traffic) (writers : List Writer), p t.world ->
      (∀ writer ∈ writers, writer.Incoming) -> p (t.started writers).world)
    (hwithin : ∀ w w', p w -> within w w' -> p w') : p t'.world := by
  induction h with
  | refl => exact hfirst
  | @tail between t' hreach hstep ih =>
      rcases hstep.starts_or_within with ⟨writers, hcalled, hincoming⟩ | hstep | hsame
      · rw [hcalled]
        exact hstarted between writers ih hincoming
      · exact hwithin _ _ ih hstep
      · rw [hsame]
        exact ih

theorem reaches_of_world {t : Traffic} {world : World}
    (h : Relation.ReflTransGen within t.world world) :
    Reaches within t { t with world := world } := by
  induction h with
  | refl => exact Relation.ReflTransGen.refl
  | tail hreach hstep ih => exact ih.tail (Step.within hstep)

end Steps

/-!
## Transactions that come in addition
-/

theorem getElem?_started {t : Traffic} {writers : List Writer} {i : Nat} {writer : Writer}
    (h : (t.started writers).world.writers[i]? = some writer) :
    t.world.writers[i]? = some writer ∨ (t.world.writers.length <= i ∧ writer ∈ writers) := by
  change (t.world.writers ++ writers)[i]? = some writer at h
  by_cases hold : i < t.world.writers.length
  · left
    rw [List.getElem?_append_left hold] at h
    exact h
  · right
    rw [List.getElem?_append_right (Nat.le_of_not_lt hold)] at h
    exact ⟨Nat.le_of_not_lt hold, List.mem_of_getElem? h⟩

theorem getElem?_started_add (t : Traffic) (writers : List Writer) (j : Nat) :
    (t.started writers).world.writers[t.world.writers.length + j]? = writers[j]? := by
  change (t.world.writers ++ writers)[t.world.writers.length + j]? = writers[j]?
  rw [List.getElem?_append_right (Nat.le_add_right _ _), Nat.add_sub_cancel_left]

end Traffic

namespace World

theorem Step.exists_continues {w w' : World} (h : Step w w') {i : Nat} {writer : Writer}
    (hwriter : w.writers[i]? = some writer) :
    ∃ writer', w'.writers[i]? = some writer' ∧ Continues writer' writer := by
  rcases h.own_or_other hwriter with hown | ⟨hsame, _⟩
  · rw [hown]
    exact ⟨w.next writer, getElem?_moved_self hwriter, w.continues_next writer⟩
  · exact ⟨writer, hsame, ⟨rfl, rfl, rfl, rfl⟩⟩

variable {first : Cache}

/-- Who has not come yet has done nothing. -/
theorem Sound.deedsOf_of_length_le {w : World} (h : Sound first w) {i : Nat}
    (hi : w.writers.length <= i) : w.deedsOf i = [] := by
  apply List.eq_nil_iff_forall_not_mem.mpr
  intro deed hmem
  have hlt := h.known _ (mem_deedsIn.mp hmem) i rfl
  exact Nat.not_lt.mpr hi hlt

theorem Sound.started {t : Traffic} (h : Sound first t.world) {writers : List Writer}
    (hincoming : ∀ writer ∈ writers, writer.Incoming) :
    Sound first (t.started writers).world where
  mirrors := h.mirrors
  inOrder := h.inOrder
  known := by
    intro entry hmem i hi
    have hlt := h.known entry hmem i hi
    change i < (t.world.writers ++ writers).length
    rw [List.length_append]
    exact Nat.lt_of_lt_of_le hlt (Nat.le_add_right _ _)
  tells := by
    intro i writer hwriter
    rcases Traffic.getElem?_started hwriter with hold | ⟨hi, hnew⟩
    · exact h.tells i writer hold
    · rw [(hincoming writer hnew).opening]
      exact h.deedsOf_of_length_le hi
  within := by
    intro writer hmem c hc
    rcases List.mem_append.mp hmem with hold | hnew
    · exact h.within writer hold c hc
    · rw [Run.cacheContext?, (hincoming writer hnew).opening] at hc
      cases hc

end World

/-!
## How transactions end
-/

namespace Traffic

theorem Reaches.history_suffix {within : World -> World -> Prop} {t t' : Traffic}
    (h : Reaches within t t') (hwithin : ∀ w w', within w w' -> World.Step w w') :
    t.world.history <:+ t'.world.history := by
  apply Reaches.induct h (p := fun w => t.world.history <:+ w.history)
  · exact List.suffix_refl _
  · intro between writers hsuffix _
    exact hsuffix
  · intro w w' hsuffix hstep
    exact hsuffix.trans (hwithin w w' hstep).adds.history_suffix

/-- A transaction keeps its place, whatever happens around it. -/
theorem Reaches.exists_continues {within : World -> World -> Prop} {t t' : Traffic}
    (h : Reaches within t t') (hwithin : ∀ w w', within w w' -> World.Step w w') {i : Nat}
    {writer : Writer} (hwriter : t.world.writers[i]? = some writer) :
    ∃ writer', t'.world.writers[i]? = some writer' ∧ World.Continues writer' writer := by
  apply Reaches.induct h (p := fun w =>
    ∃ writer', w.writers[i]? = some writer' ∧ World.Continues writer' writer)
  · exact ⟨writer, hwriter, ⟨rfl, rfl, rfl, rfl⟩⟩
  · rintro between writers ⟨writer', hwriter', hcontinues⟩ _
    refine ⟨writer', ?_, hcontinues⟩
    change (between.world.writers ++ writers)[i]? = some writer'
    rw [List.getElem?_append_left (List.getElem?_eq_some_iff.mp hwriter').1]
    exact hwriter'
  · rintro w w' ⟨writer', hwriter', hcontinues⟩ hstep
    rcases (hwithin w w' hstep).exists_continues hwriter' with ⟨writer'', hnext, hlast⟩
    exact ⟨writer'', hnext, hlast.trans hcontinues⟩

theorem exists_getElem?_of_mapM {α β : Type} {f : α -> Option β} {xs : List α} {ys : List β}
    (h : xs.mapM f = some ys) {i : Nat} {y : β} (hy : ys[i]? = some y) :
    ∃ x, xs[i]? = some x ∧ f x = some y := by
  induction xs generalizing ys i with
  | nil =>
      cases h
      cases hy
  | cons x xs ih =>
      simp only [List.mapM_cons, Option.bind_eq_bind, Option.bind_eq_some_iff, Option.pure_def,
        Option.some.injEq] at h
      rcases h with ⟨first, hfirst, rest, hrest, hys⟩
      rw [← hys] at hy
      cases i with
      | zero =>
          rw [List.getElem?_cons_zero, Option.some.injEq] at hy
          rw [← hy]
          exact ⟨x, rfl, hfirst⟩
      | succ i => exact ih hrest hy

theorem exists_writer_of_ends? {t : Traffic} {span : Span} {ends : List Client.TaskEnd}
    (h : t.ends? span = some ends) {j : Nat} {e : Client.TaskEnd} (he : ends[j]? = some e) :
    ∃ writer, t.world.writers[span.start + j]? = some writer ∧ writer.run.end? = some e := by
  rcases exists_getElem?_of_mapM h he with ⟨writer, hwriter, hend⟩
  refine ⟨writer, ?_, hend⟩
  rw [Span.slice, List.getElem?_take] at hwriter
  by_cases hj : j < span.size
  · rw [if_pos hj, List.getElem?_drop] at hwriter
    exact hwriter
  · rw [if_neg hj] at hwriter
    cases hwriter

end Traffic

/-!
## Turns
-/

/-- All worlds have a property while the writers at some positions move, one
after another. -/
def World.staysIn (p : World -> Bool) (w : World) : List Nat -> Bool
  | [] => p w
  | i :: rest =>
      p w &&
        match w.writers[i]? with
        | some writer => (w.moved i writer).staysIn p rest
        | none => w.staysIn p rest

theorem World.of_staysIn {p : World -> Bool} {w : World} {ids : List Nat}
    (h : w.staysIn p ids = true) : p w = true := by
  cases ids with
  | nil => exact h
  | cons i rest => exact (Bool.and_eq_true_iff.mp h).1

theorem World.turns_of_staysIn {within : World -> World -> Prop} {p : World -> Bool}
    (hwithin : ∀ (w : World) (i : Nat) (writer : Writer), w.writers[i]? = some writer ->
      p w = true -> p (w.moved i writer) = true -> within w (w.moved i writer))
    {w : World} {ids : List Nat} (h : w.staysIn p ids = true) :
    Relation.ReflTransGen within w (w.turns ids) := by
  induction ids generalizing w with
  | nil => exact Relation.ReflTransGen.refl
  | cons i rest ih =>
      have hrest := (Bool.and_eq_true_iff.mp h).2
      unfold World.turns
      cases hwriter : w.writers[i]? with
      | none =>
          rw [hwriter] at hrest
          exact ih hrest
      | some writer =>
          rw [hwriter] at hrest
          exact Relation.ReflTransGen.head
            (hwithin _ i writer hwriter (World.of_staysIn h) (World.of_staysIn hrest)) (ih hrest)

theorem Traffic.reaches_turns {within : World -> World -> Prop} {p : World -> Bool}
    (hwithin : ∀ (w : World) (i : Nat) (writer : Writer), w.writers[i]? = some writer ->
      p w = true -> p (w.moved i writer) = true -> within w (w.moved i writer))
    {t : Traffic} {ids : List Nat} (h : t.world.staysIn p ids = true) :
    Reaches within t { t with world := t.world.turns ids } :=
  (World.turns_of_staysIn hwithin h).lift (fun w => { t with world := w })
    fun _ _ hstep => Step.within hstep

/-- Nobody has called yet. -/
def Traffic.idle : Traffic :=
  { world := { scene := (Scene.newRoot {} "root").2, writers := [] } }

end Simulation
end WriteLatch
