import WriteLatch.Proofs.Interleaving.Journal
import WriteLatch.Proofs.Interleaving.Sessions

/-!
# Books

The books of a scene hold an account of every transaction in it: who wants it,
how asking for a context went, and how its call to delete the locks ended.  A
log says which call was begun when, and for whom, and the pages of the journal
that were turned are kept.

Transactions come at any time, for calls of any number of clients or alone, and
take turns in any order.  What else may happen to the scene is given by a
relation.  A session keeps such books, whatever steps it takes.
-/

namespace WriteLatch

/-- The journal without its counters. -/
def Journal.page (j : Journal) : Journal :=
  { j with counters := [] }

namespace Simulation

/-- Who wants a transaction: someone who called a client at an instant, or someone
who runs it alone. -/
inductive Origin where
  | called (client : Client) (since : Millis) (ctx : Context)
  | alone (ctx : Context)

namespace Origin

/-- The context that was given to the client or to the transaction. -/
def caller : Origin -> Context
  | .called _ _ ctx => ctx
  | .alone ctx => ctx

/-- The context that the transaction works under. -/
def context : Origin -> Context
  | .called client since ctx => client.bounded since ctx
  | .alone ctx => ctx

end Origin

/-!
## The calls that frame a transaction
-/

/-- How a call under a context ends in the next move, if it does. -/
def Scene.callEnd? {ε : Type} (scene : Scene) (c : Context) :
    Progress ε -> Option (Answer (Except ε Unit))
  | .notBegun => (scene.interruption? c).map .interrupted
  | .paused _ _ => (scene.interruption? c).map .interrupted
  | .serving beats =>
      match (scene.serve beats).2 with
      | .failed e => some (.returned (.error e))
      | .completed => some (.returned (.ok ()))
      | _ => none

namespace Run

/-- How asking for a context goes in the next move. -/
def opening? (run : Run) (scene : Scene) : Option (Except (List String) Unit) :=
  match run.stage with
  | .opening =>
      some (match scene.faults.cache.context.fail with
        | some causes => .error causes
        | none => .ok ())
  | _ => none

/-- How the call that deletes the locks ends in the next move. -/
def release? (run : Run) (scene : Scene) : Option CacheAnswer :=
  match run.stage with
  | .releasing c _ call => scene.callEnd? c call
  | _ => none

end Run

/-!
## Accounts
-/

/-- A transaction, and what it was answered so far. -/
structure Account where
  origin : Origin
  writer : Writer
  contexts : List (Except (List String) Unit) := []
  releases : List CacheAnswer := []

/-- A call that was begun. -/
structure Beginning where
  origin : Origin
  call : Transaction.Call
  moment : Moment

namespace Account

/-- The account of a transaction that is about to begin. -/
def opened (origin : Origin) (scheme : LockScheme) (job : List Key × List Value) : Account :=
  { origin := origin
    writer := ⟨scheme, { ctx := origin.context, keys := job.1, values := job.2 }⟩ }

/-- The stage after the next move. -/
def nextStage (a : Account) (scene : Scene) : Stage :=
  (a.writer.run.move scene).2.1.stage

def moved (a : Account) (scene : Scene) : Account :=
  { a with
    writer := ⟨a.writer.scheme, (a.writer.run.move scene).2.1⟩
    contexts := a.contexts ++ (a.writer.run.opening? scene).toList
    releases := a.releases ++ (a.writer.run.release? scene).toList }

/-- The call that is begun in the next move. -/
def begins (a : Account) (scene : Scene) : List Beginning :=
  ((Stage.begun? a.writer.job a.writer.run.stage (a.nextStage scene)).map
    fun call => ⟨a.origin, call, scene.moment⟩).toList

end Account

structure Books where
  scene : Scene
  accounts : List Account := []
  log : List Beginning := []
  pages : List Journal := []

namespace Books

/-- The scene in which the transaction of an account moves. -/
def sceneOf (b : Books) (a : Account) : Scene :=
  { b.scene with scheme := a.writer.scheme }

def moved (b : Books) (i : Nat) (a : Account) : Books :=
  { b with
    scene := (a.writer.run.move (b.sceneOf a)).1
    accounts := b.accounts.set i (a.moved (b.sceneOf a))
    log := b.log ++ a.begins (b.sceneOf a) }

/-- Turns the page of the journal. -/
def turned (b : Books) : Books :=
  { b with
    scene := { b.scene with journal := b.scene.journal.nextPage }
    pages := b.pages ++ [b.scene.journal.page] }

inductive Step (within : Scene -> Scene -> Prop) (b : Books) : Books -> Prop where
  | moved {i : Nat} {a : Account} (h : b.accounts[i]? = some a) : Step within b (b.moved i a)
  /-- A client is called for some keys, in pieces. -/
  | called {before after : List Account} (client : Client) (ctx : Context)
      (pieces : List (List Key × List Value)) (h : b.accounts = before ++ after) :
      Step within b { b with
        accounts := before ++ pieces.map
          (Account.opened (.called client b.scene.now ctx) client.config.lockScheme) ++ after }
  /-- A transaction is run without a client. -/
  | ran {before after : List Account} (ctx : Context) (scheme : LockScheme)
      (job : List Key × List Value) (h : b.accounts = before ++ after) :
      Step within b { b with
        accounts := before ++ Account.opened (.alone ctx) scheme job :: after }
  | meanwhile {scene : Scene} (h : within b.scene scene) : Step within b { b with scene := scene }
  | turned : Step within b b.turned

abbrev Reaches (within : Scene -> Scene -> Prop) : Books -> Books -> Prop :=
  Relation.ReflTransGen (Step within)

variable {within : Scene -> Scene -> Prop} {b b' : Books}

theorem mem_accounts_moved {i : Nat} {a a' : Account} (h : a' ∈ (b.moved i a).accounts) :
    a' = a.moved (b.sceneOf a) ∨ a' ∈ b.accounts :=
  (List.mem_or_eq_of_mem_set h).symm

/-- What holds of every transaction that is about to begin, and is kept by the
moves of each, holds of all. -/
theorem Step.forall_accounts {p : Account -> Prop} (hstep : Step within b b')
    (hopened : ∀ origin scheme job, p (Account.opened origin scheme job))
    (hmoved : ∀ a ∈ b.accounts, p a -> p (a.moved (b.sceneOf a)))
    (h : ∀ a ∈ b.accounts, p a) : ∀ a ∈ b'.accounts, p a := by
  cases hstep with
  | @moved i a ha =>
      intro a' hmem
      have hold : a ∈ b.accounts := List.mem_of_getElem? ha
      rcases mem_accounts_moved hmem with heq | hmem
      · rw [heq]
        exact hmoved a hold (h a hold)
      · exact h a' hmem
  | called client ctx pieces hsplit =>
      intro a' hmem
      rw [hsplit] at h
      rcases List.mem_append.mp hmem with hmem | hmem
      · rcases List.mem_append.mp hmem with hmem | hmem
        · exact h a' (List.mem_append_left _ hmem)
        · rcases List.mem_map.mp hmem with ⟨piece, _, heq⟩
          rw [← heq]
          exact hopened _ _ _
      · exact h a' (List.mem_append_right _ hmem)
  | ran ctx scheme job hsplit =>
      intro a' hmem
      rw [hsplit] at h
      rcases List.mem_append.mp hmem with hmem | hmem
      · exact h a' (List.mem_append_left _ hmem)
      · rcases List.mem_cons.mp hmem with heq | hmem
        · rw [heq]
          exact hopened _ _ _
        · exact h a' (List.mem_append_right _ hmem)
  | meanwhile hwithin => exact h
  | turned => exact h

theorem Reaches.forall_accounts {p : Account -> Prop} (hreach : Reaches within b b')
    (hopened : ∀ origin scheme job, p (Account.opened origin scheme job))
    (hmoved : ∀ a scene, p a -> p (a.moved scene)) (h : ∀ a ∈ b.accounts, p a) :
    ∀ a ∈ b'.accounts, p a := by
  induction hreach with
  | refl => exact h
  | tail hfirst hstep ih =>
      exact hstep.forall_accounts hopened (fun a _ => hmoved a _) ih

/-!
## The books of a crew
-/

/-- The accounts are those of the transactions in a crew. -/
structure Hosts (b : Books) (crew : Crew) : Prop where
  scene : b.scene = crew.scene
  writers : b.accounts.map Account.writer = crew.runs.map (Writer.mk crew.scene.scheme)

theorem Hosts.exists_account {crew : Crew} (h : b.Hosts crew) {i : Nat} {run : Run}
    (hrun : crew.runs[i]? = some run) :
    ∃ a, b.accounts[i]? = some a ∧ a.writer = ⟨crew.scene.scheme, run⟩ := by
  have hwriter : (b.accounts.map Account.writer)[i]? = some ⟨crew.scene.scheme, run⟩ := by
    rw [h.writers, List.getElem?_map, hrun, Option.map_some]
  rw [List.getElem?_map] at hwriter
  exact Option.map_eq_some_iff.mp hwriter

theorem Hosts.exists_step (htended : ∀ {before after : Scene}, before.Tended after ->
    within before after) {crew crew' : Crew} (h : b.Hosts crew) (hgoes : crew.Goes crew') :
    ∃ b', Step within b b' ∧ b'.Hosts crew' ∧ b'.pages = b.pages := by
  have hscheme := hgoes.scheme
  cases hgoes with
  | @moved i run hrun =>
      rcases h.exists_account hrun with ⟨a, ha, hwriter⟩
      have hscene : b.sceneOf a = crew.scene := by
        rw [sceneOf, hwriter, h.scene]
      refine ⟨b.moved i a, Step.moved ha, ⟨?_, ?_⟩, rfl⟩
      · rw [moved, hscene, hwriter]
      · rw [moved, List.map_set, Account.moved, hscene, hwriter, h.writers, List.map_set, hscheme]
  | tended hscene =>
      refine ⟨_, Step.meanwhile (htended (h.scene ▸ hscene)), ⟨rfl, ?_⟩, rfl⟩
      exact h.writers.trans (congrArg (fun scheme => crew.runs.map (Writer.mk scheme)) hscheme.symm)

theorem Hosts.exists_reaches (htended : ∀ {before after : Scene}, before.Tended after ->
    within before after) {crew crew' : Crew} (h : b.Hosts crew) (hreach : crew.Reaches crew') :
    ∃ b', Reaches within b b' ∧ b'.Hosts crew' ∧ b'.pages = b.pages := by
  induction hreach with
  | refl => exact ⟨b, Relation.ReflTransGen.refl, h, rfl⟩
  | tail hfirst hstep ih =>
      rcases ih with ⟨between, hbetween, hhosts, hpages⟩
      rcases hhosts.exists_step htended hstep with ⟨b', hlast, hhosts', hsame⟩
      exact ⟨b', hbetween.tail hlast, hhosts', hsame.trans hpages⟩

/-- The transactions on the tasks of a schedule stand before those outside. -/
theorem Hosts.exists_split {s : Schedule} {outside : List Run} (h : b.Hosts (s.crew outside)) :
    ∃ before after, b.accounts = before ++ after ∧
      before.map Account.writer = s.tasks.map (fun task => ⟨s.scene.scheme, task.run⟩) ∧
        after.map Account.writer = outside.map (Writer.mk s.scene.scheme) := by
  have hwriters := h.writers
  rw [Schedule.crew, List.map_append, List.map_map] at hwriters
  rcases List.map_eq_append_iff.mp hwriters with ⟨before, after, hsplit, hbefore, hafter⟩
  exact ⟨before, after, hsplit, hbefore, hafter⟩

end Books

/-!
## The books of a session
-/

def Page.journal (page : Page) : Journal :=
  { calls := page.calls, reports := page.reports, events := page.events }

/-- A step in which no transaction begins or moves. -/
def Step.isAside : Step -> Bool
  | .writeMany _ _ _ _ => false
  | .writeOne _ _ _ _ => false
  | .transact _ _ _ _ => false
  | .advance _ => false
  | _ => true

/-- Gives the collaborators other rules. -/
def Step.givesRules : Step -> Bool
  | .storeRules _ => true
  | .cacheRules _ => true
  | _ => false

def Step.runsAlone : Step -> Bool
  | .transact _ _ _ _ => true
  | _ => false

namespace Session

/-- What happens from one session to another, with those outside that it runs
alone, goes into the books, and some pages are turned. -/
structure Enters (within : Scene -> Scene -> Prop) (s : Session) (outside : List Run) (s' : Session)
    (outside' : List Run) (pages : List Journal) : Prop where
  client : s'.client = s.client
  scheme : s'.scene.scheme = s.scene.scheme
  books : ∀ b : Books, b.Hosts (s.schedule.crew outside) ->
    ∃ b', Books.Reaches within b b' ∧ b'.Hosts (s'.schedule.crew outside') ∧
      b'.pages = b.pages ++ pages

variable {within : Scene -> Scene -> Prop} {outside : List Run}

theorem enters_refl (s : Session) (outside : List Run) : Enters within s outside s outside [] :=
  ⟨rfl, rfl, fun b h => ⟨b, Relation.ReflTransGen.refl, h, (List.append_nil _).symm⟩⟩

theorem Enters.trans {s s' s'' : Session} {outside' outside'' : List Run}
    {pages pages' : List Journal} (h : Enters within s outside s' outside' pages)
    (h' : Enters within s' outside' s'' outside'' pages') :
    Enters within s outside s'' outside'' (pages ++ pages') := by
  refine ⟨h'.client.trans h.client, h'.scheme.trans h.scheme, ?_⟩
  intro b hhosts
  rcases h.books b hhosts with ⟨between, hbetween, hmid, hpages⟩
  rcases h'.books between hmid with ⟨b', hlast, hend, hpages'⟩
  exact ⟨b', hbetween.trans hlast, hend, by rw [hpages', hpages, List.append_assoc]⟩

/-- The scene has changed, and no transaction has moved. -/
theorem enters_of_within {s s' : Session} (hclient : s'.client = s.client)
    (htasks : s'.schedule.tasks = s.schedule.tasks) (hscheme : s'.scene.scheme = s.scene.scheme)
    (h : within s.scene s'.scene) : Enters within s outside s' outside [] := by
  refine ⟨hclient, hscheme, ?_⟩
  intro b hhosts
  have hscene : b.scene = s.scene := hhosts.scene
  refine ⟨{ b with scene := s'.scene }, Relation.ReflTransGen.single
    (Books.Step.meanwhile (hscene ▸ h)), ⟨rfl, ?_⟩, (List.append_nil _).symm⟩
  have hcrew : s'.schedule.crew outside = ⟨s'.scene, (s.schedule.crew outside).runs⟩ := by
    rw [Schedule.crew, htasks]
    rfl
  rw [hcrew]
  exact hhosts.writers.trans
    (congrArg (fun scheme => List.map (Writer.mk scheme) _) hscheme.symm)

/-- Tasks are started for a call. -/
theorem enters_spawn {s : Session} (hscheme : s.scene.scheme = s.client.config.lockScheme)
    (ctx : Context) {tasks : List Task} (pieces : List (List Key × List Value))
    (hpieces : tasks.map Task.run = pieces.map fun piece =>
      (Account.opened (.called s.client s.scene.now ctx) s.scene.scheme piece).writer.run) :
    Enters within s outside { s with schedule := s.schedule.spawn tasks } outside [] := by
  refine ⟨rfl, rfl, ?_⟩
  intro b hhosts
  rcases hhosts.exists_split with ⟨before, after, hsplit, hbefore, hafter⟩
  have hnow : b.scene.now = s.scene.now := congrArg Scene.now hhosts.scene
  refine ⟨_, Relation.ReflTransGen.single (Books.Step.called s.client ctx pieces hsplit),
    ⟨hhosts.scene, ?_⟩, (List.append_nil _).symm⟩
  have hopened : (pieces.map (Account.opened (.called s.client b.scene.now ctx)
      s.client.config.lockScheme)).map Account.writer =
        tasks.map fun task => ⟨s.scene.scheme, task.run⟩ := by
    have hwriters := congrArg (List.map (Writer.mk s.scene.scheme)) hpieces
    rw [List.map_map, List.map_map] at hwriters
    rw [List.map_map, hnow, ← hscheme]
    exact hwriters.symm
  simp only [List.map_append, hbefore, hafter, hopened, Schedule.crew, Schedule.spawn,
    List.map_map]
  rfl

/-- The page of the journal is turned at the end of a step. -/
theorem enters_nextPage (s : Session) :
    Enters within s outside
      (s.withScene { s.scene with journal := s.scene.journal.nextPage }) outside
      [s.scene.journal.page] := by
  refine ⟨rfl, rfl, ?_⟩
  intro b hhosts
  have hscene : b.scene = s.scene := hhosts.scene
  refine ⟨b.turned, Relation.ReflTransGen.single Books.Step.turned,
    ⟨?_, hhosts.writers⟩, ?_⟩
  · rw [Books.turned, hscene]
    rfl
  · rw [Books.turned, hscene]

section Tending

variable (htended : ∀ {before after : Scene}, before.Tended after -> within before after)
include htended

theorem enters_of_advances {s s' : Session} (hclient : s'.client = s.client)
    (h : Schedule.Advances s.schedule s'.schedule) : Enters within s outside s' outside [] := by
  refine ⟨hclient, (h []).scheme, ?_⟩
  intro b hhosts
  rcases hhosts.exists_reaches htended (h outside) with ⟨b', hreach, hhosts', hpages⟩
  exact ⟨b', hreach, hhosts', hpages.trans (List.append_nil _).symm⟩

theorem enters_startMany {s : Session} (hscheme : s.scene.scheme = s.client.config.lockScheme)
    (ctx : Context) (keys : List Key) (values : List Value) :
    Enters within s outside (s.startMany (s.client.bounded s.scene.now ctx)
      (s.client.pieces keys values) keys.length).1 outside [] := by
  have hcounted := tended_counted s.scene (s.client.bounded s.scene.now ctx).traceId keys.length
    (s.client.pieces keys values).length
  unfold startMany
  dsimp only
  generalize hscene : Scene.count _ .pieces _ = scene at hcounted ⊢
  have hnow : scene.now = s.scene.now := by
    rw [← hscene]
    rfl
  have hnoted : Enters within s outside (s.withScene scene) outside [] :=
    enters_of_within rfl rfl hcounted.scheme (htended hcounted)
  refine hnoted.trans (enters_spawn (s := s.withScene scene) (hcounted.scheme.trans hscheme) ctx
    ((s.client.pieces keys values).map fun piece => (piece.keys, piece.values)) ?_)
  rw [List.map_map, List.map_map, ← hnow]
  rfl

theorem enters_writeMany {s : Session} (hscheme : s.scene.scheme = s.client.config.lockScheme)
    (ctx : Context) (keys : List Key) (values : List Value) (giveUp : Option Millis) :
    Enters within s outside (s.writeMany ctx keys values giveUp).1 outside [] := by
  have hclient := s.client_writeMany ctx keys values giveUp
  cases hcheck : Request.check keys values with
  | error d =>
      rw [writeMany, hcheck]
      exact s.enters_refl outside
  | ok u =>
      cases hkeys : keys.isEmpty with
      | true =>
          rw [writeMany, hcheck, hkeys]
          exact s.enters_refl outside
      | false =>
          have hstarted : Enters within s outside _ outside [] :=
            enters_startMany htended hscheme ctx keys values
          exact hstarted.trans (enters_of_advances htended (hclient.trans hstarted.client.symm)
            (advances_writeMany hcheck hkeys))

theorem enters_writeOne {s : Session} (hscheme : s.scene.scheme = s.client.config.lockScheme)
    (ctx : Context) (key : Key) (value : Value) (giveUp : Option Millis) :
    Enters within s outside (s.writeOne ctx key value giveUp).1 outside [] := by
  have hclient := s.client_writeOne ctx key value giveUp
  cases hcheck : Request.check [key] [value] with
  | error d =>
      rw [writeOne, hcheck]
      exact s.enters_refl outside
  | ok u =>
      have hspawned : Enters within s outside { s with schedule := s.schedule.spawn [⟨.single,
          { ctx := s.client.bounded s.scene.now ctx, keys := [key], values := [value] }⟩] }
          outside [] := enters_spawn hscheme ctx [([key], [value])] rfl
      exact hspawned.trans (enters_of_advances htended hclient (advances_writeOne hcheck))

/-- A transaction that is run alone stays in the books when it is dropped. -/
theorem exists_enters_transact (s : Session) (ctx : Context) (keys : List Key)
    (values : List Value) (giveUp : Option Millis) :
    ∃ run, Enters within s outside (s.transact ctx keys values giveUp).1 (run :: outside) [] := by
  have htransacted : (s.transact ctx keys values giveUp).1 = { s with
      schedule := (s.schedule.awaitOutside { ctx := ctx, keys := keys, values := values }
        (s.giveUpAt giveUp)).1 } := by
    unfold transact
    dsimp only
    split <;> rfl
  rcases s.schedule.exists_advancesWith_awaitOutside { ctx := ctx, keys := keys, values := values }
    (s.giveUpAt giveUp) with ⟨run, hrun⟩
  rw [htransacted]
  refine ⟨run, rfl, (hrun []).scheme, ?_⟩
  intro b hhosts
  rcases hhosts.exists_split with ⟨before, after, hsplit, hbefore, hafter⟩
  have hran : Books.Step within b _ := Books.Step.ran ctx s.scene.scheme (keys, values) hsplit
  have hhosted : Books.Hosts { b with
      accounts := before ++ Account.opened (.alone ctx) s.scene.scheme (keys, values) :: after }
        (s.schedule.crew ({ ctx := ctx, keys := keys, values := values } :: outside)) := by
    refine ⟨hhosts.scene, ?_⟩
    simp only [List.map_append, List.map_cons, hbefore, hafter, Schedule.crew, List.map_map]
    rfl
  rcases hhosted.exists_reaches htended (hrun outside) with ⟨b', hreach, hhosts', hpages⟩
  exact ⟨b', Relation.ReflTransGen.head hran hreach, hhosts',
    hpages.trans (List.append_nil _).symm⟩

end Tending

/-!
### Steps past the transactions
-/

/-- What happens past the transactions is not in the journal and takes no time,
though the cache may age.  Rules change when they are given, and names are given
to new tokens. -/
structure PassesBy (st : Step) (s s' : Session) : Prop where
  client : s'.client = s.client
  tasks : s'.schedule.tasks = s.schedule.tasks
  now : s'.scene.now = s.scene.now
  cacheNow : s.scene.cacheNow <= s'.scene.cacheNow
  scheme : s'.scene.scheme = s.scene.scheme
  reporting : s'.scene.reporting = s.scene.reporting
  journal : s'.scene.journal = s.scene.journal
  faults : st.givesRules = false -> s'.scene.faults = s.scene.faults
  tidy : s.scene.IsTidy -> s'.scene.IsTidy

theorem passesBy_refl (st : Step) (s : Session) : PassesBy st s s :=
  ⟨rfl, rfl, rfl, Nat.le_refl _, rfl, rfl, rfl, fun _ => rfl, fun h => h⟩

theorem PassesBy.trans {st : Step} {a b c : Session} (hab : PassesBy st a b)
    (hbc : PassesBy st b c) : PassesBy st a c where
  client := hbc.client.trans hab.client
  tasks := hbc.tasks.trans hab.tasks
  now := hbc.now.trans hab.now
  cacheNow := Nat.le_trans hab.cacheNow hbc.cacheNow
  scheme := hbc.scheme.trans hab.scheme
  reporting := hbc.reporting.trans hab.reporting
  journal := hbc.journal.trans hab.journal
  faults := fun h => (hbc.faults h).trans (hab.faults h)
  tidy := fun h => hbc.tidy (hab.tidy h)

theorem passesBy_addContext (st : Step) (s : Session) (name : String)
    (traceId tenant : Option String) (timeout : Option Millis) (parent : Option Context) :
    PassesBy st s (s.addContext name traceId tenant timeout parent) := by
  have hderived (derived : Context × Scene) (h : PassesBy st s (s.withScene derived.2))
      (hissued : derived.1.token.number < derived.2.tokens.issued) (c : Context)
      (hc : c.token = derived.1.token) : PassesBy st s
        (s.withScene { derived.2 with contexts := derived.2.contexts.put name c }) :=
    ⟨rfl, rfl, h.now, h.cacheNow, h.scheme, h.reporting, h.journal, h.faults,
      fun htidy => (h.tidy htidy).put (hc ▸ hissued)⟩
  have hreleased (s' : Session) (h : PassesBy st s s') (before : Option Context) :
      PassesBy st s { s' with schedule := (before.map s'.schedule.release).getD s'.schedule } := by
    cases before with
    | none => exact h
    | some c =>
        refine h.trans ?_
        dsimp only [Option.map_some, Option.getD_some]
        unfold Schedule.release
        split
        · exact passesBy_refl st s'
        · exact ⟨rfl, rfl, rfl, Nat.le_refl _, rfl, rfl, rfl, fun _ => rfl,
            fun h => h.of_eq rfl rfl⟩
  unfold addContext
  cases parent with
  | none =>
      have hpasses : PassesBy st s (s.withScene (s.scene.newRoot rootName).2) :=
        ⟨rfl, rfl, rfl, Nat.le_refl _, rfl, rfl, rfl, fun _ => rfl,
          fun htidy => htidy.issued rfl (Nat.le_succ _)⟩
      refine hreleased _ (hderived _ hpasses (Nat.lt_succ_self _) _ ?_) _
      cases timeout with
      | none => cases tenant <;> rfl
      | some t => exact (Context.token_withTimeout _ _ t).trans (by cases tenant <;> rfl)
  | some p =>
      have hpasses : PassesBy st s (s.withScene (s.scene.deriveFrom p).2) :=
        ⟨rfl, rfl, rfl, Nat.le_refl _, rfl, rfl, rfl, fun _ => rfl,
          fun htidy => htidy.passes (s.scene.passes_deriveFrom p)⟩
      refine hreleased _ (hderived _ hpasses (Nat.lt_succ_self _) _ ?_) _
      cases timeout with
      | none => cases tenant <;> rfl
      | some t => exact (Context.token_withTimeout _ _ t).trans (by cases tenant <;> rfl)

theorem passesBy_take {s : Session} {st : Step} (h : st.isAside = true) :
    PassesBy st s (s.take st).1 := by
  have hscene (scene : Scene) (hnow : scene.now = s.scene.now)
      (hcacheNow : s.scene.cacheNow <= scene.cacheNow) (hscheme : scene.scheme = s.scene.scheme)
      (hreporting : scene.reporting = s.scene.reporting)
      (hjournal : scene.journal = s.scene.journal)
      (hfaults : st.givesRules = false -> scene.faults = s.scene.faults)
      (htidy : s.scene.IsTidy -> scene.IsTidy) : PassesBy st s (s.withScene scene) :=
    ⟨rfl, rfl, hnow, hcacheNow, hscheme, hreporting, hjournal, hfaults, htidy⟩
  cases st with
  | writeMany | writeOne | transact | advance => cases h
  | storeGet | storeInfo | cacheInfo | clientInfo => exact passesBy_refl _ s
  | storePut | cacheDelete | cacheGet | cacheLocked | keyLocked =>
      exact hscene _ rfl (Nat.le_refl _) rfl rfl rfl (fun _ => rfl) (fun h => h.of_eq rfl rfl)
  | cacheSet items =>
      unfold take
      dsimp only
      split <;>
        exact hscene _ rfl (Nat.le_refl _) rfl rfl rfl (fun _ => rfl) (fun h => h.of_eq rfl rfl)
  | cacheWait =>
      exact hscene _ rfl (Nat.le_add_right _ _) rfl rfl rfl (fun _ => rfl)
        (fun h => h.of_eq rfl rfl)
  | storeRules | cacheRules =>
      exact hscene _ rfl (Nat.le_refl _) rfl rfl rfl (fun hkept => by cases hkept)
        (fun h => h.of_eq rfl rfl)
  | context name traceId tenant timeout parent => exact passesBy_addContext _ s _ _ _ _ _
  | cancel ctx =>
      have hcancelled : PassesBy (.cancel ctx) s (s.withScene (s.scene.cancelNamed ctx)) := by
        have htidy (h : s.scene.IsTidy) : (s.scene.cancelNamed ctx).IsTidy :=
          h.passes (s.scene.passes_cancelNamed ctx)
        unfold Scene.cancelNamed at htidy ⊢
        cases hlookup : s.scene.contexts.lookup ctx with
        | none => exact passesBy_refl _ s
        | some c =>
            rw [hlookup] at htidy
            exact hscene _ rfl (Nat.le_refl _) rfl rfl rfl (fun _ => rfl) htidy
      refine hcancelled.trans ?_
      unfold take Schedule.onScene Schedule.wakeReached
      dsimp only
      split
      · exact passesBy_refl _ _
      · exact ⟨rfl, rfl, rfl, Nat.le_refl _, rfl, rfl, rfl, fun _ => rfl, fun h => h.of_eq rfl rfl⟩

/-!
### Whole sessions
-/

section Steps

variable (htended : ∀ {before after : Scene}, before.Tended after -> within before after)
include htended

theorem exists_enters_take (outside : List Run) {s : Session}
    (hscheme : s.scene.scheme = s.client.config.lockScheme)
    {st : Step} (haside : ∀ {s s' : Session}, PassesBy st s s' -> within s.scene s'.scene) :
    ∃ alone, Enters within s outside (s.take st).1 (alone ++ outside) [] ∧
      alone.length = if st.runsAlone then 1 else 0 := by
  cases hst : st.isAside with
  | true =>
      have hpasses := passesBy_take (s := s) hst
      refine ⟨[], enters_of_within hpasses.client hpasses.tasks hpasses.scheme
        (haside hpasses), ?_⟩
      cases st with
      | transact => cases hst
      | _ => rfl
  | false =>
      cases st with
      | writeMany ctx keys values giveUp =>
          exact ⟨[], enters_writeMany htended hscheme _ keys values giveUp, rfl⟩
      | writeOne ctx key value giveUp =>
          exact ⟨[], enters_writeOne htended hscheme _ key value giveUp, rfl⟩
      | transact ctx keys values giveUp =>
          rcases exists_enters_transact htended s (s.contextNamed ctx) keys values giveUp with
            ⟨run, hrun⟩
          exact ⟨[run], hrun, rfl⟩
      | advance duration =>
          exact ⟨[], enters_of_advances htended rfl (s.schedule.advances_wait duration), rfl⟩
      | _ => cases hst

/-- Every step of a session goes into the books, and its page with it. -/
theorem exists_enters_step (outside : List Run) {s : Session}
    (hscheme : s.scene.scheme = s.client.config.lockScheme)
    {st : Step} (haside : ∀ {s s' : Session}, PassesBy st s s' -> within s.scene s'.scene) :
    ∃ alone, Enters within s outside (s.step st).1 (alone ++ outside) [(s.step st).2.journal] ∧
      alone.length = if st.runsAlone then 1 else 0 := by
  rcases exists_enters_take htended outside hscheme haside with ⟨alone, htaken, hlength⟩
  refine ⟨alone, ?_, hlength⟩
  unfold step
  generalize s.take st = taken at htaken ⊢
  exact htaken.trans (enters_nextPage taken.1)

/-- A whole session goes into the books. -/
theorem exists_enters_steps (outside : List Run) {s : Session}
    (hscheme : s.scene.scheme = s.client.config.lockScheme)
    {sts : List Step}
    (haside : ∀ st ∈ sts, ∀ {s s' : Session}, PassesBy st s s' -> within s.scene s'.scene) :
    ∃ alone, Enters within s outside (s.steps sts).1 (alone ++ outside)
        ((s.steps sts).2.map Page.journal) ∧ alone.length = sts.countP Step.runsAlone := by
  induction sts generalizing s outside with
  | nil => exact ⟨[], s.enters_refl outside, rfl⟩
  | cons st rest ih =>
      rcases exists_enters_step htended outside hscheme
        (haside st List.mem_cons_self) with ⟨alone, hstep, hlength⟩
      have hnext : (s.step st).1.scene.scheme = (s.step st).1.client.config.lockScheme := by
        rw [hstep.scheme, hstep.client, hscheme]
      rcases ih (alone ++ outside) hnext
        (fun st' hmem => haside st' (List.mem_cons_of_mem st hmem)) with ⟨more, hrest, hmore⟩
      refine ⟨more ++ alone, ?_, ?_⟩
      · rw [List.append_assoc]
        exact hstep.trans hrest
      · rw [List.length_append, hmore, hlength, List.countP_cons]

end Steps

/-- What holds of every new page holds of the page that a session leaves. -/
theorem journal_steps {p : Journal -> Prop} (hturned : ∀ j : Journal, p j.nextPage) {s : Session}
    (h : p s.scene.journal) (sts : List Step) : p (s.steps sts).1.scene.journal := by
  induction sts generalizing s with
  | nil => exact h
  | cons st rest ih => exact ih (hturned (s.take st).1.scene.journal)

/-- At first there is no transaction. -/
theorem hosts_of_tasks {s : Session} (h : s.schedule.tasks = []) :
    Books.Hosts { scene := s.scene } (s.schedule.crew []) := by
  refine ⟨rfl, ?_⟩
  rw [Schedule.crew, h]
  rfl

end Session
end Simulation
end WriteLatch
