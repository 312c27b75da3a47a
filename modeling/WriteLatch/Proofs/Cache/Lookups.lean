import WriteLatch.Proofs.Interleaving.History
import WriteLatch.Simulation.Session

/-!
# What a cache answers

Whoever looks up a slot finds the item that was set there last, unless the slot
was deleted since or the time of the item is over.  A look may drop an item whose
time is over, and no other look can tell.
-/

namespace WriteLatch
namespace Cache

/-!
## Calls and their answers
-/

inductive Call where
  | set (items : List CacheItem)
  | erase (slots : List String)
  | get (slot : String)
  | isLocked (slot : String)

inductive Answer where
  | done
  /-- The expiry of an item is past the end of the clock. -/
  | overflowed
  | found (item : Option CacheItem)
  | locked (b : Bool)
  deriving DecidableEq, Repr

/-- Calls one after another, each with the instant at which it is made. -/
abbrev Calls : Type :=
  List (Millis × Call)

def serve (c : Cache) (now : Millis) : Call -> Answer × Cache
  | .set items =>
      match c.setAll now items with
      | .ok c => (.done, c)
      | .error c => (.overflowed, c)
  | .erase slots => (.done, c.eraseAll slots)
  | .get slot => (.found (c.find? now slot), c.afterRead now slot)
  | .isLocked slot => (.locked (c.isLocked now slot), c.afterRead now slot)

def after (c : Cache) : Calls -> Cache
  | [] => c
  | call :: rest => (c.serve call.1 call.2).2.after rest

def answers (c : Cache) : Calls -> List Answer
  | [] => []
  | call :: rest => (c.serve call.1 call.2).1 :: (c.serve call.1 call.2).2.answers rest

namespace Call

def isRead : Call -> Bool
  | .set _ => false
  | .erase _ => false
  | .get _ => true
  | .isLocked _ => true

/-- The clock can show when the items expire. -/
def isStorable (now : Millis) : Call -> Bool
  | .set items => items.all (Cache.isStorable now)
  | .erase _ => true
  | .get _ => true
  | .isLocked _ => true

def Touches (slot : String) : Call -> Prop
  | .set items => ∃ item ∈ items, item.slot = slot
  | .erase slots => slot ∈ slots
  | .get _ => False
  | .isLocked _ => False

end Call

/-- The calls that set or delete something. -/
def writesOf (calls : Calls) : Calls :=
  calls.filter fun call => !call.2.isRead

/-- The instants never go back, and the clock can show when any item expires. -/
structure IsTimely (calls : Calls) : Prop where
  ordered : calls.Pairwise fun call call' => call.1 <= call'.1
  storable : ∀ call ∈ calls, call.2.isStorable call.1 = true

/-- The item was the last one for its slot in a call at that instant, and no later
call has set or deleted the slot. -/
def SetLast (calls : Calls) (slot : String) (since : Millis) (item : CacheItem) : Prop :=
  ∃ earlier items later, calls = earlier ++ (since, .set items) :: later ∧
    placed? slot items = some item ∧ ∀ call ∈ later, ¬ call.2.Touches slot

/-- How a call should be answered that comes after others. -/
def IsRight (before : Calls) (now : Millis) : Call -> Answer -> Prop
  | .set _, answer => answer = .done
  | .erase _, answer => answer = .done
  | .get slot, answer => ∃ found, answer = .found found ∧
      ∀ item, found = some item ↔ ∃ since, SetLast before slot since item ∧ item.Lasts since now
  | .isLocked slot, answer => ∃ b, answer = .locked b ∧
      (b = true ↔
        ∃ since item, SetLast before slot since item ∧ item.Lasts since now ∧ item.isLock = true)

/-!
## A history of calls
-/

/-- What a call adds to the history of the cache; reads add nothing. -/
def Call.change? (now : Millis) : Call -> Option Entry
  | .set items => some ⟨none, .set now items⟩
  | .erase slots => some ⟨none, .erased slots⟩
  | .get _ => none
  | .isLocked _ => none

def historyOf (calls : Calls) : List Entry :=
  (calls.filterMap fun call => call.2.change? call.1).reverse

theorem historyOf_cons (call : Millis × Call) (calls : Calls) :
    historyOf (call :: calls) = historyOf calls ++ (call.2.change? call.1).toList := by
  cases h : call.2.change? call.1 <;> simp [historyOf, h]

theorem Call.change?_of_isRead {call : Call} (h : call.isRead = true) (now : Millis) :
    call.change? now = none := by
  cases call with
  | set items | erase slots => cases h
  | get slot | isLocked slot => rfl

/-- Reads leave no trace. -/
theorem historyOf_writesOf (calls : Calls) : historyOf (writesOf calls) = historyOf calls := by
  induction calls with
  | nil => rfl
  | cons call rest ih =>
      rw [writesOf] at ih ⊢
      rw [historyOf_cons]
      cases hread : call.2.isRead with
      | true =>
          have hfilter : ¬ (!call.2.isRead) = true := by simp [hread]
          rw [List.filter_cons, if_neg hfilter, ih, Call.change?_of_isRead hread, Option.toList_none,
            List.append_nil]
      | false =>
          have hfilter : (!call.2.isRead) = true := by simp [hread]
          rw [List.filter_cons, if_pos hfilter, historyOf_cons, ih]

theorem Call.touches_of_change? {now : Millis} {call : Call} {entry : Entry}
    (h : call.change? now = some entry) (slot : String) :
    entry.deed.Touches slot ↔ call.Touches slot := by
  cases call with
  | set items | erase slots =>
      cases h
      exact Iff.rfl
  | get slot | isLocked slot => cases h

/-- What stands in a slot is what was set there last. -/
theorem standing_historyOf_iff {calls : Calls} {slot : String} {e : CacheEntry} :
    (∃ writer, standing slot (historyOf calls) = .holds writer e) ↔
      ∃ since item, SetLast calls slot since item ∧ entryOf since item = e := by
  constructor
  · rintro ⟨writer, hstands⟩
    rcases standing_eq_holds_iff.mp hstands with
      ⟨newer, since, items, older, item, hhistory, huntouched, hplaced, he⟩
    rw [historyOf, List.reverse_eq_iff, List.reverse_append, List.reverse_cons,
      List.append_assoc, List.filterMap_eq_append_iff] at hhistory
    rcases hhistory with ⟨earlier, rest, hcalls, _, hrest⟩
    rcases List.filterMap_eq_cons_iff.mp hrest with ⟨reads, call, later, hsplit, _, hcall, hlater⟩
    rcases call with ⟨t, call⟩
    cases call with
    | erase slots | get slot | isLocked slot => cases hcall
    | set items' =>
        cases hcall
        refine ⟨t, item, ⟨earlier ++ reads, items, later, ?_, hplaced, ?_⟩, he⟩
        · rw [hcalls, hsplit, List.append_assoc]
        · intro call hmem htouches
          cases hentry : call.2.change? call.1 with
          | none =>
              rcases call with ⟨t, call⟩
              cases call with
              | set items | erase slots => cases hentry
              | get slot | isLocked slot => exact htouches
          | some entry =>
              have hnewer : entry ∈ newer := by
                have hmapped : entry ∈ later.filterMap fun call => call.2.change? call.1 :=
                  List.mem_filterMap.mpr ⟨call, hmem, hentry⟩
                rw [hlater] at hmapped
                exact List.mem_reverse.mp hmapped
              exact huntouched entry hnewer ((Call.touches_of_change? hentry slot).mpr htouches)
  · rintro ⟨since, item, ⟨earlier, items, later, hcalls, hplaced, huntouched⟩, he⟩
    refine ⟨none, standing_eq_holds_iff.mpr ⟨historyOf later, since, items, historyOf earlier, item,
      ?_, ?_, hplaced, he⟩⟩
    · rw [hcalls, historyOf, List.filterMap_append, List.filterMap_cons]
      simp [historyOf, Call.change?]
    · intro entry hmem htouches
      rcases List.mem_filterMap.mp (List.mem_reverse.mp hmem) with ⟨call, hcall, hentry⟩
      exact huntouched call hcall ((Call.touches_of_change? hentry slot).mp htouches)

/-!
## The cache after some calls
-/

theorem serve_set {c : Cache} {now : Millis} {items : List CacheItem}
    (h : (Call.set items).isStorable now = true) :
    c.serve now (.set items) = (.done, c.insertAll now items) := by
  rw [serve, setAll_of_storable (List.all_eq_true.mp h)]

theorem isLocked_eq_true_iff {c : Cache} {now : Millis} {slot : String} :
    c.isLocked now slot = true ↔ ∃ item, c.find? now slot = some item ∧ item.isLock = true := by
  rw [isLocked]
  cases c.find? now slot <;> simp

end Cache

namespace Mirrors

open Cache (Call Calls IsTimely SetLast historyOf historyOf_cons serve_set standing_historyOf_iff
  isLive_entryOf)

variable {first c : Cache} {history : List Entry} {now : Millis}

/-- Every call leaves a cache that mirrors its history. -/
theorem serve {earlier : Millis} (h : Mirrors first history c earlier) (hle : earlier <= now)
    {call : Call} (hstorable : call.isStorable now = true) :
    Mirrors first ((call.change? now).toList ++ history) (c.serve now call).2 now := by
  have hnow : Mirrors first history c now := h.fades (c.fades_refl now) hle
  cases call with
  | set items =>
      rw [serve_set hstorable]
      exact hnow.insertAll none items
  | erase slots => exact hnow.eraseAll none slots
  | get slot | isLocked slot => exact hnow.fades (c.fades_afterRead now slot) (Nat.le_refl now)

theorem after {start : Millis} (h : Mirrors first history c start) {calls : Calls}
    (hle : start <= now) (hstart : ∀ call ∈ calls, start <= call.1)
    (hnow : ∀ call ∈ calls, call.1 <= now) (htimely : IsTimely calls) :
    Mirrors first (historyOf calls ++ history) (c.after calls) now := by
  induction calls generalizing c history start with
  | nil => exact h.fades (c.fades_refl now) hle
  | cons call rest ih =>
      have hordered := List.pairwise_cons.mp htimely.ordered
      have hserved := h.serve (hstart call List.mem_cons_self)
        (htimely.storable call List.mem_cons_self)
      have hrest := ih hserved (hnow call List.mem_cons_self) hordered.1
        (fun call' hmem => hnow call' (List.mem_cons_of_mem call hmem))
        ⟨hordered.2, fun call' hmem => htimely.storable call' (List.mem_cons_of_mem call hmem)⟩
      rw [historyOf_cons, List.append_assoc]
      exact hrest

/-- A reader finds what was set last and still lasts. -/
theorem find?_eq_some_iff {calls : Calls} (h : Mirrors {} (historyOf calls) c now)
    {slot : String} {item : CacheItem} :
    c.find? now slot = some item ↔
      ∃ since, SetLast calls slot since item ∧ item.Lasts since now := by
  have hfirst : ({} : Cache).held? slot = none := rfl
  rw [h.find?_eq slot, hfirst]
  constructor
  · intro hfound
    rcases Option.map_eq_some_iff.mp hfound with ⟨e, hfiltered, hitem⟩
    rcases Option.filter_eq_some_iff.mp hfiltered with ⟨hexpected, hlive⟩
    have hstands : ∃ writer, standing slot (historyOf calls) = .holds writer e := by
      cases hstanding : standing slot (historyOf calls) with
      | untouched | empty =>
          rw [hstanding] at hexpected
          cases hexpected
      | holds writer e' =>
          rw [hstanding] at hexpected
          cases hexpected
          exact ⟨writer, rfl⟩
    rcases standing_historyOf_iff.mp hstands with ⟨since, item', hset, he⟩
    rw [← he] at hitem hlive
    have heq : item' = item := hitem
    rw [heq] at hset hlive
    exact ⟨since, hset, (isLive_entryOf since now item).mp hlive⟩
  · rintro ⟨since, hset, hlasts⟩
    rcases standing_historyOf_iff.mpr ⟨since, item, hset, rfl⟩ with ⟨writer, hstands⟩
    have hlive := (isLive_entryOf since now item).mpr hlasts
    rw [hstands]
    rw [Standing.expected?, Option.filter_some, if_pos hlive, Option.map_some, Cache.entryOf]

/-- Caches with one history answer alike. -/
theorem serve_eq {c' : Cache} (h : Mirrors first history c now) (h' : Mirrors first history c' now)
    {call : Call} (hstorable : call.isStorable now = true) :
    (c.serve now call).1 = (c'.serve now call).1 := by
  have hfound (slot : String) : c.find? now slot = c'.find? now slot := by
    rw [h.find?_eq slot, h'.find?_eq slot]
  cases call with
  | set items => rw [serve_set hstorable, serve_set hstorable]
  | erase slots => rfl
  | get slot => rw [Cache.serve, Cache.serve, hfound slot]
  | isLocked slot =>
      rw [Cache.serve, Cache.serve, Cache.isLocked, Cache.isLocked, hfound slot]

end Mirrors

namespace Cache

theorem IsTimely.of_append {before later : Calls} (h : IsTimely (before ++ later)) :
    IsTimely before :=
  ⟨(List.pairwise_append.mp h.ordered).1,
    fun call hmem => h.storable call (List.mem_append_left later hmem)⟩

theorem mirrors_before {before later : Calls} {now : Millis} {call : Call}
    (h : IsTimely (before ++ (now, call) :: later)) :
    Mirrors {} (historyOf before) (({} : Cache).after before) now := by
  have hbefore : ∀ call' ∈ before, call'.1 <= now := fun call' hmem =>
    (List.pairwise_append.mp h.ordered).2.2 call' hmem (now, call) List.mem_cons_self
  have hmirrors := (mirrors_nil {} 0).after (Nat.zero_le now) (fun _ _ => Nat.zero_le _) hbefore
    h.of_append
  rw [List.append_nil] at hmirrors
  exact hmirrors

theorem isRight_serve {before later : Calls} {now : Millis} {call : Call}
    (h : IsTimely (before ++ (now, call) :: later)) :
    IsRight before now call ((({} : Cache).after before).serve now call).1 := by
  have hmirrors := mirrors_before h
  have hstorable := h.storable (now, call) (List.mem_append_right before List.mem_cons_self)
  cases call with
  | set items =>
      rw [serve_set hstorable]
      rfl
  | erase slots => rfl
  | get slot => exact ⟨_, rfl, fun item => hmirrors.find?_eq_some_iff⟩
  | isLocked slot =>
      refine ⟨_, rfl, isLocked_eq_true_iff.trans ?_⟩
      constructor
      · rintro ⟨item, hfound, hlock⟩
        rcases hmirrors.find?_eq_some_iff.mp hfound with ⟨since, hset, hlasts⟩
        exact ⟨since, item, hset, hlasts, hlock⟩
      · rintro ⟨since, item, hset, hlasts, hlock⟩
        exact ⟨item, hmirrors.find?_eq_some_iff.mpr ⟨since, hset, hlasts⟩, hlock⟩

/-!
## The answers of a whole sequence
-/

theorem answers_append (c : Cache) (calls later : Calls) :
    c.answers (calls ++ later) = c.answers calls ++ (c.after calls).answers later := by
  induction calls generalizing c with
  | nil => rfl
  | cons call rest ih =>
      rw [List.cons_append, answers, answers, List.cons_append, ih]
      rfl

theorem length_answers (c : Cache) (calls : Calls) : (c.answers calls).length = calls.length := by
  induction calls generalizing c with
  | nil => rfl
  | cons call rest ih => rw [answers, List.length_cons, List.length_cons, ih]

theorem getElem?_answers (c : Cache) (before later : Calls) (now : Millis) (call : Call) :
    (c.answers (before ++ (now, call) :: later))[before.length]? =
      some ((c.after before).serve now call).1 := by
  rw [answers_append, List.getElem?_append_right (Nat.le_of_eq (c.length_answers before)),
    length_answers, Nat.sub_self, answers, List.getElem?_cons_zero]

/-- Every call to a cache that was empty at first is answered as its place among
the other calls tells, and what was read before, no answer tells. -/
theorem right_answers_and_reads_unnoticed {calls : Calls} (h : IsTimely calls) :
    (∀ before now call later, calls = before ++ (now, call) :: later ->
      ∃ answer, (({} : Cache).answers calls)[before.length]? = some answer ∧
        IsRight before now call answer) ∧
    (∀ calls', IsTimely calls' -> ∀ before before' now call later later',
      calls = before ++ (now, call) :: later -> calls' = before' ++ (now, call) :: later' ->
        writesOf before = writesOf before' ->
          (({} : Cache).answers calls)[before.length]? =
            (({} : Cache).answers calls')[before'.length]?) := by
  constructor
  · intro before now call later hcalls
    rw [hcalls] at h ⊢
    exact ⟨_, getElem?_answers {} before later now call, isRight_serve h⟩
  · intro calls' h' before before' now call later later' hcalls hcalls' hwrites
    rw [hcalls] at h ⊢
    rw [hcalls'] at h' ⊢
    have hhistory : historyOf before' = historyOf before := by
      rw [← historyOf_writesOf before', ← hwrites, historyOf_writesOf]
    have hmirrors' := mirrors_before h'
    rw [hhistory] at hmirrors'
    rw [getElem?_answers, getElem?_answers, (mirrors_before h).serve_eq hmirrors'
      (h.storable (now, call) (List.mem_append_right before List.mem_cons_self))]

/-- A slot is set twice in one call, looked up just before and at the expiry of the
later item, set again for good, and deleted. -/
def revived : Calls :=
  [(0, .set [⟨"a", [1], 0, 10⟩, ⟨"a", [2], 1, 5⟩]), (4, .get "a"), (5, .get "a"),
    (5, .isLocked "a"), (6, .set [⟨"a", [3], 1, 0⟩]), (900, .isLocked "a"), (900, .erase ["a"]),
    (900, .get "a")]

theorem right_answers_and_reads_unnoticed_revived :
    IsTimely revived ∧
      (∃ answer, (({} : Cache).answers revived)[2]? = some answer ∧
        IsRight (revived.take 2) 5 (.get "a") answer) ∧
      (({} : Cache).answers revived)[5]? =
        (({} : Cache).answers [revived[0], revived[4], revived[5]])[2]? := by
  have htimely : IsTimely revived := ⟨by decide, by decide⟩
  have hfewer : IsTimely [revived[0], revived[4], revived[5]] := ⟨by decide, by decide⟩
  have hall := right_answers_and_reads_unnoticed htimely
  refine ⟨htimely, hall.1 (revived.take 2) 5 (.get "a") (revived.drop 3) rfl, ?_⟩
  exact hall.2 _ hfewer (revived.take 5) (revived.take 1 ++ [revived[4]]) 900 (.isLocked "a")
    (revived.drop 6) [] rfl rfl rfl

example : ({} : Cache).answers revived =
    [.done, .found (some ⟨"a", [2], 1, 5⟩), .found none, .locked false, .done, .locked true, .done,
      .found none] := by
  decide

end Cache

namespace Simulation

/-!
## The cache of a session
-/

/-- The step of a session that makes a call to its cache. -/
def Step.ofCall : Cache.Call -> Step
  | .set items => .cacheSet items
  | .erase slots => .cacheDelete slots
  | .get slot => .cacheGet slot
  | .isLocked slot => .cacheLocked slot

def Outcome.ofAnswer : Cache.Answer -> Outcome
  | .done => .nothing
  | .overflowed => .crashed
  | .found found => .item found
  | .locked b => .flag b

/-- In a session the cache is called in just this way. -/
theorem Session.take_ofCall (s : Session) (call : Cache.Call) :
    s.take (.ofCall call) =
      (s.withScene { s.scene with cache := (s.scene.cache.serve s.scene.cacheNow call).2 },
        .ofAnswer (s.scene.cache.serve s.scene.cacheNow call).1) := by
  cases call with
  | set items =>
      rw [Step.ofCall, Session.take, Cache.serve]
      cases s.scene.cache.setAll s.scene.cacheNow items with
      | ok cache => rfl
      | error cache => rfl
  | erase slots | get slot | isLocked slot => rfl

end Simulation
end WriteLatch
