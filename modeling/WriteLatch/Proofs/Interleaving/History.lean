import WriteLatch.Cache
import WriteLatch.Transaction

/-!
# The history of a shared cache

Who put what into a cache, who took it out again, and who had to report that it
could not.  The history is kept with the latest entry first.  What the last
entry about a slot left there is what stands in the slot, and the cache mirrors
it: it holds just that, or nothing where that has expired and a reader has come
across it.
-/

namespace WriteLatch

/-- What is done to a cache, or not done after all. -/
inductive Deed where
  | set (now : Millis) (items : List CacheItem)
  | erased (slots : List String)
  /-- Locks were not deleted, by the answer to the call, and this was
  reported. -/
  | reported (answer : CacheAnswer)

namespace Deed

/-- The clock shows the time at which items were set, and only what failed is
reported. -/
def IsProper (deed : Deed) (now : Millis) : Prop :=
  match deed with
  | .set t _ => t = now
  | .erased _ => True
  | .reported answer => (Transaction.releaseCauses? answer).isSome = true

def isReport : Deed -> Bool
  | .set _ _ => false
  | .erased _ => false
  | .reported _ => true

def Touches (deed : Deed) (slot : String) : Prop :=
  match deed with
  | .set _ items => ∃ item ∈ items, item.slot = slot
  | .erased slots => slot ∈ slots
  | .reported _ => False

end Deed

/-- An item that was set at one time has not expired at another. -/
def CacheItem.Lasts (item : CacheItem) (since now : Millis) : Prop :=
  item.lifetime = 0 ∨ now < since + item.lifetime

structure Entry where
  /-- The position of the writer, or `none` for everyone else. -/
  writer : Option Nat
  deed : Deed

namespace Cache

/-!
## Storing several items
-/

def entryOf (now : Millis) (item : CacheItem) : CacheEntry :=
  ⟨item, expiryOf now item⟩

theorem isLive_entryOf (since now : Millis) (item : CacheItem) :
    (entryOf since item).isLive now = true ↔ item.Lasts since now := by
  unfold CacheEntry.isLive entryOf expiryOf CacheItem.Lasts
  by_cases hforever : item.lifetime = 0
  · simp [hforever]
  · simp [hforever]

def isStorable (now : Millis) (item : CacheItem) : Bool :=
  match expiryOf now item with
  | some t => t < clockEnd
  | none => true

/-- The items before the first one that cannot be stored. -/
def storable (now : Millis) (items : List CacheItem) : List CacheItem :=
  items.takeWhile (isStorable now)

def insertAll (c : Cache) (now : Millis) (items : List CacheItem) : Cache :=
  items.foldl (fun c item => c.insert item.slot (entryOf now item)) c

/-- The cache after an attempt to store items, whether it succeeded or not. -/
def afterSet (c : Cache) (now : Millis) (items : List CacheItem) : Cache :=
  match c.setAll now items with
  | .ok c => c
  | .error c => c

theorem setAll_cons (c : Cache) (now : Millis) (item : CacheItem) (items : List CacheItem) :
    c.setAll now (item :: items) =
      if isStorable now item then
        (c.insert item.slot (entryOf now item)).setAll now items
      else .error c := by
  cases h : expiryOf now item with
  | none => simp [setAll, isStorable, entryOf, h]
  | some t => simp [setAll, isStorable, entryOf, h]

theorem afterSet_eq (c : Cache) (now : Millis) (items : List CacheItem) :
    c.afterSet now items = c.insertAll now (storable now items) := by
  induction items generalizing c with
  | nil => rfl
  | cons item items ih =>
      cases h : isStorable now item with
      | true =>
          have hset : c.afterSet now (item :: items) =
              (c.insert item.slot (entryOf now item)).afterSet now items := by
            rw [afterSet, setAll_cons, if_pos h]
            rfl
          rw [hset, ih, storable, storable, List.takeWhile_cons, h]
          rfl
      | false =>
          have hset : c.afterSet now (item :: items) = c := by
            rw [afterSet, setAll_cons, if_neg (by simp [h])]
          rw [hset, storable, List.takeWhile_cons, h]
          rfl

theorem setAll_eq_ok {c c' : Cache} {now : Millis} {items : List CacheItem}
    (h : c.setAll now items = .ok c') : c' = c.insertAll now items := by
  induction items generalizing c with
  | nil =>
      cases h
      rfl
  | cons item items ih =>
      rw [setAll_cons] at h
      by_cases hitem : isStorable now item = true
      · rw [if_pos hitem] at h
        exact ih h
      · rw [if_neg hitem] at h
        cases h

theorem setAll_of_storable {c : Cache} {now : Millis} {items : List CacheItem}
    (h : ∀ item ∈ items, isStorable now item = true) :
    c.setAll now items = .ok (c.insertAll now items) := by
  induction items generalizing c with
  | nil => rfl
  | cons item items ih =>
      rw [setAll_cons, if_pos (h item List.mem_cons_self)]
      exact ih fun other hmem => h other (List.mem_cons_of_mem item hmem)

/-- The last of the items for a slot. -/
def placed? (slot : String) (items : List CacheItem) : Option CacheItem :=
  items.reverse.find? fun item => item.slot == slot

theorem placed?_eq_some {slot : String} {items : List CacheItem} {item : CacheItem}
    (h : placed? slot items = some item) : item ∈ items ∧ item.slot = slot := by
  have hmem : item ∈ items := List.mem_reverse.mp (List.mem_of_find?_eq_some h)
  have hslot := List.find?_some h
  exact ⟨hmem, by simpa using hslot⟩

theorem exists_placed?_of_mem {slot : String} {items : List CacheItem} {item : CacheItem}
    (hmem : item ∈ items) (hslot : item.slot = slot) :
    ∃ last, placed? slot items = some last := by
  cases h : placed? slot items with
  | some last => exact ⟨last, rfl⟩
  | none =>
      rw [placed?, List.find?_eq_none] at h
      exact absurd (beq_iff_eq.mpr hslot) (h item (List.mem_reverse.mpr hmem))

theorem held?_insertAll (c : Cache) (now : Millis) (items : List CacheItem) (slot : String) :
    (c.insertAll now items).held? slot =
      match placed? slot items with
      | some item => some (entryOf now item)
      | none => c.held? slot := by
  induction items generalizing c with
  | nil => rfl
  | cons item items ih =>
      have hcons : c.insertAll now (item :: items) =
          (c.insert item.slot (entryOf now item)).insertAll now items := rfl
      have hplaced : placed? slot (item :: items) =
          (placed? slot items).or (if item.slot = slot then some item else none) := by
        rw [placed?, List.reverse_cons, List.find?_append]
        by_cases hslot : item.slot = slot <;> simp [placed?, hslot]
      rw [hcons, ih, hplaced, held?_insert]
      cases hrest : placed? slot items with
      | some last => rfl
      | none =>
          by_cases hslot : item.slot = slot
          · simp [hslot]
          · have hother : ¬ slot = item.slot := fun h => hslot h.symm
            simp [hslot, hother]

end Cache

/-!
## What stands in a slot
-/

/-- What the history of a cache says of one slot. -/
inductive Standing where
  /-- Nothing: the slot is as it was at first. -/
  | untouched
  | empty
  | holds (writer : Option Nat) (e : CacheEntry)

namespace Standing

/-- The item that stands in a slot, over what was there at first. -/
def expected? (first : Option CacheEntry) : Standing -> Option CacheEntry
  | .untouched => first
  | .empty => none
  | .holds _ e => some e

end Standing

def standing (slot : String) : List Entry -> Standing
  | [] => .untouched
  | entry :: earlier =>
      match entry.deed with
      | .set now items =>
          match Cache.placed? slot items with
          | some item => .holds entry.writer (Cache.entryOf now item)
          | none => standing slot earlier
      | .erased slots => if slot ∈ slots then .empty else standing slot earlier
      | .reported _ => standing slot earlier

theorem standing_set (slot : String) (writer : Option Nat) (now : Millis)
    (items : List CacheItem) (earlier : List Entry) :
    standing slot (⟨writer, .set now items⟩ :: earlier) =
      match Cache.placed? slot items with
      | some item => .holds writer (Cache.entryOf now item)
      | none => standing slot earlier := rfl

theorem standing_erased (slot : String) (writer : Option Nat) (slots : List String)
    (earlier : List Entry) :
    standing slot (⟨writer, .erased slots⟩ :: earlier) =
      if slot ∈ slots then .empty else standing slot earlier := rfl

theorem standing_reported (slot : String) (writer : Option Nat) (answer : CacheAnswer)
    (earlier : List Entry) :
    standing slot (⟨writer, .reported answer⟩ :: earlier) = standing slot earlier := rfl

theorem standing_cons_of_untouched {slot : String} {entry : Entry}
    (h : ¬ entry.deed.Touches slot) (earlier : List Entry) :
    standing slot (entry :: earlier) = standing slot earlier := by
  rcases entry with ⟨writer, deed⟩
  cases deed with
  | set now items =>
      have hplaced : Cache.placed? slot items = none := by
        cases hfound : Cache.placed? slot items with
        | none => rfl
        | some item =>
            rcases Cache.placed?_eq_some hfound with ⟨hmem, hslot⟩
            exact absurd ⟨item, hmem, hslot⟩ h
      rw [standing_set, hplaced]
  | erased slots =>
      have hnot : slot ∉ slots := h
      rw [standing_erased, if_neg hnot]
  | reported answer => rw [standing_reported]

theorem standing_append_of_untouched {slot : String} {newer : List Entry}
    (h : ∀ entry ∈ newer, ¬ entry.deed.Touches slot) (older : List Entry) :
    standing slot (newer ++ older) = standing slot older := by
  induction newer with
  | nil => rfl
  | cons entry newer ih =>
      rw [List.cons_append, standing_cons_of_untouched (h entry List.mem_cons_self)]
      exact ih fun e he => h e (List.mem_cons_of_mem entry he)

/-- What stands in a slot was set there, and nothing has touched the slot
since. -/
theorem standing_eq_holds_iff {slot : String} {history : List Entry} {writer : Option Nat}
    {e : CacheEntry} :
    standing slot history = .holds writer e ↔
      ∃ newer now items older item, history = newer ++ ⟨writer, .set now items⟩ :: older ∧
        (∀ entry ∈ newer, ¬ entry.deed.Touches slot) ∧
        Cache.placed? slot items = some item ∧ Cache.entryOf now item = e := by
  constructor
  · intro h
    induction history with
    | nil => cases h
    | cons entry earlier ih =>
        by_cases htouches : entry.deed.Touches slot
        · rcases entry with ⟨writer', deed⟩
          cases deed with
          | set now items =>
              rcases htouches with ⟨item, hmem, hslot⟩
              rcases Cache.exists_placed?_of_mem hmem hslot with ⟨last, hplaced⟩
              rw [standing_set, hplaced] at h
              cases h
              exact ⟨[], now, items, earlier, last, rfl, by simp, hplaced, rfl⟩
          | erased slots =>
              have hmem : slot ∈ slots := htouches
              rw [standing_erased, if_pos hmem] at h
              cases h
          | reported answer => exact htouches.elim
        · rw [standing_cons_of_untouched htouches] at h
          rcases ih h with ⟨newer, now, items, older, item, hhistory, huntouched, hplaced, he⟩
          refine ⟨entry :: newer, now, items, older, item, ?_, ?_, hplaced, he⟩
          · rw [hhistory, List.cons_append]
          · intro e' hmem
            rcases List.mem_cons.mp hmem with heq | hrest
            · rw [heq]
              exact htouches
            · exact huntouched e' hrest
  · rintro ⟨newer, now, items, older, item, hhistory, huntouched, hplaced, he⟩
    rw [hhistory, standing_append_of_untouched huntouched, standing_set, hplaced, ← he]

/-- A slot that was set and not erased since holds something that was set there
no earlier. -/
theorem exists_standing_of_not_erased {slot : String} {history newer older : List Entry}
    {writer : Option Nat} {now : Millis} {items : List CacheItem}
    (hhistory : history = newer ++ ⟨writer, .set now items⟩ :: older)
    (hslot : ∃ item ∈ items, item.slot = slot)
    (hnot : ∀ entry ∈ newer, ∀ slots, entry.deed = .erased slots -> slot ∉ slots) :
    ∃ last ∈ newer ++ [⟨writer, .set now items⟩], ∃ t items' item, last.deed = .set t items' ∧
      item ∈ items' ∧ item.slot = slot ∧
      standing slot history = .holds last.writer (Cache.entryOf t item) := by
  have hset (writer' : Option Nat) (t : Millis) (items' : List CacheItem) (earlier : List Entry)
      (h : ∃ item ∈ items', item.slot = slot) :
      ∃ item ∈ items', item.slot = slot ∧
        standing slot (⟨writer', .set t items'⟩ :: earlier) =
          .holds writer' (Cache.entryOf t item) := by
    rcases h with ⟨item, hmem, hitemSlot⟩
    rcases Cache.exists_placed?_of_mem hmem hitemSlot with ⟨last, hplaced⟩
    rcases Cache.placed?_eq_some hplaced with ⟨hlast, hlastSlot⟩
    refine ⟨last, hlast, hlastSlot, ?_⟩
    rw [standing_set, hplaced]
  induction newer generalizing history with
  | nil =>
      rcases hset writer now items older hslot with ⟨item, hmem, hitemSlot, hstands⟩
      rw [hhistory]
      exact ⟨⟨writer, .set now items⟩, by simp, now, items, item, rfl, hmem, hitemSlot, hstands⟩
  | cons entry newer ih =>
      rw [hhistory, List.cons_append]
      by_cases htouches : entry.deed.Touches slot
      · rcases entry with ⟨writer', deed⟩
        cases deed with
        | set t items' =>
            rcases hset writer' t items' (newer ++ ⟨writer, .set now items⟩ :: older) htouches with
              ⟨item, hmem, hitemSlot, hstands⟩
            exact ⟨⟨writer', .set t items'⟩, by simp, t, items', item, rfl, hmem, hitemSlot,
              hstands⟩
        | erased slots => exact absurd htouches (hnot _ List.mem_cons_self slots rfl)
        | reported answer => exact htouches.elim
      · rcases ih rfl fun e he => hnot e (List.mem_cons_of_mem entry he) with
          ⟨last, hlast, t, items', item, hdeed, hmem, hitemSlot, hstands⟩
        refine ⟨last, List.mem_cons_of_mem entry hlast, t, items', item, hdeed, hmem,
          hitemSlot, ?_⟩
        rw [List.cons_append, standing_cons_of_untouched htouches]
        exact hstands

/-!
## What one writer has done
-/

/-- The deeds of a writer, the latest one first. -/
def deedsIn (i : Nat) (history : List Entry) : List Deed :=
  history.filterMap fun entry => if entry.writer = some i then some entry.deed else none

theorem mem_deedsIn {i : Nat} {history : List Entry} {deed : Deed} :
    deed ∈ deedsIn i history ↔ ⟨some i, deed⟩ ∈ history := by
  rw [deedsIn, List.mem_filterMap]
  constructor
  · rintro ⟨entry, hmem, heq⟩
    by_cases hwriter : entry.writer = some i
    · rw [if_pos hwriter, Option.some.injEq] at heq
      rw [← hwriter, ← heq]
      exact hmem
    · rw [if_neg hwriter] at heq
      cases heq
  · intro hmem
    exact ⟨⟨some i, deed⟩, hmem, if_pos rfl⟩

theorem deedsIn_append (i : Nat) (newer older : List Entry) :
    deedsIn i (newer ++ older) = deedsIn i newer ++ deedsIn i older :=
  List.filterMap_append

theorem deedsIn_cons_self (i : Nat) (deed : Deed) (earlier : List Entry) :
    deedsIn i (⟨some i, deed⟩ :: earlier) = deed :: deedsIn i earlier := by
  simp [deedsIn]

theorem deedsIn_cons_of_ne {i : Nat} {entry : Entry} (h : entry.writer ≠ some i)
    (earlier : List Entry) : deedsIn i (entry :: earlier) = deedsIn i earlier := by
  simp [deedsIn, h]

/-- The last deed of a writer came after an earlier one. -/
theorem mem_newer_of_deedsIn {i : Nat} {history newer older : List Entry}
    {last deed : Deed} {earlier : List Deed}
    (hhistory : history = newer ++ ⟨some i, deed⟩ :: older)
    (hdeeds : deedsIn i history = last :: earlier) (hne : last ≠ deed) :
    ⟨some i, last⟩ ∈ newer := by
  rw [hhistory, deedsIn_append, deedsIn_cons_self] at hdeeds
  rw [← mem_deedsIn]
  cases hnewer : deedsIn i newer with
  | nil =>
      rw [hnewer] at hdeeds
      cases hdeeds
      exact absurd rfl hne
  | cons first rest =>
      rw [hnewer] at hdeeds
      cases hdeeds
      exact List.mem_cons_self

/-!
## Entries in the order of time
-/

/-- The times of the entries run back from now. -/
def InOrder : Millis -> List Entry -> Prop
  | _, [] => True
  | now, entry :: earlier =>
      match entry.deed with
      | .set t _ => t <= now ∧ InOrder t earlier
      | .erased _ => InOrder now earlier
      | .reported _ => InOrder now earlier

theorem InOrder.later {now then_ : Millis} {history : List Entry} (h : InOrder now history)
    (hle : now <= then_) : InOrder then_ history := by
  induction history with
  | nil => trivial
  | cons entry earlier ih =>
      rcases entry with ⟨writer, deed⟩
      cases deed with
      | set t items => exact ⟨Nat.le_trans h.1 hle, h.2⟩
      | erased slots => exact ih h
      | reported answer => exact ih h

theorem InOrder.cons {now : Millis} {history : List Entry} (h : InOrder now history)
    {entry : Entry} (hproper : entry.deed.IsProper now) : InOrder now (entry :: history) := by
  rcases entry with ⟨writer, deed⟩
  cases deed with
  | set t items =>
      have heq : t = now := hproper
      rw [heq]
      exact ⟨Nat.le_refl now, h⟩
  | erased slots => exact h
  | reported answer => exact h

theorem InOrder.le_of_mem {now t : Millis} {history : List Entry} {writer : Option Nat}
    {items : List CacheItem} (h : InOrder now history)
    (hmem : ⟨writer, .set t items⟩ ∈ history) : t <= now := by
  induction history generalizing now with
  | nil => cases hmem
  | cons entry earlier ih =>
      rcases List.mem_cons.mp hmem with heq | hrest
      · rw [← heq] at h
        exact h.1
      · rcases entry with ⟨writer', deed⟩
        cases deed with
        | set t' items' => exact Nat.le_trans (ih h.2 hrest) h.1
        | erased slots => exact ih h hrest
        | reported answer => exact ih h hrest

/-- What was set later was set at no earlier time. -/
theorem InOrder.le_of_mem_append {now t t' : Millis} {newer older : List Entry}
    {writer writer' : Option Nat} {items items' : List CacheItem}
    (h : InOrder now (newer ++ older)) (hnewer : ⟨writer', .set t' items'⟩ ∈ newer)
    (holder : ⟨writer, .set t items⟩ ∈ older) : t <= t' := by
  induction newer generalizing now with
  | nil => cases hnewer
  | cons entry newer ih =>
      rcases List.mem_cons.mp hnewer with heq | hrest
      · rw [← heq] at h
        exact h.2.le_of_mem (List.mem_append_right newer holder)
      · rcases entry with ⟨writer'', deed⟩
        cases deed with
        | set t'' items'' => exact ih h.2 hrest
        | erased slots => exact ih h hrest
        | reported answer => exact ih h hrest

/-!
## Items that fade

Readers take out what has expired, and nothing else.
-/

theorem CacheEntry.isLive_of_le {e : CacheEntry} {now later : Millis} (h : now <= later)
    (hdead : e.isLive now = false) : e.isLive later = false := by
  unfold isLive at hdead ⊢
  cases hexpiry : e.expiry with
  | none =>
      rw [hexpiry] at hdead
      cases hdead
  | some t =>
      rw [hexpiry] at hdead
      simp only [decide_eq_false_iff_not, Nat.not_lt] at hdead ⊢
      exact Nat.le_trans hdead h

/-- A slot holds what is expected of it, or nothing where that has expired. -/
def HeldAs (held expected : Option CacheEntry) (now : Millis) : Prop :=
  held = expected ∨ (held = none ∧ ∃ e, expected = some e ∧ e.isLive now = false)

namespace HeldAs

variable {held between expected : Option CacheEntry} {now : Millis}

theorem later {then_ : Millis} (h : HeldAs held expected now) (hle : now <= then_) :
    HeldAs held expected then_ := by
  rcases h with heq | ⟨hnone, e, hexpected, hdead⟩
  · exact Or.inl heq
  · exact Or.inr ⟨hnone, e, hexpected, CacheEntry.isLive_of_le hle hdead⟩

theorem trans (h : HeldAs held between now) (h' : HeldAs between expected now) :
    HeldAs held expected now := by
  rcases h with heq | ⟨hnone, e, hbetween, hdead⟩
  · rw [heq]
    exact h'
  · rcases h' with heq | ⟨hempty, _⟩
    · exact Or.inr ⟨hnone, e, by rw [← heq, hbetween], hdead⟩
    · rw [hempty] at hbetween
      cases hbetween

end HeldAs

/-- The second cache is the first one after any number of reads. -/
def Cache.Fades (c : Cache) (now : Millis) (c' : Cache) : Prop :=
  ∀ slot, HeldAs (c'.held? slot) (c.held? slot) now

namespace Cache

theorem fades_refl (c : Cache) (now : Millis) : c.Fades now c := by
  intro slot
  exact Or.inl rfl

theorem Fades.trans {a b c : Cache} {now then_ : Millis} (hab : a.Fades now b)
    (hbc : b.Fades then_ c) (hle : now <= then_) : a.Fades then_ c := by
  intro slot
  exact (hbc slot).trans ((hab slot).later hle)

theorem fades_afterRead (c : Cache) (now : Millis) (slot : String) :
    c.Fades now (c.afterRead now slot) := by
  intro other
  unfold afterRead
  cases hheld : c.held? slot with
  | none => exact Or.inl rfl
  | some e =>
      by_cases hlive : e.isLive now = true
      · simp only [hlive, if_true]
        exact Or.inl rfl
      · have hdead : e.isLive now = false := by simpa using hlive
        simp only [hdead, Bool.false_eq_true, if_false]
        by_cases hother : other = slot
        · rw [held?_erase, if_pos hother, hother, hheld]
          exact Or.inr ⟨rfl, e, rfl, hdead⟩
        · rw [held?_erase, if_neg hother]
          exact Or.inl rfl

end Cache

/-!
## Caches that mirror their history
-/

/-- The cache is what its history made of the cache at first. -/
def Mirrors (first : Cache) (history : List Entry) (c : Cache) (now : Millis) : Prop :=
  ∀ slot, HeldAs (c.held? slot) ((standing slot history).expected? (first.held? slot)) now

theorem mirrors_nil (c : Cache) (now : Millis) : Mirrors c [] c now := by
  intro slot
  exact Or.inl rfl

namespace Mirrors

variable {first c : Cache} {history : List Entry} {now : Millis}

theorem fades {then_ : Millis} {c' : Cache} (h : Mirrors first history c now)
    (hfades : c.Fades then_ c') (hle : now <= then_) : Mirrors first history c' then_ := by
  intro slot
  exact (hfades slot).trans ((h slot).later hle)

theorem insertAll (h : Mirrors first history c now) (writer : Option Nat)
    (items : List CacheItem) :
    Mirrors first (⟨writer, .set now items⟩ :: history) (c.insertAll now items) now := by
  intro slot
  rw [Cache.held?_insertAll, standing_set]
  cases hplaced : Cache.placed? slot items with
  | some item => exact Or.inl rfl
  | none => exact h slot

theorem eraseAll (h : Mirrors first history c now) (writer : Option Nat)
    (slots : List String) :
    Mirrors first (⟨writer, .erased slots⟩ :: history) (c.eraseAll slots) now := by
  intro slot
  rw [Cache.held?_eraseAll, standing_erased]
  by_cases hmem : slot ∈ slots
  · rw [if_pos hmem, if_pos hmem]
    exact Or.inl rfl
  · rw [if_neg hmem, if_neg hmem]
    exact h slot

theorem reported (h : Mirrors first history c now) (writer : Option Nat)
    (answer : CacheAnswer) :
    Mirrors first (⟨writer, .reported answer⟩ :: history) c now := by
  intro slot
  rw [standing_reported]
  exact h slot

/-- A reader finds what stands in the slot while it is live. -/
theorem find?_eq (h : Mirrors first history c now) (slot : String) :
    c.find? now slot =
      (((standing slot history).expected? (first.held? slot)).filter
        fun e => e.isLive now).map CacheEntry.item := by
  unfold Cache.find?
  rcases h slot with heq | ⟨hnone, e, hexpected, hdead⟩
  · rw [heq]
  · rw [hnone, hexpected]
    simp [Option.filter, hdead]

theorem isLocked_of_holds (h : Mirrors first history c now) {slot : String}
    {writer : Option Nat} {e : CacheEntry} (hstands : standing slot history = .holds writer e)
    (hlive : e.isLive now = true) (hlock : e.item.isLock = true) :
    c.isLocked now slot = true := by
  unfold Cache.isLocked
  rw [h.find?_eq slot, hstands]
  simp [Standing.expected?, Option.filter, hlive, hlock]

theorem isLive_of_isLocked (h : Mirrors first history c now) {slot : String}
    {writer : Option Nat} {e : CacheEntry} (hstands : standing slot history = .holds writer e)
    (hlocked : c.isLocked now slot = true) : e.isLive now = true := by
  unfold Cache.isLocked at hlocked
  rw [h.find?_eq slot, hstands] at hlocked
  cases hlive : e.isLive now with
  | true => rfl
  | false => simp [Standing.expected?, Option.filter, hlive] at hlocked

theorem isLocked_of_empty (h : Mirrors first history c now) {slot : String}
    (hstands : standing slot history = .empty) : c.isLocked now slot = false := by
  unfold Cache.isLocked
  rw [h.find?_eq slot, hstands]
  rfl

end Mirrors
end WriteLatch
