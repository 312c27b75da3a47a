import WriteLatch.Proofs.Store.Replies

/-!
# Numbers from the store

A key that is left incomplete is completed with the next number of the store.
Numbers are handed out one after another, none of them twice.  But a client may
choose a number for a key of its own, and the store does not look whether the
number that is next has been chosen so.  Whether there is an entity under a key
at the moment the store completes it depends on just that.
-/

namespace WriteLatch
namespace Store

/-- Nothing has been written, and no number has been handed out. -/
structure IsNew (s : Store) : Prop where
  entities : s.entities = []
  nextNumber : s.nextNumber = 1

/-- The entries of a call that are written, in order. -/
def entriesOf (s : Store) (keys : List Key) (values : List Value) : List (Key × Value) :=
  if s.refuses keys values then [] else (keys.zip values).filter s.accepts

/-!
## Numbers handed out
-/

/-- How many numbers it took to write the entries. -/
def assigned (written : List (Key × Value)) : Nat :=
  written.countP fun entry => !entry.1.isComplete

/-- The number after so many others. -/
def numberFrom (count : Nat) : Int64 :=
  Int64.ofNat (1 + count)

theorem numberFrom_succ (count : Nat) : numberFrom count + 1 = numberFrom (count + 1) := by
  rw [numberFrom, numberFrom, ← Nat.add_assoc, Int64.ofNat_add (1 + count) 1]
  rfl

/-- How many numbers there are to be handed out. -/
def numberCount : Nat :=
  Nat.pow 2 63 - 1

theorem numberFrom_inj {m n : Nat} (hm : m < numberCount) (hn : n < numberCount)
    (h : numberFrom m = numberFrom n) : m = n := by
  have hcount : numberCount = 9223372036854775807 := rfl
  have hints := congrArg Int64.toInt h
  rw [numberFrom, numberFrom, Int64.toInt_ofNat_of_lt (by omega),
    Int64.toInt_ofNat_of_lt (by omega)] at hints
  omega

theorem assigned_concat (written : List (Key × Value)) (entry : Key × Value) :
    assigned (written ++ [entry]) =
      assigned written + if entry.1.isComplete then 0 else 1 := by
  rw [assigned, assigned, List.countP_append, List.countP_singleton]
  cases entry.1.isComplete <;> rfl

/-- A key with one of the first numbers. -/
def HasNumberBelow (k : Key) (count : Nat) : Prop :=
  ∃ n < count, k.leaf.identity = .numbered (numberFrom n)

theorem HasNumberBelow.of_le {k : Key} {count count' : Nat} (h : HasNumberBelow k count)
    (hle : count <= count') : HasNumberBelow k count' := by
  rcases h with ⟨n, hlt, hidentity⟩
  exact ⟨n, Nat.lt_of_lt_of_le hlt hle, hidentity⟩

theorem not_hasNumberBelow_completedWith {k : Key} {count : Nat} (hfew : count < numberCount) :
    ¬ HasNumberBelow (k.completedWith (numberFrom count)) count := by
  rintro ⟨n, hlt, hidentity⟩
  rw [Key.completedWith, Identity.numbered.injEq] at hidentity
  have hsame := numberFrom_inj hfew (Nat.lt_trans hlt hfew) hidentity
  omega

/-!
## What is in a store

A store that has written some entries, and no others, holds them under the keys
that were chosen for them or under keys with the numbers handed out.
-/

structure HasWritten (s : Store) (written : List (Key × Value)) : Prop where
  nextNumber : s.nextNumber = numberFrom (assigned written)
  kept : ∀ entry ∈ written, entry.1.isComplete = true -> (s.find? entry.1).isSome = true
  known : ∀ k, (s.find? k).isSome = true ->
    (∃ entry ∈ written, entry.1 = k) ∨ HasNumberBelow k (assigned written)

theorem IsNew.hasWritten {s : Store} (h : s.IsNew) : s.HasWritten [] where
  nextNumber := h.nextNumber
  kept := by
    intro entry hmem
    cases hmem
  known := by
    intro k hk
    rw [find?, h.entities] at hk
    cases hk

theorem HasWritten.of_eq {s s' : Store} {written : List (Key × Value)} (h : s.HasWritten written)
    (hentities : s'.entities = s.entities) (hnext : s'.nextNumber = s.nextNumber) :
    s'.HasWritten written := by
  have hfind (k : Key) : s'.find? k = s.find? k := by
    rw [find?, find?, hentities]
  constructor
  · rw [hnext]
    exact h.nextNumber
  · intro entry hmem hcomplete
    rw [hfind]
    exact h.kept entry hmem hcomplete
  · intro k hk
    rw [hfind] at hk
    exact h.known k hk

theorem HasWritten.completed_eq {s : Store} {written : List (Key × Value)}
    (h : s.HasWritten written) (k : Key) :
    s.completed k =
      if k.isComplete then k else k.completedWith (numberFrom (assigned written)) := by
  rw [completed, h.nextNumber]

theorem HasWritten.write {s : Store} {written : List (Key × Value)} (h : s.HasWritten written)
    {k : Key} {v : Value} (haccepts : s.accepts (k, v) = true) :
    (s.write k v).2.HasWritten (written ++ [(k, v)]) := by
  rw [write_of_accepts haccepts]
  have hfind (other : Key) :
      Store.find? { s.insert (s.completed k) v with nextNumber := s.numberAfter k } other =
        if other = s.completed k then some v else s.find? other :=
    s.find?_insert (s.completed k) other v
  constructor
  · rw [assigned_concat, numberAfter, h.nextNumber]
    cases k.isComplete with
    | true => rfl
    | false => exact numberFrom_succ (assigned written)
  · intro entry hmem hcomplete
    rw [hfind]
    by_cases hsame : entry.1 = s.completed k
    · rw [if_pos hsame]
      rfl
    · rw [if_neg hsame]
      rcases List.mem_append.mp hmem with hold | hnew
      · exact h.kept entry hold hcomplete
      · rw [List.mem_singleton.mp hnew] at hsame hcomplete
        exact absurd (s.completed_of_isComplete hcomplete).symm hsame
  · intro other hother
    rw [hfind] at hother
    rw [assigned_concat]
    by_cases hsame : other = s.completed k
    · rw [hsame, h.completed_eq]
      cases hcomplete : k.isComplete with
      | true => exact Or.inl ⟨(k, v), List.mem_append_right _ List.mem_cons_self, rfl⟩
      | false => exact Or.inr ⟨assigned written, Nat.lt_succ_self _, rfl⟩
    · rw [if_neg hsame] at hother
      rcases h.known other hother with ⟨entry, hmem, hentry⟩ | hnumber
      · exact Or.inl ⟨entry, List.mem_append_left _ hmem, hentry⟩
      · exact Or.inr (hnumber.of_le (Nat.le_add_right _ _))

theorem HasWritten.writeAll {s : Store} {written : List (Key × Value)} (h : s.HasWritten written)
    (entries : List (Key × Value)) :
    (s.writeAll entries).2.HasWritten (written ++ entries.filter s.accepts) := by
  induction entries generalizing s written with
  | nil =>
      rw [List.filter_nil, List.append_nil]
      exact h
  | cons entry rest ih =>
      have hlimits := s.limits_write entry.1 entry.2
      have hsame : (s.write entry.1 entry.2).2.accepts = s.accepts := by
        funext other
        rw [accepts, accepts, hlimits.2]
      rw [List.filter_cons]
      cases haccepts : s.accepts entry with
      | true =>
          have hrest := ih (h.write haccepts)
          rw [hsame, List.append_assoc] at hrest
          exact hrest
      | false =>
          have hskipped : (s.write entry.1 entry.2).2.HasWritten written := by
            rw [write_of_not_accepts haccepts]
            exact h
          have hrest := ih hskipped
          rw [hsame] at hrest
          exact hrest

theorem HasWritten.putAll {s : Store} {written : List (Key × Value)} (h : s.HasWritten written)
    (keys : List Key) (values : List Value) :
    (s.putAll keys values).2.HasWritten (written ++ s.entriesOf keys values) := by
  have hcounting : (s.counting keys.length).HasWritten written := h.of_eq rfl rfl
  rw [entriesOf]
  cases hrefuses : s.refuses keys values with
  | true =>
      rcases putAll_of_refuses hrefuses with ⟨f, hput⟩
      rw [hput, if_pos rfl, List.append_nil]
      exact hcounting
  | false =>
      rw [putAll_of_not_refuses hrefuses, if_neg Bool.false_ne_true]
      exact hcounting.writeAll (keys.zip values)

/-!
## Any number of calls
-/

/-- The store after some calls, the first one first. -/
def afterCalls (s : Store) (calls : List (List Key × List Value)) : Store :=
  calls.foldl (fun s call => (s.putAll call.1 call.2).2) s

/-- The entries that some calls write. -/
def entriesOfCalls (s : Store) (calls : List (List Key × List Value)) : List (Key × Value) :=
  calls.flatMap fun call => s.entriesOf call.1 call.2

/-- The store at the moment at which a call comes to a position. -/
def comingTo (s : Store) (keys : List Key) (values : List Value) (i : Nat) : Store :=
  ((s.counting keys.length).writeAll ((keys.zip values).take i)).2

/-- The entries that have been written by the moment at which a call, after some
others, comes to a position. -/
def entriesBefore (s : Store) (calls : List (List Key × List Value)) (keys : List Key)
    (values : List Value) (i : Nat) : List (Key × Value) :=
  s.entriesOfCalls calls ++ ((keys.zip values).take i).filter s.accepts

theorem limits_putAll (s : Store) (keys : List Key) (values : List Value) :
    (s.putAll keys values).2.limit = s.limit ∧
      (s.putAll keys values).2.maxEntitySize = s.maxEntitySize := by
  cases hrefuses : s.refuses keys values with
  | true =>
      rcases putAll_of_refuses hrefuses with ⟨f, hput⟩
      rw [hput]
      exact ⟨rfl, rfl⟩
  | false =>
      rw [putAll_of_not_refuses hrefuses]
      exact (s.counting keys.length).limits_writeAll (keys.zip values)

theorem limits_afterCalls (s : Store) (calls : List (List Key × List Value)) :
    (s.afterCalls calls).limit = s.limit ∧
      (s.afterCalls calls).maxEntitySize = s.maxEntitySize := by
  induction calls generalizing s with
  | nil => exact ⟨rfl, rfl⟩
  | cons call rest ih =>
      have hfirst := s.limits_putAll call.1 call.2
      have hrest := ih (s.putAll call.1 call.2).2
      exact ⟨hrest.1.trans hfirst.1, hrest.2.trans hfirst.2⟩

/-- What a store accepts depends on its limits only. -/
theorem accepts_congr {s s' : Store} (h : s'.maxEntitySize = s.maxEntitySize) :
    s'.accepts = s.accepts := by
  funext entry
  rw [accepts, accepts, h]

theorem entriesOf_congr {s s' : Store}
    (h : s'.limit = s.limit ∧ s'.maxEntitySize = s.maxEntitySize) (keys : List Key)
    (values : List Value) : s'.entriesOf keys values = s.entriesOf keys values := by
  rw [entriesOf, entriesOf, refuses, refuses, h.1, accepts_congr h.2]

theorem entriesOfCalls_congr {s s' : Store}
    (h : s'.limit = s.limit ∧ s'.maxEntitySize = s.maxEntitySize)
    (calls : List (List Key × List Value)) : s'.entriesOfCalls calls = s.entriesOfCalls calls := by
  rw [entriesOfCalls, entriesOfCalls]
  congr 1
  funext call
  exact entriesOf_congr h call.1 call.2

theorem HasWritten.afterCalls {s : Store} {written : List (Key × Value)}
    (h : s.HasWritten written) (calls : List (List Key × List Value)) :
    (s.afterCalls calls).HasWritten (written ++ s.entriesOfCalls calls) := by
  induction calls generalizing s written with
  | nil =>
      rw [entriesOfCalls, List.flatMap_nil, List.append_nil]
      exact h
  | cons call rest ih =>
      have hrest := ih (h.putAll call.1 call.2)
      rw [entriesOfCalls_congr (s.limits_putAll call.1 call.2), List.append_assoc] at hrest
      rw [entriesOfCalls, List.flatMap_cons]
      exact hrest

theorem hasWritten_comingTo {s : Store} (hnew : s.IsNew) (calls : List (List Key × List Value))
    (keys : List Key) (values : List Value) (i : Nat) :
    ((s.afterCalls calls).comingTo keys values i).HasWritten
      (s.entriesBefore calls keys values i) := by
  have hcalls := hnew.hasWritten.afterCalls calls
  rw [List.nil_append] at hcalls
  have hcounting : ((s.afterCalls calls).counting keys.length).HasWritten
      (s.entriesOfCalls calls) := hcalls.of_eq rfl rfl
  have hwritten := hcounting.writeAll ((keys.zip values).take i)
  have hsame : ((s.afterCalls calls).counting keys.length).accepts = s.accepts :=
    accepts_congr (s.limits_afterCalls calls).2
  rw [hsame] at hwritten
  exact hwritten

/-!
## Whether a completed key is new
-/

/-- When the store completes a key, there is an entity under the completed key
already exactly if a client has chosen that key for an entity written before, in
an earlier call or earlier in the same one. -/
theorem isSome_find?_completed_iff {s : Store} (hnew : s.IsNew)
    {calls : List (List Key × List Value)} {keys : List Key} {values : List Value} {i : Nat}
    {k written : Key} (hk : keys[i]? = some k) (hincomplete : k.isComplete = false)
    (hreply : writtenAt? ((s.afterCalls calls).putAll keys values).1 i = some written)
    (hfew : assigned (s.entriesBefore calls keys values i) < numberCount) :
    (((s.afterCalls calls).comingTo keys values i).find? written).isSome = true ↔
      ∃ entry ∈ s.entriesBefore calls keys values i, entry.1 = written := by
  have hbefore := hasWritten_comingTo hnew calls keys values i
  have hwritten : written =
      k.completedWith (numberFrom (assigned (s.entriesBefore calls keys values i))) := by
    rcases writtenAt?_putAll hreply with ⟨_, k', v, hentry, _, hcompleted⟩
    rw [List.getElem?_zip_eq_some] at hentry
    have hsame : k' = k := Option.some.inj (hentry.1.symm.trans hk)
    have hmoment : written = ((s.afterCalls calls).comingTo keys values i).completed k' :=
      hcompleted
    rw [hmoment, hbefore.completed_eq, hsame, hincomplete, if_neg Bool.false_ne_true]
  constructor
  · intro hfound
    rcases hbefore.known written hfound with hchosen | hnumber
    · exact hchosen
    · rw [hwritten] at hnumber
      exact absurd hnumber (not_hasNumberBelow_completedWith hfew)
  · rintro ⟨entry, hmem, hentry⟩
    rw [← hentry]
    apply hbefore.kept entry hmem
    rw [hentry, hwritten]
    rfl

/-- A client writes an entity under the number one.  Then it leaves the number of
another one to the store. -/
def ownCall : List Key × List Value :=
  ([.numbered "Item" 1], [.int 1])

theorem isSome_find?_completed_afterOwn :
    (((({} : Store).afterCalls [ownCall]).comingTo [.incomplete "Item"] [.int 2] 0).find?
        (.numbered "Item" 1)).isSome = true ↔
      ∃ entry ∈ ({} : Store).entriesBefore [ownCall] [.incomplete "Item"] [.int 2] 0,
        entry.1 = Key.numbered "Item" 1 := by
  have hnew : ({} : Store).IsNew := ⟨rfl, rfl⟩
  have hreply : writtenAt? ((({} : Store).afterCalls [ownCall]).putAll [.incomplete "Item"]
      [.int 2]).1 0 = some (Key.numbered "Item" 1) := rfl
  exact isSome_find?_completed_iff hnew rfl rfl hreply (by decide)

/-- The number is handed out although it is in use, and the entity under it is
overwritten. -/
theorem overwritten_afterOwn :
    ({} : Store).IsNew ∧
      assigned (({} : Store).entriesBefore [ownCall] [.incomplete "Item"] [.int 2] 0) <
        numberCount ∧
      writtenAt? ((({} : Store).afterCalls [ownCall]).putAll [.incomplete "Item"] [.int 2]).1 0 =
        some (Key.numbered "Item" 1) ∧
      (({} : Store).afterCalls [ownCall]).find? (Key.numbered "Item" 1) = some (.int 1) ∧
      ((({} : Store).afterCalls [ownCall]).putAll [.incomplete "Item"] [.int 2]).2.find?
        (Key.numbered "Item" 1) = some (.int 2) :=
  ⟨⟨rfl, rfl⟩, by decide, rfl, rfl, rfl⟩

end Store
end WriteLatch
