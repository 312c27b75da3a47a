import WriteLatch.Store

/-!
# What a reply says of a position

A call that writes several keys is answered as a whole, but each position of it
has an outcome of its own.  The store's reply says at every position what became
of the entry there.
-/

namespace WriteLatch

/-- The key that was written at a position, if one was. -/
def writtenAt? (result : CallResult) (i : Nat) : Option Key :=
  match result with
  | .ok keys => keys[i]?
  | .error (.positional slots) => slots.toList[i]?.bind Except.toOption
  | .error (.wholesale _) => none

theorem writtenAt?_wholesale (f : Failure) (i : Nat) :
    writtenAt? (.error (.wholesale f)) i = none := rfl

theorem mapM_eq_some_iff {α β : Type} {f : α -> Option β} {xs : List α} {ys : List β} :
    xs.mapM f = some ys ↔ xs.map f = ys.map some := by
  induction xs generalizing ys with
  | nil => cases ys <;> simp
  | cons x xs ih =>
      cases ys with
      | nil => simp [Option.bind_eq_some_iff]
      | cons y ys =>
          simp only [List.mapM_cons, Option.bind_eq_bind, Option.bind_eq_some_iff, Option.pure_def,
            Option.some.injEq, List.cons.injEq, List.map_cons, ih]
          constructor
          · rintro ⟨y', hfirst, rest, hrest, hy, hys⟩
            exact ⟨hy ▸ hfirst, hys ▸ hrest⟩
          · rintro ⟨hfirst, hrest⟩
            exact ⟨y, hfirst, ys, hrest, rfl, rfl⟩

theorem exists_mapM_eq_some {α β : Type} {f : α -> Option β} {xs : List α}
    (h : ∀ x ∈ xs, (f x).isSome = true) : ∃ ys, xs.mapM f = some ys := by
  have hall : ∃ ys : List β, xs.map f = ys.map some := by
    induction xs with
    | nil => exact ⟨[], rfl⟩
    | cons x rest ih =>
        rcases Option.isSome_iff_exists.mp (h x List.mem_cons_self) with ⟨y, hy⟩
        rcases ih fun other hmem => h other (List.mem_cons_of_mem _ hmem) with ⟨ys, hys⟩
        exact ⟨y :: ys, by rw [List.map_cons, List.map_cons, hy, hys]⟩
  rcases hall with ⟨ys, hys⟩
  exact ⟨ys, mapM_eq_some_iff.mpr hys⟩

/-- Values can be read from all results exactly if none of them is an error. -/
theorem mapM_toOption_eq_some_iff {ε α : Type} {results : List (Except ε α)} {values : List α} :
    results.mapM (fun result => result.toOption) = some values ↔ results = values.map .ok := by
  rw [mapM_eq_some_iff]
  induction results generalizing values with
  | nil => cases values <;> simp
  | cons result results ih =>
      cases values with
      | nil => simp
      | cons x values =>
          rw [List.map_cons, List.map_cons, List.map_cons, List.cons.injEq, List.cons.injEq, ih]
          cases result <;> simp [Except.toOption]

namespace Store

/-- A reply is keys if no slot is a failure, and otherwise it is the slots. -/
theorem resultOf_cases (slots : List Slot) :
    (∃ keys, slots = keys.map .ok ∧ resultOf slots = .ok keys) ∨
      (∃ slot ∈ slots, slot.isFailure = true) ∧ resultOf slots = .error (.positional ⟨slots⟩) := by
  rw [resultOf]
  cases hkeys : slots.mapM fun slot => slot.toOption with
  | some keys => exact Or.inl ⟨keys, mapM_toOption_eq_some_iff.mp hkeys, rfl⟩
  | none =>
      refine Or.inr ⟨?_, rfl⟩
      cases hfailure : slots.any Slot.isFailure with
      | true => exact List.any_eq_true.mp hfailure
      | false =>
          have hall : ∃ keys, slots.mapM (fun slot => slot.toOption) = some keys := by
            apply exists_mapM_eq_some
            intro slot hmem
            cases slot with
            | ok k => rfl
            | error f => exact absurd rfl (List.any_eq_false.mp hfailure _ hmem)
          rcases hall with ⟨keys, hall⟩
          rw [hall] at hkeys
          cases hkeys

theorem writtenAt?_resultOf (slots : List Slot) (i : Nat) :
    writtenAt? (resultOf slots) i = slots[i]?.bind Except.toOption := by
  rcases resultOf_cases slots with ⟨keys, hslots, hresult⟩ | ⟨_, hresult⟩
  · rw [hresult, hslots, writtenAt?, List.getElem?_map]
    cases keys[i]? with
    | none => rfl
    | some k => rfl
  · rw [hresult]
    rfl

theorem resultOf_ne_wholesale (slots : List Slot) (f : Failure) :
    resultOf slots ≠ .error (.wholesale f) := by
  intro h
  rcases resultOf_cases slots with ⟨keys, _, hresult⟩ | ⟨_, hresult⟩
  · rw [hresult] at h
    cases h
  · rw [hresult] at h
    cases h

/-!
## Writing in order
-/

/-- Whether a value is small enough to be stored. -/
def accepts (s : Store) (entry : Key × Value) : Bool :=
  entry.2.size <= s.maxEntitySize

theorem write_of_accepts {s : Store} {k : Key} {v : Value} (h : s.accepts (k, v) = true) :
    s.write k v =
      (.ok (s.completed k),
        { s.insert (s.completed k) v with nextNumber := s.numberAfter k }) := by
  have hsize : ¬ s.maxEntitySize < v.size := by simpa [accepts] using h
  rw [write, if_neg hsize]

theorem write_of_not_accepts {s : Store} {k : Key} {v : Value} (h : s.accepts (k, v) = false) :
    s.write k v = (.error (oversized k v.size s.maxEntitySize), s) := by
  have hsize : s.maxEntitySize < v.size := by simpa [accepts] using h
  rw [write, if_pos hsize]

theorem limits_write (s : Store) (k : Key) (v : Value) :
    (s.write k v).2.limit = s.limit ∧ (s.write k v).2.maxEntitySize = s.maxEntitySize := by
  cases h : s.accepts (k, v) with
  | true => rw [write_of_accepts h]; exact ⟨rfl, rfl⟩
  | false => rw [write_of_not_accepts h]; exact ⟨rfl, rfl⟩

theorem limits_writeAll (s : Store) (entries : List (Key × Value)) :
    (s.writeAll entries).2.limit = s.limit ∧
      (s.writeAll entries).2.maxEntitySize = s.maxEntitySize := by
  induction entries generalizing s with
  | nil => exact ⟨rfl, rfl⟩
  | cons entry rest ih =>
      have hfirst := s.limits_write entry.1 entry.2
      have hrest := ih (s.write entry.1 entry.2).2
      exact ⟨hrest.1.trans hfirst.1, hrest.2.trans hfirst.2⟩

/-- The slot at a position is the outcome of writing the entry there, after those
before it. -/
theorem getElem?_writeAll (s : Store) (entries : List (Key × Value)) (i : Nat) :
    (s.writeAll entries).1[i]? =
      entries[i]?.map fun entry => ((s.writeAll (entries.take i)).2.write entry.1 entry.2).1 := by
  induction entries generalizing s i with
  | nil => rfl
  | cons entry rest ih =>
      cases i with
      | zero => rfl
      | succ i => exact ih (s.write entry.1 entry.2).2 i

/-!
## Calls
-/

/-- The store as a call finds it when it writes: the call has been counted. -/
def counting (s : Store) (n : Nat) : Store :=
  { s with callSizes := s.callSizes ++ [n] }

/-- A call is refused when it has too many keys, or another number of values. -/
def refuses (s : Store) (keys : List Key) (values : List Value) : Bool :=
  s.limit < keys.length || keys.length != values.length

theorem putAll_of_not_refuses {s : Store} {keys : List Key} {values : List Value}
    (h : s.refuses keys values = false) :
    s.putAll keys values =
      (resultOf ((s.counting keys.length).writeAll (keys.zip values)).1,
        ((s.counting keys.length).writeAll (keys.zip values)).2) := by
  rw [refuses, Bool.or_eq_false_iff, decide_eq_false_iff_not, bne_eq_false_iff_eq] at h
  rw [putAll, if_neg h.1, if_neg (not_not_intro h.2)]
  rfl

theorem putAll_of_refuses {s : Store} {keys : List Key} {values : List Value}
    (h : s.refuses keys values = true) :
    ∃ f, s.putAll keys values = (.error (.wholesale f), s.counting keys.length) := by
  rw [refuses, Bool.or_eq_true, decide_eq_true_eq, bne_iff_ne] at h
  by_cases hlimit : s.limit < keys.length
  · refine ⟨.tooManyKeys keys.length s.limit, ?_⟩
    rw [putAll, if_pos hlimit]
    rfl
  · have hlength : keys.length ≠ values.length := h.resolve_left hlimit
    refine ⟨lengthsDiffer keys.length values.length, ?_⟩
    rw [putAll, if_neg hlimit, if_pos hlength]
    rfl

/-- A key that a call has written is the key that was given for it, or that key
completed with the number that was next. -/
theorem writtenAt?_putAll {s : Store} {keys : List Key} {values : List Value} {i : Nat}
    {written : Key} (h : writtenAt? (s.putAll keys values).1 i = some written) :
    s.refuses keys values = false ∧
      ∃ k v, (keys.zip values)[i]? = some (k, v) ∧ s.accepts (k, v) = true ∧
        written =
          (((s.counting keys.length).writeAll ((keys.zip values).take i)).2).completed k := by
  cases hrefuses : s.refuses keys values with
  | true =>
      rcases putAll_of_refuses hrefuses with ⟨f, hput⟩
      rw [hput, writtenAt?_wholesale] at h
      cases h
  | false =>
      refine ⟨rfl, ?_⟩
      rw [putAll_of_not_refuses hrefuses, writtenAt?_resultOf, getElem?_writeAll] at h
      cases hentry : (keys.zip values)[i]? with
      | none =>
          rw [hentry] at h
          cases h
      | some entry =>
          rw [hentry, Option.map_some, Option.bind_some] at h
          have hlimits := (s.counting keys.length).limits_writeAll ((keys.zip values).take i)
          generalize hbefore : ((s.counting keys.length).writeAll ((keys.zip values).take i)).2 =
            before at h hlimits
          have hsame : before.accepts (entry.1, entry.2) = s.accepts (entry.1, entry.2) := by
            rw [accepts, accepts, hlimits.2]
            rfl
          cases haccepts : before.accepts (entry.1, entry.2) with
          | true =>
              rw [write_of_accepts haccepts] at h
              cases h
              exact ⟨entry.1, entry.2, rfl, hsame.symm.trans haccepts, rfl⟩
          | false =>
              rw [write_of_not_accepts haccepts] at h
              cases h

/-!
## Keys in a store
-/

/-- What a key that is given to the store can be written as. -/
def CanBecome (k written : Key) : Prop :=
  (k.isComplete = true ∧ written = k) ∨
    (k.isComplete = false ∧ ∃ n, written = k.completedWith n)

theorem canBecome_completed (s : Store) (k : Key) : CanBecome k (s.completed k) := by
  unfold completed
  cases hcomplete : k.isComplete with
  | true => exact Or.inl ⟨hcomplete, rfl⟩
  | false => exact Or.inr ⟨hcomplete, s.nextNumber, rfl⟩

theorem canBecome_of_writtenAt? {s : Store} {keys : List Key} {values : List Value} {i : Nat}
    {written : Key} (h : writtenAt? (s.putAll keys values).1 i = some written) :
    ∃ k, keys[i]? = some k ∧ CanBecome k written := by
  rcases writtenAt?_putAll h with ⟨_, k, v, hentry, _, hwritten⟩
  rw [List.getElem?_zip_eq_some] at hentry
  rw [hwritten]
  exact ⟨k, hentry.1, canBecome_completed _ k⟩

theorem isSome_find?_write (s : Store) (k : Key) (v : Value) (other : Key) :
    ((s.write k v).2.find? other).isSome = true ↔
      (s.find? other).isSome = true ∨ (s.accepts (k, v) = true ∧ other = s.completed k) := by
  cases haccepts : s.accepts (k, v) with
  | false =>
      rw [write_of_not_accepts haccepts]
      simp
  | true =>
      have hfind : Store.find? { s.insert (s.completed k) v with nextNumber := s.numberAfter k }
          other = if other = s.completed k then some v else s.find? other :=
        s.find?_insert (s.completed k) other v
      rw [write_of_accepts haccepts]
      dsimp only
      rw [hfind]
      by_cases hsame : other = s.completed k
      · simp [hsame]
      · simp [hsame]

theorem isSome_find?_writeAll {s : Store} {k : Key} (h : (s.find? k).isSome = true)
    (entries : List (Key × Value)) : ((s.writeAll entries).2.find? k).isSome = true := by
  induction entries generalizing s with
  | nil => exact h
  | cons entry rest ih => exact ih ((s.isSome_find?_write entry.1 entry.2 k).mpr (Or.inl h))

theorem canBecome_of_isSome_find?_writeAll {s : Store} {k : Key} {entries : List (Key × Value)}
    (h : ((s.writeAll entries).2.find? k).isSome = true) :
    (s.find? k).isSome = true ∨ ∃ entry ∈ entries, CanBecome entry.1 k := by
  induction entries generalizing s with
  | nil => exact Or.inl h
  | cons entry rest ih =>
      have hrest : (((s.write entry.1 entry.2).2.writeAll rest).2.find? k).isSome = true := h
      rcases ih hrest with hfirst | ⟨later, hmem, hbecome⟩
      · rcases (s.isSome_find?_write entry.1 entry.2 k).mp hfirst with hold | ⟨_, hk⟩
        · exact Or.inl hold
        · rw [hk]
          exact Or.inr ⟨entry, List.mem_cons_self, s.canBecome_completed entry.1⟩
      · exact Or.inr ⟨later, List.mem_cons_of_mem _ hmem, hbecome⟩

/-- No call takes a key out of the store. -/
theorem isSome_find?_putAll {s : Store} {k : Key} (h : (s.find? k).isSome = true)
    (keys : List Key) (values : List Value) :
    ((s.putAll keys values).2.find? k).isSome = true := by
  cases hrefuses : s.refuses keys values with
  | true =>
      rcases putAll_of_refuses hrefuses with ⟨f, hput⟩
      rw [hput]
      exact h
  | false =>
      rw [putAll_of_not_refuses hrefuses]
      exact isSome_find?_writeAll (s := s.counting keys.length) h (keys.zip values)

/-- A key is in the store after a call if it was there before, or one of the
given keys has become it. -/
theorem canBecome_of_isSome_find?_putAll {s : Store} {k : Key} {keys : List Key}
    {values : List Value} (h : ((s.putAll keys values).2.find? k).isSome = true) :
    (s.find? k).isSome = true ∨ ∃ k' ∈ keys, CanBecome k' k := by
  cases hrefuses : s.refuses keys values with
  | true =>
      rcases putAll_of_refuses hrefuses with ⟨f, hput⟩
      rw [hput] at h
      exact Or.inl h
  | false =>
      rw [putAll_of_not_refuses hrefuses] at h
      rcases canBecome_of_isSome_find?_writeAll h with hold | ⟨entry, hmem, hbecome⟩
      · exact Or.inl hold
      · exact Or.inr ⟨entry.1, (List.of_mem_zip hmem).1, hbecome⟩

end Store
end WriteLatch
