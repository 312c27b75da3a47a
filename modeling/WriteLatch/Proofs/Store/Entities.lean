import WriteLatch.Proofs.Store.Numbers

/-!
# What is stored under a key

Entities are written one after another, so the last value that was accepted for
a key is the one that stays.  Where the keys are complete they are stored as
they are given, and a call is answered for every position by the size of the
value there.
-/

namespace WriteLatch

/-!
## The last value for a key
-/

/-- The value of the last entry with a key. -/
def lastValue? (entries : List (Key × Value)) (k : Key) : Option Value :=
  entries.reverse.lookup k

theorem lastValue?_append (first last : List (Key × Value)) (k : Key) :
    lastValue? (first ++ last) k = (lastValue? last k).or (lastValue? first k) := by
  rw [lastValue?, List.reverse_append, List.lookup_append]
  rfl

theorem lastValue?_cons (entry : Key × Value) (rest : List (Key × Value)) (k : Key) :
    lastValue? (entry :: rest) k =
      (lastValue? rest k).or (if k = entry.1 then some entry.2 else none) := by
  rcases entry with ⟨first, v⟩
  have hone : lastValue? [(first, v)] k = if k = first then some v else none := by
    rw [lastValue?, List.reverse_singleton]
    by_cases hk : k = first
    · rw [if_pos hk, hk]
      exact Association.lookup_cons_self first v []
    · rw [if_neg hk, Association.lookup_cons_of_ne hk]
      rfl
  rw [← hone]
  exact lastValue?_append [(first, v)] rest k

theorem lastValue?_eq_none {entries : List (Key × Value)} {k : Key}
    (h : ∀ entry ∈ entries, entry.1 ≠ k) : lastValue? entries k = none := by
  rw [lastValue?, List.lookup_eq_none_iff]
  intro entry hmem
  rw [bne_iff_ne]
  exact fun heq => h entry (List.mem_reverse.mp hmem) heq.symm

/-- The last entry with a key stands at the key's last position. -/
theorem lastValue?_zip {keys : List Key} {values : List Value} {i : Nat} {k : Key}
    (hlength : keys.length = values.length) (hi : keys[i]? = some k)
    (hlast : ∀ j, i < j -> keys[j]? ≠ some k) : lastValue? (keys.zip values) k = values[i]? := by
  induction keys generalizing values i with
  | nil => cases hi
  | cons first keys ih =>
      cases values with
      | nil => cases hlength
      | cons v values =>
          rw [List.zip_cons_cons, lastValue?_cons]
          have hrest : keys.length = values.length := Nat.succ.inj hlength
          cases i with
          | zero =>
              have habsent : lastValue? (keys.zip values) k = none := by
                apply lastValue?_eq_none
                intro entry hmem heq
                rcases List.mem_iff_getElem?.mp (List.of_mem_zip hmem).1 with ⟨j, hj⟩
                rw [heq] at hj
                exact hlast (j + 1) (Nat.succ_pos j) hj
              cases hi
              rw [habsent, if_pos rfl]
              rfl
          | succ i =>
              have hfound := ih hrest hi fun j hj => hlast (j + 1) (Nat.succ_lt_succ hj)
              have hlt : i < values.length := by
                rw [← hrest]
                exact Nat.lt_of_succ_lt_succ (List.getElem?_eq_some_iff.mp hi).1
              rw [hfound, List.getElem?_cons_succ, List.getElem?_eq_getElem hlt]
              rfl

/-- Where the keys are distinct, an entry that has been left in is the last one with
its key. -/
theorem lastValue?_filter_zip {keys : List Key} {values : List Value} (hnodup : keys.Nodup)
    (p : Key × Value -> Bool) {i : Nat} {k : Key} {v : Value} (hk : keys[i]? = some k)
    (hv : values[i]? = some v) :
    lastValue? ((keys.zip values).filter p) k = if p (k, v) then some v else none := by
  induction keys generalizing values i with
  | nil => cases hk
  | cons first keys ih =>
      cases values with
      | nil => cases hv
      | cons v' values =>
          rw [List.nodup_cons] at hnodup
          rw [List.zip_cons_cons, List.filter_cons]
          cases i with
          | zero =>
              cases hk
              cases hv
              have habsent : lastValue? ((keys.zip values).filter p) k = none := by
                apply lastValue?_eq_none
                intro entry hmem heq
                have hin := (List.of_mem_zip (List.mem_filter.mp hmem).1).1
                rw [heq] at hin
                exact hnodup.1 hin
              by_cases hp : p (k, v) = true
              · rw [if_pos hp, if_pos hp, lastValue?_cons, habsent, if_pos rfl]
                rfl
              · rw [if_neg hp, if_neg hp]
                exact habsent
          | succ i =>
              have hrest := ih hnodup.2 hk hv
              have hne : k ≠ first := by
                intro heq
                rw [heq] at hk
                exact hnodup.1 (List.mem_of_getElem? hk)
              by_cases hp : p (first, v') = true
              · rw [if_pos hp, lastValue?_cons, hrest, if_neg hne, Option.or_none]
              · rw [if_neg hp]
                exact hrest

namespace Store

/-!
## One call
-/

/-- What becomes of an entry under a complete key. -/
def slotFor (s : Store) (entry : Key × Value) : Slot :=
  if s.accepts entry then .ok entry.1
  else .error (oversized entry.1 entry.2.size s.maxEntitySize)

theorem slotFor_congr {s s' : Store} (h : s'.maxEntitySize = s.maxEntitySize) :
    s'.slotFor = s.slotFor := by
  funext entry
  rw [slotFor, slotFor, accepts_congr h, h]

theorem slotFor_of_fits {s : Store} {entry : Key × Value} (h : entry.2.size <= s.maxEntitySize) :
    s.slotFor entry = .ok entry.1 := by
  rw [slotFor, accepts, decide_eq_true h, if_pos rfl]

theorem getElem?_map_slotFor (s : Store) {keys : List Key} {values : List Value} {i : Nat}
    {k : Key} {v : Value} (hk : keys[i]? = some k) (hv : values[i]? = some v) :
    ((keys.zip values).map s.slotFor)[i]? =
      some (if v.size <= s.maxEntitySize then .ok k
        else .error (oversized k v.size s.maxEntitySize)) := by
  have hentry : (keys.zip values)[i]? = some (k, v) := List.getElem?_zip_eq_some.mpr ⟨hk, hv⟩
  rw [List.getElem?_map, hentry, Option.map_some, slotFor, accepts]
  simp only [decide_eq_true_eq]

theorem map_slotFor_of_fits {s : Store} {keys : List Key} {values : List Value}
    (hlength : keys.length = values.length) (h : ∀ v ∈ values, v.size <= s.maxEntitySize) :
    (keys.zip values).map s.slotFor = keys.map .ok := by
  have hslots : ∀ entry ∈ keys.zip values, s.slotFor entry = Except.ok entry.1 :=
    fun entry hmem => slotFor_of_fits (h entry.2 (List.of_mem_zip hmem).2)
  have hkeys : ((keys.zip values).map Prod.fst).map (Except.ok : Key -> Slot) = keys.map .ok :=
    congrArg (List.map Except.ok) (List.map_fst_zip (Nat.le_of_eq hlength))
  rw [List.map_congr_left hslots, ← hkeys, List.map_map]
  rfl

/-- Where no slot is a failure, all values are small enough. -/
theorem fits_of_map_slotFor {s : Store} {keys written : List Key} {values : List Value}
    (hlength : keys.length = values.length)
    (h : (keys.zip values).map s.slotFor = written.map .ok) :
    ∀ v ∈ values, v.size <= s.maxEntitySize := by
  have hvalues : (keys.zip values).map Prod.snd = values :=
    List.map_snd_zip (Nat.le_of_eq hlength.symm)
  rw [← hvalues]
  intro v hmem
  rcases List.mem_map.mp hmem with ⟨entry, hentry, heq⟩
  rw [← heq]
  have hslot : s.slotFor entry ∈ written.map Except.ok := by
    rw [← h]
    exact List.mem_map_of_mem hentry
  rcases List.mem_map.mp hslot with ⟨k, _, hok⟩
  by_cases hsmall : entry.2.size <= s.maxEntitySize
  · exact hsmall
  · rw [slotFor, accepts, decide_eq_false hsmall, if_neg Bool.false_ne_true] at hok
    cases hok

theorem resultOf_map_ok (keys : List Key) : resultOf (keys.map .ok) = .ok keys := by
  rw [resultOf, mapM_toOption_eq_some_iff.mpr rfl]

theorem resultOf_of_not_fits {s : Store} {keys : List Key} {values : List Value}
    (hlength : keys.length = values.length) (h : ¬ ∀ v ∈ values, v.size <= s.maxEntitySize) :
    resultOf ((keys.zip values).map s.slotFor) =
      .error (.positional ⟨(keys.zip values).map s.slotFor⟩) := by
  rcases resultOf_cases ((keys.zip values).map s.slotFor) with ⟨written, hslots, _⟩ | ⟨_, hresult⟩
  · exact absurd (fits_of_map_slotFor hlength hslots) h
  · exact hresult

theorem find?_write {s : Store} {entry : Key × Value} (hcomplete : entry.1.isComplete = true)
    (k : Key) :
    (s.write entry.1 entry.2).2.find? k =
      (if s.accepts entry = true ∧ k = entry.1 then some entry.2 else none).or (s.find? k) := by
  cases haccepts : s.accepts entry with
  | false =>
      rw [write_of_not_accepts haccepts, if_neg fun h => Bool.false_ne_true h.1]
      rfl
  | true =>
      have hfind : Store.find?
          { s.insert (s.completed entry.1) entry.2 with nextNumber := s.numberAfter entry.1 } k =
            if k = s.completed entry.1 then some entry.2 else s.find? k :=
        s.find?_insert (s.completed entry.1) k entry.2
      rw [write_of_accepts haccepts]
      dsimp only
      rw [hfind, s.completed_of_isComplete hcomplete]
      by_cases hk : k = entry.1
      · rw [if_pos hk, if_pos ⟨rfl, hk⟩, Option.some_or]
      · rw [if_neg hk, if_neg fun h => hk h.2, Option.none_or]

theorem find?_writeAll {s : Store} {entries : List (Key × Value)}
    (hcomplete : ∀ entry ∈ entries, entry.1.isComplete = true) (k : Key) :
    (s.writeAll entries).2.find? k =
      (lastValue? (entries.filter s.accepts) k).or (s.find? k) := by
  induction entries generalizing s with
  | nil => rfl
  | cons entry rest ih =>
      have hsame : (s.write entry.1 entry.2).2.accepts = s.accepts :=
        accepts_congr (s.limits_write entry.1 entry.2).2
      have hrest := ih (s := (s.write entry.1 entry.2).2)
        fun other hmem => hcomplete other (List.mem_cons_of_mem entry hmem)
      rw [hsame, find?_write (hcomplete entry List.mem_cons_self)] at hrest
      have hall : (s.writeAll (entry :: rest)).2 = ((s.write entry.1 entry.2).2.writeAll rest).2 :=
        rfl
      rw [hall, hrest, List.filter_cons]
      cases haccepts : s.accepts entry with
      | false => simp
      | true => simp [lastValue?_cons, Option.or_assoc]

theorem writeAll_eq_map {s : Store} {entries : List (Key × Value)}
    (hcomplete : ∀ entry ∈ entries, entry.1.isComplete = true) :
    (s.writeAll entries).1 = entries.map s.slotFor := by
  induction entries generalizing s with
  | nil => rfl
  | cons entry rest ih =>
      have hrest := ih (s := (s.write entry.1 entry.2).2)
        fun other hmem => hcomplete other (List.mem_cons_of_mem entry hmem)
      rw [slotFor_congr (s.limits_write entry.1 entry.2).2] at hrest
      have hall : (s.writeAll (entry :: rest)).1 =
          (s.write entry.1 entry.2).1 :: ((s.write entry.1 entry.2).2.writeAll rest).1 := rfl
      have hfirst : (s.write entry.1 entry.2).1 = s.slotFor entry := by
        rw [slotFor]
        cases haccepts : s.accepts entry with
        | true =>
            rw [write_of_accepts haccepts,
              s.completed_of_isComplete (hcomplete entry List.mem_cons_self)]
            rfl
        | false =>
            rw [write_of_not_accepts haccepts]
            rfl
      rw [hall, hfirst, hrest, List.map_cons]

theorem isComplete_of_mem_zip {keys : List Key} {values : List Value}
    (hcomplete : ∀ k ∈ keys, k.isComplete = true) :
    ∀ entry ∈ keys.zip values, entry.1.isComplete = true :=
  fun _ hmem => hcomplete _ (List.of_mem_zip hmem).1

/-- After a call every key has the last value that was accepted for it, or what
it had before. -/
theorem find?_putAll {s : Store} {keys : List Key} (values : List Value)
    (hcomplete : ∀ k ∈ keys, k.isComplete = true) (k : Key) :
    (s.putAll keys values).2.find? k =
      (lastValue? (s.entriesOf keys values) k).or (s.find? k) := by
  rw [entriesOf]
  cases hrefuses : s.refuses keys values with
  | true =>
      rcases putAll_of_refuses hrefuses with ⟨f, hput⟩
      rw [hput]
      rfl
  | false =>
      rw [putAll_of_not_refuses hrefuses]
      exact find?_writeAll (s := s.counting keys.length) (isComplete_of_mem_zip hcomplete) k

/-- A call that is not refused is answered by the sizes of the values. -/
theorem reply_putAll {s : Store} {keys : List Key} {values : List Value}
    (hcomplete : ∀ k ∈ keys, k.isComplete = true) (hrefuses : s.refuses keys values = false) :
    (s.putAll keys values).1 = resultOf ((keys.zip values).map s.slotFor) := by
  rw [putAll_of_not_refuses hrefuses]
  exact congrArg resultOf (writeAll_eq_map (isComplete_of_mem_zip hcomplete))

/-!
## Any number of calls
-/

theorem afterCalls_concat (s : Store) (calls : List (List Key × List Value))
    (call : List Key × List Value) :
    s.afterCalls (calls ++ [call]) = ((s.afterCalls calls).putAll call.1 call.2).2 := by
  rw [afterCalls, List.foldl_append]
  rfl

end Store
end WriteLatch
