/-!
# Association lists

Values under names, each name at most once.  Putting a value under a name takes
away what stood there before.
-/

namespace WriteLatch

abbrev Association (α β : Type) : Type :=
  List (α × β)

namespace Association

variable {α β : Type} [DecidableEq α]

def erase (names : Association α β) (name : α) : Association α β :=
  names.filter fun e => e.1 != name

def put (names : Association α β) (name : α) (b : β) : Association α β :=
  (name, b) :: names.erase name

/-! ## Looking up -/

theorem lookup_cons_self (name : α) (b : β) (rest : Association α β) :
    List.lookup name ((name, b) :: rest) = some b := by
  simp

theorem lookup_cons_of_ne {other name : α} (h : other ≠ name) (b : β) (rest : Association α β) :
    List.lookup other ((name, b) :: rest) = List.lookup other rest := by
  have hb : (other == name) = false := by simpa using h
  rw [List.lookup_cons, hb]

theorem lookup_erase (names : Association α β) (name other : α) :
    List.lookup other (names.erase name) =
      if other = name then none else List.lookup other names := by
  induction names with
  | nil => simp [erase]
  | cons e rest ih =>
      obtain ⟨found, b⟩ := e
      have hrest : List.lookup other (List.filter (fun e => e.1 != name) rest) =
          if other = name then none else List.lookup other rest := ih
      by_cases h : found = name
      · have hf : erase ((found, b) :: rest) name = erase rest name := by
          simp [erase, h]
        rw [hf, ih]
        by_cases ho : other = name
        · simp [ho]
        · simp only [ho, if_false]
          exact (lookup_cons_of_ne (h ▸ ho) b rest).symm
      · have hf : erase ((found, b) :: rest) name = (found, b) :: erase rest name := by
          simp [erase, h]
        rw [hf]
        by_cases ho : other = found
        · subst ho
          simp [h]
        · rw [lookup_cons_of_ne ho, lookup_cons_of_ne ho, ih]

theorem lookup_put (names : Association α β) (name other : α) (b : β) :
    List.lookup other (names.put name b) =
      if other = name then some b else List.lookup other names := by
  by_cases h : other = name
  · simp [put, h]
  · rw [put, lookup_cons_of_ne h, lookup_erase, if_neg h, if_neg h]

theorem lookup_foldl_erase (gone : List α) (names : Association α β) (other : α) :
    List.lookup other (gone.foldl erase names) =
      if other ∈ gone then none else List.lookup other names := by
  induction gone generalizing names with
  | nil => simp
  | cons name gone ih =>
      rw [List.foldl_cons, ih, lookup_erase]
      by_cases h : other = name <;> simp [h]

end Association
end WriteLatch
