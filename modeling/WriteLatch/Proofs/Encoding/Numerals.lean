/-!
# Where a numeral ends

A numeral in a text is read back from its characters, and a run of characters
of one class is cut off at the first character outside the class.  Both facts
hold in every base up to sixteen, so they serve the decimal numbers of keys and
the code points between braces alike.
-/

namespace WriteLatch
namespace Text

/-- Nothing of the class stands at the head of a text. -/
def EndsRun (p : Char -> Bool) (rest : List Char) : Prop :=
  ∀ c, rest.head? = some c -> p c = false

theorem endsRun_nil (p : Char -> Bool) : EndsRun p [] := by
  intro c hc
  cases hc

theorem endsRun_cons {p : Char -> Bool} {c : Char} (h : p c = false) (rest : List Char) :
    EndsRun p (c :: rest) := by
  intro d hd
  cases hd
  exact h

/-- Two runs of one class that are continued outside the class and read the
same are the same run with the same continuation. -/
theorem run_append_inj {p : Char -> Bool} {xs ys u v : List Char}
    (hxs : ∀ c ∈ xs, p c = true) (hys : ∀ c ∈ ys, p c = true)
    (hu : EndsRun p u) (hv : EndsRun p v) (h : xs ++ u = ys ++ v) :
    xs = ys ∧ u = v := by
  induction xs generalizing ys with
  | nil =>
      cases ys with
      | nil => exact ⟨rfl, h⟩
      | cons y ys =>
          have hhead : u.head? = some y := by
            rw [List.nil_append] at h
            rw [h]
            rfl
          have hfalse := hu y hhead
          rw [hys y List.mem_cons_self] at hfalse
          cases hfalse
  | cons x xs ih =>
      cases ys with
      | nil =>
          have hhead : v.head? = some x := by
            rw [List.nil_append] at h
            rw [← h]
            rfl
          have hfalse := hv x hhead
          rw [hxs x List.mem_cons_self] at hfalse
          cases hfalse
      | cons y ys =>
          injection h with hhead htail
          have hrest := ih (fun c hc => hxs c (List.mem_cons_of_mem x hc))
            (fun c hc => hys c (List.mem_cons_of_mem y hc)) htail
          exact ⟨by rw [hhead, hrest.left], hrest.right⟩

/-!
## Digits
-/

theorem digitChar_inj_of_lt {m n : Nat} (hm : m < 16) (hn : n < 16)
    (h : Nat.digitChar m = Nat.digitChar n) : m = n := by
  have hall : ∀ a < 16, ∀ b < 16, Nat.digitChar a = Nat.digitChar b -> a = b := by
    decide
  exact hall m hm n hn h

theorem exists_digit_of_mem_toDigits {b : Nat} (hb : 1 < b) (n : Nat) {c : Char}
    (h : c ∈ Nat.toDigits b n) : ∃ d, d < b ∧ c = Nat.digitChar d := by
  induction n using Nat.strongRecOn with
  | ind n ih =>
      rw [Nat.toDigits_eq_if hb] at h
      by_cases hn : n < b
      · rw [if_pos hn, List.mem_singleton] at h
        exact ⟨n, hn, h⟩
      · rw [if_neg hn] at h
        rcases List.mem_append.mp h with hfront | hlast
        · exact ih (n / b) (Nat.div_lt_self (by omega) hb) hfront
        · exact ⟨n % b, Nat.mod_lt n (by omega), List.mem_singleton.mp hlast⟩

theorem toDigits_inj {b : Nat} (hb : 1 < b) (hb' : b <= 16) {m n : Nat}
    (h : Nat.toDigits b m = Nat.toDigits b n) : m = n := by
  induction m using Nat.strongRecOn generalizing n with
  | ind m ih =>
      rw [Nat.toDigits_eq_if hb (n := m), Nat.toDigits_eq_if hb (n := n)] at h
      have hm16 : m % b < 16 := Nat.lt_of_lt_of_le (Nat.mod_lt m (by omega)) hb'
      have hn16 : n % b < 16 := Nat.lt_of_lt_of_le (Nat.mod_lt n (by omega)) hb'
      by_cases hm : m < b
      · by_cases hn : n < b
        · rw [if_pos hm, if_pos hn] at h
          injection h with hdigit
          exact digitChar_inj_of_lt (by omega) (by omega) hdigit
        · rw [if_pos hm, if_neg hn] at h
          have hlength := congrArg List.length h
          have hpos := Nat.length_toDigits_pos (b := b) (n := n / b)
          simp only [List.length_append, List.length_singleton] at hlength
          omega
      · by_cases hn : n < b
        · rw [if_neg hm, if_pos hn] at h
          have hlength := congrArg List.length h
          have hpos := Nat.length_toDigits_pos (b := b) (n := m / b)
          simp only [List.length_append, List.length_singleton] at hlength
          omega
        · rw [if_neg hm, if_neg hn] at h
          rcases List.append_inj' h rfl with ⟨hfront, hlast⟩
          injection hlast with hdigit
          have hdiv : m / b = n / b :=
            ih (m / b) (Nat.div_lt_self (by omega) hb) hfront
          have hmod : m % b = n % b := digitChar_inj_of_lt hm16 hn16 hdigit
          rw [← Nat.div_add_mod m b, ← Nat.div_add_mod n b, hdiv, hmod]

end Text
end WriteLatch
