import WriteLatch.Proofs.Encoding.Numerals
import WriteLatch.Text.Base64

/-!
# Base 64 keeps texts apart

Six bits have a digit of their own, and a group of digits gives back its
octets.  How many octets the last group had shows in how many digits it has, so
no two texts have the same base 64.  All its characters may stand in a URL.
-/

namespace WriteLatch
namespace Text

theorem base64Digit_inj {m n : Nat} (hm : m < 64) (hn : n < 64)
    (h : base64Digit m = base64Digit n) : m = n := by
  have hall : ∀ a < 64, ∀ b < 64, base64Digit a = base64Digit b -> a = b := by
    decide +kernel
  exact hall m hm n hn h

/-- The two digits of a last octet give it back. -/
theorem octet_of_two_digits {a b : UInt8}
    (h1 : base64Digit (a.toNat / 4) = base64Digit (b.toNat / 4))
    (h2 : base64Digit (a.toNat % 4 * 16) = base64Digit (b.toNat % 4 * 16)) : a = b := by
  have ha := a.toNat_lt
  have hb := b.toNat_lt
  have e1 := base64Digit_inj (by omega) (by omega) h1
  have e2 := base64Digit_inj (by omega) (by omega) h2
  exact UInt8.toNat_inj.mp (by omega)

theorem octets_of_three_digits {a a' b b' : UInt8}
    (h1 : base64Digit (a.toNat / 4) = base64Digit (b.toNat / 4))
    (h2 : base64Digit (a.toNat % 4 * 16 + a'.toNat / 16) =
      base64Digit (b.toNat % 4 * 16 + b'.toNat / 16))
    (h3 : base64Digit (a'.toNat % 16 * 4) = base64Digit (b'.toNat % 16 * 4)) :
    a = b ∧ a' = b' := by
  have ha := a.toNat_lt
  have ha' := a'.toNat_lt
  have hb := b.toNat_lt
  have hb' := b'.toNat_lt
  have e1 := base64Digit_inj (by omega) (by omega) h1
  have e2 := base64Digit_inj (by omega) (by omega) h2
  have e3 := base64Digit_inj (by omega) (by omega) h3
  exact ⟨UInt8.toNat_inj.mp (by omega), UInt8.toNat_inj.mp (by omega)⟩

theorem octets_of_four_digits {a a' a'' b b' b'' : UInt8}
    (h1 : base64Digit (a.toNat / 4) = base64Digit (b.toNat / 4))
    (h2 : base64Digit (a.toNat % 4 * 16 + a'.toNat / 16) =
      base64Digit (b.toNat % 4 * 16 + b'.toNat / 16))
    (h3 : base64Digit (a'.toNat % 16 * 4 + a''.toNat / 64) =
      base64Digit (b'.toNat % 16 * 4 + b''.toNat / 64))
    (h4 : base64Digit (a''.toNat % 64) = base64Digit (b''.toNat % 64)) :
    a = b ∧ a' = b' ∧ a'' = b'' := by
  have ha := a.toNat_lt
  have ha' := a'.toNat_lt
  have ha'' := a''.toNat_lt
  have hb := b.toNat_lt
  have hb' := b'.toNat_lt
  have hb'' := b''.toNat_lt
  have e1 := base64Digit_inj (by omega) (by omega) h1
  have e2 := base64Digit_inj (by omega) (by omega) h2
  have e3 := base64Digit_inj (by omega) (by omega) h3
  have e4 := base64Digit_inj (by omega) (by omega) h4
  exact ⟨UInt8.toNat_inj.mp (by omega), UInt8.toNat_inj.mp (by omega),
    UInt8.toNat_inj.mp (by omega)⟩

theorem base64Chars_inj {as bs : List UInt8} (h : base64Chars as = base64Chars bs) :
    as = bs := by
  have hlength : as.length = bs.length := by
    have hchars := congrArg List.length h
    rw [base64Chars_length, base64Chars_length] at hchars
    omega
  fun_induction base64Chars as generalizing bs with
  | case1 => exact (List.length_eq_zero_iff.mp hlength.symm).symm
  | case2 a =>
      rcases List.length_eq_one_iff.mp hlength.symm with ⟨b, hb⟩
      rw [hb] at h ⊢
      simp only [base64Chars, List.cons.injEq, and_true] at h
      rw [octet_of_two_digits h.left h.right]
  | case3 a a' =>
      rcases bs with _ | ⟨b, _ | ⟨b', _ | ⟨b'', bs⟩⟩⟩
      · cases hlength
      · cases hlength
      · simp only [base64Chars, List.cons.injEq, and_true] at h
        rcases octets_of_three_digits h.left h.right.left h.right.right with ⟨hab, hab'⟩
        rw [hab, hab']
      · cases hlength
  | case4 a a' a'' as ih =>
      rcases bs with _ | ⟨b, _ | ⟨b', _ | ⟨b'', bs⟩⟩⟩
      · cases hlength
      · cases hlength
      · cases hlength
      · simp only [base64Chars, List.cons.injEq] at h
        rcases h with ⟨h1, h2, h3, h4, hrest⟩
        rcases octets_of_four_digits h1 h2 h3 h4 with ⟨hab, hab', hab''⟩
        have hcount : as.length = bs.length := by
          simp only [List.length_cons] at hlength
          omega
        rw [hab, hab', hab'', ih hrest hcount]

/-!
## The alphabet
-/

/-- Letters and digits of ASCII, the hyphen and the underscore. -/
def IsUrlSafe (c : Char) : Prop :=
  c.isAlphanum = true ∨ c = '-' ∨ c = '_'

instance (c : Char) : Decidable (IsUrlSafe c) :=
  inferInstanceAs (Decidable (c.isAlphanum = true ∨ c = '-' ∨ c = '_'))

theorem isUrlSafe_base64Digit (n : Nat) : IsUrlSafe (base64Digit n) := by
  have hsmall : ∀ m < 63, IsUrlSafe (base64Digit m) := by
    decide +kernel
  by_cases h : n < 63
  · exact hsmall n h
  · have hlast : base64Digit n = '_' := by
      unfold base64Digit
      rw [if_neg (by omega), if_neg (by omega), if_neg (by omega), if_neg (by omega)]
    exact Or.inr (Or.inr hlast)

theorem isUrlSafe_of_mem_base64Chars (bs : List UInt8) :
    ∀ c ∈ base64Chars bs, IsUrlSafe c := by
  fun_induction base64Chars bs with
  | case1 =>
      intro c hc
      cases hc
  | case2 a => simp [isUrlSafe_base64Digit]
  | case3 a b => simp [isUrlSafe_base64Digit]
  | case4 a b c rest ih =>
      simp only [List.forall_mem_cons, isUrlSafe_base64Digit, true_and]
      exact ih

/-!
## Texts
-/

theorem octets_inj {s t : String} (h : octets s = octets t) : s = t := by
  have hdata : s.toByteArray.data = t.toByteArray.data := Array.toList_inj.mp h
  have hbytes : s.toByteArray = t.toByteArray := ByteArray.ext hdata
  exact String.toByteArray_inj.mp hbytes

theorem base64_inj {s t : String} (h : base64 s = base64 t) : s = t := by
  have hchars : base64Chars (octets s) = base64Chars (octets t) := by
    rw [← toList_base64, ← toList_base64, h]
  exact octets_inj (base64Chars_inj hchars)

theorem isUrlSafe_of_mem_base64 (s : String) : ∀ c ∈ (base64 s).toList, IsUrlSafe c := by
  rw [toList_base64]
  exact isUrlSafe_of_mem_base64Chars (octets s)

end Text
end WriteLatch
