import WriteLatch.Proofs.Encoding.Numerals
import WriteLatch.Text.Quoted

/-!
# Quoted text splits uniquely

A quoted text ends at its closing quote, whatever follows it, and shows which
characters it was made from.  Every character has one of three forms: itself, a
backslash with one more character, or its code point between braces.  No form
is the beginning of another, so the quoted characters are read off one by one.
-/

namespace WriteLatch
namespace Text

/-- The character that a backslash and one more character stand for. -/
def shortEscaped (e : Char) : Char :=
  if e = 'n' then '\n'
  else if e = 'r' then '\r'
  else if e = 't' then '\t'
  else if e = '0' then '\x00'
  else e

theorem quotedChar_cases (c : Char) :
    (quotedChar c = [c] ∧ c ≠ '"' ∧ c ≠ '\\') ∨
      (∃ e, quotedChar c = ['\\', e] ∧ e ≠ 'u' ∧ c = shortEscaped e) ∨
        quotedChar c = codePointEscape c := by
  unfold quotedChar
  by_cases hquote : c = '"'
  · rw [if_pos hquote]
    exact Or.inr (Or.inl ⟨'"', rfl, by decide, hquote⟩)
  rw [if_neg hquote]
  by_cases hback : c = '\\'
  · rw [if_pos hback]
    exact Or.inr (Or.inl ⟨'\\', rfl, by decide, hback⟩)
  rw [if_neg hback]
  by_cases hline : c = '\n'
  · rw [if_pos hline]
    exact Or.inr (Or.inl ⟨'n', rfl, by decide, hline⟩)
  rw [if_neg hline]
  by_cases hreturn : c = '\r'
  · rw [if_pos hreturn]
    exact Or.inr (Or.inl ⟨'r', rfl, by decide, hreturn⟩)
  rw [if_neg hreturn]
  by_cases htab : c = '\t'
  · rw [if_pos htab]
    exact Or.inr (Or.inl ⟨'t', rfl, by decide, htab⟩)
  rw [if_neg htab]
  by_cases hnull : c = '\x00'
  · rw [if_pos hnull]
    exact Or.inr (Or.inl ⟨'0', rfl, by decide, hnull⟩)
  rw [if_neg hnull]
  by_cases hcode : needsCodePoint c = true
  · rw [if_pos hcode]
    exact Or.inr (Or.inr rfl)
  · rw [if_neg hcode]
    exact Or.inl ⟨rfl, hquote, hback⟩

/-- The closing quote begins no quoted character. -/
theorem quotedChar_append_ne_quote (c : Char) (u v : List Char) :
    quotedChar c ++ u ≠ '"' :: v := by
  intro h
  rcases quotedChar_cases c with ⟨hc, hquote, _⟩ | ⟨e, hc, _, _⟩ | hc
  · rw [hc] at h
    injection h with hhead _
    exact hquote hhead
  · rw [hc] at h
    injection h with hhead _
    exact absurd hhead (by decide)
  · rw [hc, codePointEscape] at h
    injection h with hhead _
    exact absurd hhead (by decide)

/-!
## Code points between braces
-/

theorem isNotBrace_of_mem_toDigits (n : Nat) :
    ∀ c ∈ Nat.toDigits 16 n, (c != '}') = true := by
  intro c hc
  rcases exists_digit_of_mem_toDigits (by decide) n hc with ⟨d, hd, rfl⟩
  have hall : ∀ a < 16, (Nat.digitChar a != '}') = true := by
    decide
  exact hall d hd

theorem codePointEscape_append_inj {c d : Char} {u v : List Char}
    (h : codePointEscape c ++ u = codePointEscape d ++ v) : c = d ∧ u = v := by
  have hdigits : Nat.toDigits 16 c.toNat ++ '}' :: u = Nat.toDigits 16 d.toNat ++ '}' :: v := by
    simpa [codePointEscape] using h
  rcases run_append_inj (isNotBrace_of_mem_toDigits c.toNat) (isNotBrace_of_mem_toDigits d.toNat)
    (endsRun_cons rfl u) (endsRun_cons rfl v) hdigits with ⟨hcode, hrest⟩
  injection hrest with _ huv
  have hnat : c.toNat = d.toNat := toDigits_inj (by decide) (by decide) hcode
  exact ⟨Char.toNat_inj.mp hnat, huv⟩

/-!
## One character, then a whole text
-/

theorem quotedChar_append_inj {c d : Char} {u v : List Char}
    (h : quotedChar c ++ u = quotedChar d ++ v) : c = d ∧ u = v := by
  rcases quotedChar_cases c with ⟨hc, _, hcback⟩ | ⟨e, hc, heu, hce⟩ | hc
  · rw [hc] at h
    rcases quotedChar_cases d with ⟨hd, _, _⟩ | ⟨f, hd, _, _⟩ | hd
    · rw [hd] at h
      injection h with hhead htail
      exact ⟨hhead, htail⟩
    · rw [hd] at h
      injection h with hhead _
      exact absurd hhead hcback
    · rw [hd, codePointEscape] at h
      injection h with hhead _
      exact absurd hhead hcback
  · rw [hc] at h
    rcases quotedChar_cases d with ⟨hd, _, hdback⟩ | ⟨f, hd, _, hdf⟩ | hd
    · rw [hd] at h
      injection h with hhead _
      exact absurd hhead.symm hdback
    · rw [hd] at h
      injection h with _ hrest
      injection hrest with hef htail
      exact ⟨by rw [hce, hdf, hef], htail⟩
    · rw [hd, codePointEscape] at h
      injection h with _ hrest
      injection hrest with he _
      exact absurd he heu
  · rcases quotedChar_cases d with ⟨hd, _, hdback⟩ | ⟨f, hd, hfu, _⟩ | hd
    · rw [hc, hd, codePointEscape] at h
      injection h with hhead _
      exact absurd hhead.symm hdback
    · rw [hc, hd, codePointEscape] at h
      injection h with _ hrest
      injection hrest with hf _
      exact absurd hf.symm hfu
    · rw [hc, hd] at h
      exact codePointEscape_append_inj h

theorem flatMap_quotedChar_inj {cs ds u v : List Char}
    (h : cs.flatMap quotedChar ++ '"' :: u = ds.flatMap quotedChar ++ '"' :: v) :
    cs = ds ∧ u = v := by
  induction cs generalizing ds with
  | nil =>
      cases ds with
      | nil =>
          injection h with _ huv
          exact ⟨rfl, huv⟩
      | cons d ds =>
          rw [List.flatMap_cons, List.append_assoc] at h
          exact absurd h.symm (quotedChar_append_ne_quote d _ u)
  | cons c cs ih =>
      cases ds with
      | nil =>
          rw [List.flatMap_cons, List.append_assoc] at h
          exact absurd h (quotedChar_append_ne_quote c _ v)
      | cons d ds =>
          rw [List.flatMap_cons, List.flatMap_cons, List.append_assoc, List.append_assoc] at h
          rcases quotedChar_append_inj h with ⟨hcd, hrest⟩
          rcases ih hrest with ⟨hcs, huv⟩
          exact ⟨by rw [hcd, hcs], huv⟩

/-- Two quoted texts that read the same with what follows are the same texts,
followed by the same. -/
theorem quotedChars_append_inj {cs ds u v : List Char}
    (h : quotedChars cs ++ u = quotedChars ds ++ v) : cs = ds ∧ u = v := by
  have hbody : cs.flatMap quotedChar ++ '"' :: u = ds.flatMap quotedChar ++ '"' :: v := by
    simpa [quotedChars] using h
  exact flatMap_quotedChar_inj hbody

end Text
end WriteLatch
