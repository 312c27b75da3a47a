import WriteLatch.Proofs.Documents.Scans

/-!
# Written strings are read back

A character of a string is written in one of three forms: as it is, as a
backslash with one more character, or as a code of four hexadecimal digits.
From each of them the reader takes just that character, so from a written
string it takes the string and stops behind its closing quote.
-/

namespace WriteLatch
namespace Json

/-!
## One character
-/

theorem scanText_simpleEscape {e c : Char} (he : e ≠ 'u') (hc : simpleEscape? e = some c)
    (s : List Char) : scanText none ('\\' :: e :: s) = andThen [c] (scanText none s) := by
  rw [scanText.eq_def]
  dsimp only
  rw [if_pos rfl, if_neg he, if_neg (by decide), hc]

theorem scanText_plain {c : Char} (hback : c ≠ '\\') (hquote : c ≠ '"')
    (hcontrol : isControl c = false) (s : List Char) :
    scanText none (c :: s) = andThen [c] (scanText none s) := by
  rw [scanText.eq_def]
  dsimp only
  rw [if_neg hback, if_neg (by decide), if_neg hquote,
    if_neg (by rw [hcontrol]; exact Bool.false_ne_true)]

theorem hexCode?_control {n : Nat} (hn : n < 0x20) :
    hexCode? '0' '0' (hexDigit (n / 16)) (hexDigit (n % 16)) = some n := by
  have hall : ∀ n < 0x20, hexCode? '0' '0' (hexDigit (n / 16)) (hexDigit (n % 16)) = some n := by
    decide
  exact hall n hn

/-- No control character is one half of a surrogate pair. -/
theorem textCode?_control {n : Nat} (hn : n < 0x20) :
    textCode? none n = some ([Char.ofNat n], none) := by
  have hlow : isLowSurrogate n = false := by simp [isLowSurrogate]; omega
  have hhigh : isHighSurrogate n = false := by simp [isHighSurrogate]; omega
  simp [textCode?, hlow, hhigh]

theorem scanText_control {c : Char} (hc : c.toNat < 0x20) (s : List Char) :
    scanText none
        ('\\' :: 'u' :: '0' :: '0' :: hexDigit (c.toNat / 16) :: hexDigit (c.toNat % 16) :: s) =
      andThen [c] (scanText none s) := by
  rw [scanText.eq_def]
  dsimp only
  rw [if_pos rfl, if_pos rfl, hexCode?_control hc, Option.bind_some, textCode?_control hc,
    Char.ofNat_toNat]

theorem escapedChar_cases (c : Char) :
    (∃ e, escapedChar c = ['\\', e] ∧ e ≠ 'u' ∧ simpleEscape? e = some c) ∨
      (escapedChar c =
          ['\\', 'u', '0', '0', hexDigit (c.toNat / 16), hexDigit (c.toNat % 16)] ∧
        c.toNat < 0x20) ∨
      (escapedChar c = [c] ∧ c ≠ '\\' ∧ c ≠ '"' ∧ isControl c = false) := by
  unfold escapedChar
  by_cases hquote : c = '"'
  · rw [if_pos hquote]
    exact Or.inl ⟨'"', rfl, by decide, by rw [hquote]; rfl⟩
  rw [if_neg hquote]
  by_cases hback : c = '\\'
  · rw [if_pos hback]
    exact Or.inl ⟨'\\', rfl, by decide, by rw [hback]; rfl⟩
  rw [if_neg hback]
  by_cases hbackspace : c = '\x08'
  · rw [if_pos hbackspace]
    exact Or.inl ⟨'b', rfl, by decide, by rw [hbackspace]; rfl⟩
  rw [if_neg hbackspace]
  by_cases hfeed : c = '\x0c'
  · rw [if_pos hfeed]
    exact Or.inl ⟨'f', rfl, by decide, by rw [hfeed]; rfl⟩
  rw [if_neg hfeed]
  by_cases hline : c = '\n'
  · rw [if_pos hline]
    exact Or.inl ⟨'n', rfl, by decide, by rw [hline]; rfl⟩
  rw [if_neg hline]
  by_cases hreturn : c = '\r'
  · rw [if_pos hreturn]
    exact Or.inl ⟨'r', rfl, by decide, by rw [hreturn]; rfl⟩
  rw [if_neg hreturn]
  by_cases htab : c = '\t'
  · rw [if_pos htab]
    exact Or.inl ⟨'t', rfl, by decide, by rw [htab]; rfl⟩
  rw [if_neg htab]
  by_cases hcontrol : c.toNat < 0x20
  · rw [if_pos hcontrol]
    exact Or.inr (Or.inl ⟨rfl, hcontrol⟩)
  · rw [if_neg hcontrol]
    exact Or.inr (Or.inr ⟨rfl, hback, hquote, decide_eq_false hcontrol⟩)

theorem scanText_quote (s : List Char) : scanText none ('"' :: s) = .ok ([], s) := by
  rw [scanText.eq_def]
  dsimp only
  rw [if_neg (by decide), if_neg (by decide), if_pos rfl]

theorem scanText_escapedChar (c : Char) (s : List Char) :
    scanText none (escapedChar c ++ s) = andThen [c] (scanText none s) := by
  rcases escapedChar_cases c with ⟨e, hform, he, hc⟩ | ⟨hform, hc⟩ | ⟨hform, hback, hquote, hc⟩
  · rw [hform]
    exact scanText_simpleEscape he hc s
  · rw [hform]
    exact scanText_control hc s
  · rw [hform]
    exact scanText_plain hback hquote hc s

/-!
## Whole strings
-/

theorem scanText_flatMap (cs s : List Char) :
    scanText none (cs.flatMap escapedChar ++ '"' :: s) = .ok (cs, s) := by
  induction cs with
  | nil => exact scanText_quote s
  | cons c cs ih =>
      rw [List.flatMap_cons, List.append_assoc, scanText_escapedChar, ih]
      rfl

/-- A written string behind its opening quote. -/
def afterQuote (text : String) : List Char :=
  text.toList.flatMap escapedChar ++ ['"']

theorem textChars_append (text : String) (s : List Char) :
    textChars text ++ s = '"' :: (afterQuote text ++ s) := rfl

theorem run_restOfText (text : String) (s : List Char) :
    restOfText.run (afterQuote text ++ s) = .ok (text, s) := by
  have hscan : (Scan.onRest (scanText none)).run (afterQuote text ++ s) = .ok (text.toList, s) := by
    rw [Scan.run_onRest, afterQuote, List.append_assoc]
    exact scanText_flatMap text.toList s
  rw [restOfText, Scan.run_bind_of_run hscan, String.ofList_toList]
  rfl

theorem run_readText (text : String) (s : List Char) :
    readText.run (textChars text ++ s) = .ok (text, s) := by
  rw [textChars_append, readText, run_peek_bind rfl]
  dsimp only
  rw [if_pos rfl, run_advance_bind]
  exact run_restOfText text s

theorem run_readTag (tag : String) (s : List Char) :
    readTag.run (textChars tag ++ s) = .ok (tag, s) := by
  rw [textChars_append, readTag, Scan.run_bind_of_run (run_punctuation rfl _)]
  exact run_restOfText tag s

/-- The name of a member, and the colon behind it. -/
theorem memberChars_append (name : String) (content s : List Char) :
    memberChars name content ++ s = '"' :: (afterQuote name ++ ':' :: (content ++ s)) := by
  rw [memberChars, List.append_assoc, textChars_append]
  rfl

/-- An object with one member, and what stands behind it. -/
theorem objectChars_one_append (name : String) (content s : List Char) :
    objectChars [memberChars name content] ++ s =
      '{' :: (textChars name ++ (':' :: (content ++ ('}' :: s)))) := by
  simp [objectChars, commaSeparated, memberChars]

end Json
end WriteLatch
