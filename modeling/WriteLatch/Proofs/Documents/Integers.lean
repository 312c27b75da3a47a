import WriteLatch.Proofs.Documents.Scans
import WriteLatch.Proofs.Encoding.Numerals

/-!
# Written integers are read back

An integer is written as its decimal digits, behind a minus sign if it is less
than zero, and never with a zero in front of other digits.  Read where nothing
carries it on, it is a numeral without fraction and exponent, and it is the
same integer again as long as its range holds it.
-/

namespace WriteLatch
namespace Json

/-!
## Digits
-/

/-- Behind an integer such a character would belong to its numeral. -/
def continuesNumeral (c : Char) : Bool :=
  isDigit c || c = '.' || c = 'e' || c = 'E'

theorem isDigit_of_mem_natChars {n : Nat} {c : Char} (h : c ∈ natChars n) :
    isDigit c = true := by
  rcases Text.exists_digit_of_mem_toDigits (by decide) n h with ⟨d, hd, rfl⟩
  have hall : ∀ d < 10, isDigit (Nat.digitChar d) = true := by
    decide
  exact hall d hd

theorem naturalOf_natChars (n : Nat) : naturalOf (natChars n) = n :=
  Nat.ofDigitChars_toDigits (by decide) (by decide)

theorem exists_natChars (n : Nat) : ∃ c ds, natChars n = c :: ds ∧ isDigit c = true := by
  rcases List.exists_cons_of_ne_nil (List.length_pos_iff.mp Nat.length_toDigits_pos) with
    ⟨c, ds, hchars⟩
  refine ⟨c, ds, hchars, isDigit_of_mem_natChars (n := n) ?_⟩
  rw [natChars, hchars]
  exact List.mem_cons_self

/-- No digits stand behind a zero that begins a number. -/
theorem natChars_leading_zero {n : Nat} {ds : List Char} (h : natChars n = '0' :: ds) :
    ds = [] := by
  induction n using Nat.strongRecOn generalizing ds with
  | ind n ih =>
      rw [natChars, Nat.toDigits_eq_if (by decide)] at h
      by_cases hn : n < 10
      · rw [if_pos hn] at h
        injection h with _ hnil
        exact hnil.symm
      · rw [if_neg hn] at h
        rcases exists_natChars (n / 10) with ⟨c, front, hfront, _⟩
        have hcons : c :: (front ++ [Nat.digitChar (n % 10)]) = '0' :: ds := by
          rw [← h, ← List.cons_append, ← hfront, natChars]
        injection hcons with hc _
        rw [hc] at hfront
        -- The front would be a zero by itself, and so the number less than ten.
        have hzero : naturalOf (natChars (n / 10)) = naturalOf ['0'] := by
          rw [hfront, ih (n / 10) (Nat.div_lt_self (by omega) (by decide)) hfront]
        rw [naturalOf_natChars] at hzero
        have hnone : naturalOf ['0'] = 0 := rfl
        omega

/-!
## Numerals
-/

theorem run_digits {cs s : List Char} (whenShort : Fault) (hne : cs ≠ [])
    (hcs : ∀ c ∈ cs, isDigit c = true) (hs : Text.EndsRun isDigit s) :
    (digits whenShort).run (cs ++ s) = .ok (cs, s) := by
  have htake : s.takeWhile isDigit = [] ∧ s.dropWhile isDigit = s := by
    cases s with
    | nil => exact ⟨rfl, rfl⟩
    | cons c s => simp [hs c rfl]
  cases cs with
  | nil => exact absurd rfl hne
  | cons c cs =>
      have hrest : ∀ d ∈ cs, isDigit d = true := fun d hd => hcs d (List.mem_cons_of_mem c hd)
      rw [digits, Scan.run_onRest, List.cons_append]
      dsimp only
      rw [if_pos (hcs c List.mem_cons_self), List.takeWhile_append_of_pos hrest,
        List.dropWhile_append_of_pos hrest, htake.1, htake.2, List.append_nil]

theorem run_wholeDigits (n : Nat) {s : List Char} (whenShort : Fault)
    (hs : Text.EndsRun isDigit s) :
    (wholeDigits whenShort).run (natChars n ++ s) = .ok (natChars n, s) := by
  have hdigits : (digits whenShort).run (natChars n ++ s) = .ok (natChars n, s) := by
    rcases exists_natChars n with ⟨c, ds, hchars, _⟩
    exact run_digits whenShort (by rw [hchars]; exact List.cons_ne_nil c ds)
      (fun c hc => isDigit_of_mem_natChars hc) hs
  rw [wholeDigits, Scan.run_onRest]
  split
  next c rest heq =>
    -- Two characters begin with a zero: the second one is not of the number.
    rcases exists_natChars n with ⟨d, ds, hchars, _⟩
    rw [hchars, List.cons_append] at heq
    injection heq with hd htail
    rw [hd] at hchars
    rw [natChars_leading_zero hchars, List.nil_append] at htail
    rw [natChars_leading_zero hchars] at hchars
    rw [if_neg (by rw [hs c (by rw [htail]; rfl)]; exact Bool.false_ne_true), hchars, htail]
  next => exact hdigits

theorem run_fractionDigits {s : List Char} (whenShort : Fault)
    (hs : Text.EndsRun continuesNumeral s) :
    (fractionDigits whenShort).run s = .ok ([], s) := by
  rw [fractionDigits, Scan.run_onRest]
  split
  next rest => exact absurd (hs '.' rfl) (by decide)
  next => rfl

theorem run_exponentDigits {s : List Char} (whenShort : Fault)
    (hs : Text.EndsRun continuesNumeral s) :
    (exponentDigits whenShort).run s = .ok ((false, []), s) := by
  have hnone (c : Char) (hc : continuesNumeral c = true) : s.head? ≠ some c := by
    intro hhead
    exact absurd (hs c hhead) (by rw [hc]; decide)
  rw [exponentDigits, run_get_bind, run_get_bind]
  simp only [hnone 'e' (by decide), hnone 'E' (by decide)]
  rfl

/-- A minus sign if there is one. -/
def signChars (negative : Bool) : List Char :=
  if negative then ['-'] else []

theorem run_minusSign (negative : Bool) {c : Char} (hc : isDigit c = true) (s : List Char) :
    minusSign.run (signChars negative ++ c :: s) = .ok (negative, c :: s) := by
  cases negative with
  | true => rfl
  | false =>
      rw [minusSign, Scan.run_onRest]
      split
      next rest heq =>
        injection heq with hhead _
        rw [hhead] at hc
        exact absurd hc (by decide)
      next => rfl

theorem run_numeral (negative : Bool) (n : Nat) {s : List Char} (whenShort : Fault)
    (hs : Text.EndsRun continuesNumeral s) :
    (numeral whenShort).run (signChars negative ++ natChars n ++ s) =
      .ok (⟨negative, natChars n, [], false, []⟩, s) := by
  have hsDigit : Text.EndsRun isDigit s := by
    intro c hc
    have hno := hs c hc
    simp only [continuesNumeral, Bool.or_eq_false_iff] at hno
    exact hno.1.1.1
  have hsign : minusSign.run (signChars negative ++ (natChars n ++ s)) =
      .ok (negative, natChars n ++ s) := by
    rcases exists_natChars n with ⟨c, ds, hchars, hc⟩
    rw [hchars]
    exact run_minusSign negative hc (ds ++ s)
  rw [numeral, List.append_assoc, Scan.run_bind_of_run hsign,
    Scan.run_bind_of_run (run_wholeDigits n whenShort hsDigit),
    Scan.run_bind_of_run (run_fractionDigits whenShort hs),
    Scan.run_bind_of_run (run_exponentDigits whenShort hs)]
  rfl

/-!
## Numbers
-/

theorem number?_natural {n : Nat} (hn : n < Nat.pow 2 64) :
    Numeral.number? ⟨false, natChars n, [], false, []⟩ = some (.natural n) := by
  simp only [Numeral.number?, naturalOf_natChars, List.isEmpty_nil, Bool.and_true, if_true,
    Bool.false_eq_true, if_false, if_pos hn]

theorem number?_negative {n : Nat} (hpos : 0 < n) (hn : n <= Nat.pow 2 63) :
    Numeral.number? ⟨true, natChars n, [], false, []⟩ = some (.negative n) := by
  have hrange : (0 < n && n <= Nat.pow 2 63) = true := by
    rw [Bool.and_eq_true, decide_eq_true_eq, decide_eq_true_eq]
    exact ⟨hpos, hn⟩
  simp only [Numeral.number?, naturalOf_natChars, List.isEmpty_nil, Bool.and_true, if_true,
    if_pos hrange]

theorem run_readNumber {negative : Bool} {n : Nat} {s : List Char} {number : Number}
    (hs : Text.EndsRun continuesNumeral s)
    (hnumber : Numeral.number? ⟨negative, natChars n, [], false, []⟩ = some number) :
    readNumber.run (signChars negative ++ natChars n ++ s) = .ok (number, s) := by
  rw [readNumber, Scan.run_bind_of_run (run_numeral negative n .truncated hs), hnumber]
  rfl

theorem isBlank_of_isDigit {c : Char} (h : isDigit c = true) : isBlank c = false := by
  rw [Bool.eq_false_iff]
  intro hblank
  simp only [isBlank, Bool.or_eq_true, decide_eq_true_eq] at hblank
  rcases hblank with ((rfl | rfl) | rfl) | rfl <;> exact absurd h (by decide)

theorem beginsItem_natChars (n : Nat) : BeginsItem (natChars n) := by
  rcases exists_natChars n with ⟨c, ds, hchars, hc⟩
  refine ⟨c, ds, hchars, isBlank_of_isDigit hc, ?_⟩
  rintro rfl
  exact absurd hc (by decide)

theorem run_readNumberAs {α : Type} {accept : Number -> Option α} (negative : Bool) {n : Nat}
    {s : List Char} {number : Number} {a : α} (hs : Text.EndsRun continuesNumeral s)
    (hnumber : Numeral.number? ⟨negative, natChars n, [], false, []⟩ = some number)
    (haccept : accept number = some a) :
    (readNumberAs accept).run (signChars negative ++ natChars n ++ s) = .ok (a, s) := by
  have hread := run_readNumber hs hnumber
  -- What is looked at first is the sign or else the first digit.
  obtain ⟨c, rest, hchars, hblank, hc⟩ : ∃ c rest,
      signChars negative ++ natChars n ++ s = c :: rest ∧ isBlank c = false ∧
        (c = '-' || isDigit c) = true := by
    cases negative with
    | true => exact ⟨'-', natChars n ++ s, rfl, rfl, rfl⟩
    | false =>
        rcases exists_natChars n with ⟨c, ds, hchars, hc⟩
        refine ⟨c, ds ++ s, by rw [hchars]; rfl, isBlank_of_isDigit hc, ?_⟩
        rw [hc, Bool.or_true]
  rw [hchars] at hread ⊢
  rw [readNumberAs, run_peek_bind hblank]
  dsimp only
  rw [if_pos hc, Scan.run_bind_of_run hread, haccept]
  rfl

/-- A written integer of sixty-four bits. -/
theorem run_readNumberAs_int64 (n : Int64) {s : List Char}
    (hs : Text.EndsRun continuesNumeral s) :
    (readNumberAs Number.int64?).run (intChars n.toInt ++ s) = .ok (n, s) := by
  have hlow := n.le_toInt
  have hhigh := n.toInt_lt
  cases hn : n.toInt with
  | ofNat m =>
      have hm : m < 2 ^ 63 := by
        rw [hn, Int.ofNat_eq_natCast] at hhigh
        omega
      have hrange : m < Nat.pow 2 63 := hm
      have haccept : (Number.natural m).int64? = some n := by
        rw [Number.int64?, if_pos hrange, ← Int64.ofInt_toInt n, hn]
        rfl
      exact run_readNumberAs false hs (number?_natural (Nat.lt_trans hrange (by decide))) haccept
  | negSucc m =>
      have hm : m + 1 <= 2 ^ 63 := by
        rw [hn] at hlow
        omega
      have haccept : (Number.negative (m + 1)).int64? = some n := by
        rw [Number.int64?, ← Int64.ofInt_toInt n, hn]
        rfl
      exact run_readNumberAs true hs (number?_negative (by omega) hm) haccept

theorem run_readNumberAs_octet (b : UInt8) {s : List Char}
    (hs : Text.EndsRun continuesNumeral s) :
    (readNumberAs Number.octet?).run (natChars b.toNat ++ s) = .ok (b, s) := by
  have hb : b.toNat < 256 := b.toNat_lt
  have haccept : (Number.natural b.toNat).octet? = some b := by
    rw [Number.octet?, if_pos hb, UInt8.ofNat_toNat]
  exact run_readNumberAs false hs (number?_natural (Nat.lt_trans hb (by decide))) haccept

end Json
end WriteLatch
