import WriteLatch.Proofs.Documents.Integers
import WriteLatch.Proofs.Documents.Texts

/-!
# How deep a text nests

Lists and objects of a text are counted from its brackets, and a bracket within
a string is none.  The nesting of a text is the most containers open at once.
What the printer writes closes every container that it opens, so pieces in a row
nest as deep as the deepest of them, and brackets around a piece count for one
more.
-/

namespace WriteLatch
namespace Json

/-- Where a character stands: between strings, within one, or within one behind
a backslash. -/
inductive Place where
  | between
  | within
  | escaped
  deriving DecidableEq, Repr

def isOpening (c : Char) : Bool :=
  c = '[' || c = '{'

def isClosing (c : Char) : Bool :=
  c = ']' || c = '}'

/-- The most containers open at once from here on, with so many open already. -/
def deepest : Place -> Nat -> List Char -> Nat
  | _, opened, [] => opened
  | .between, opened, c :: cs =>
      if c = '"' then deepest .within opened cs
      else if isOpening c then deepest .between (opened + 1) cs
      else if isClosing c then max opened (deepest .between (opened - 1) cs)
      else deepest .between opened cs
  | .within, opened, c :: cs =>
      if c = '"' then deepest .between opened cs
      else if c = '\\' then deepest .escaped opened cs
      else deepest .within opened cs
  | .escaped, opened, _ :: cs => deepest .within opened cs

def nesting (text : String) : Nat :=
  deepest .between 0 text.toList

theorem le_deepest (place : Place) (opened : Nat) (cs : List Char) :
    opened <= deepest place opened cs := by
  induction cs generalizing place opened with
  | nil => cases place <;> exact Nat.le_refl opened
  | cons c cs ih =>
      cases place with
      | between =>
          rw [deepest]
          split
          · exact ih .within opened
          · split
            · exact Nat.le_trans (Nat.le_succ opened) (ih .between (opened + 1))
            · split
              · exact Nat.le_max_left opened _
              · exact ih .between opened
      | within =>
          rw [deepest]
          split
          · exact ih .between opened
          · split
            · exact ih .escaped opened
            · exact ih .within opened
      | escaped => exact ih .within opened

/-!
## Strings
-/

theorem deepest_within_plain {c : Char} (hback : c ≠ '\\') (hquote : c ≠ '"') (opened : Nat)
    (s : List Char) : deepest .within opened (c :: s) = deepest .within opened s := by
  rw [deepest, if_neg hquote, if_neg hback]

theorem deepest_within_escaped (e : Char) (opened : Nat) (s : List Char) :
    deepest .within opened ('\\' :: e :: s) = deepest .within opened s := by
  rw [deepest, if_neg (by decide), if_pos rfl, deepest]

theorem hexDigit_ne {n : Nat} (hn : n < 16) : hexDigit n ≠ '\\' ∧ hexDigit n ≠ '"' := by
  have hall : ∀ n < 16, hexDigit n ≠ '\\' ∧ hexDigit n ≠ '"' := by
    decide
  exact hall n hn

theorem deepest_within_escapedChar (c : Char) (opened : Nat) (s : List Char) :
    deepest .within opened (escapedChar c ++ s) = deepest .within opened s := by
  rcases escapedChar_cases c with ⟨e, hform, _, _⟩ | ⟨hform, hc⟩ | ⟨hform, hback, hquote, _⟩
  · rw [hform]
    exact deepest_within_escaped e opened s
  · have hhigh := hexDigit_ne (n := c.toNat / 16) (by omega)
    have hlow := hexDigit_ne (n := c.toNat % 16) (by omega)
    rw [hform]
    change deepest .within opened ('\\' :: 'u' :: '0' :: '0' :: hexDigit (c.toNat / 16) ::
      hexDigit (c.toNat % 16) :: s) = _
    rw [deepest_within_escaped, deepest_within_plain (by decide) (by decide),
      deepest_within_plain (by decide) (by decide), deepest_within_plain hhigh.1 hhigh.2,
      deepest_within_plain hlow.1 hlow.2]
  · rw [hform]
    exact deepest_within_plain hback hquote opened s

theorem deepest_within_flatMap (cs : List Char) (opened : Nat) (s : List Char) :
    deepest .within opened (cs.flatMap escapedChar ++ '"' :: s) = deepest .between opened s := by
  induction cs with
  | nil =>
      change deepest .within opened ('"' :: s) = _
      rw [deepest, if_pos rfl]
  | cons c cs ih =>
      rw [List.flatMap_cons, List.append_assoc, deepest_within_escapedChar, ih]

/-!
## Pieces of a document
-/

/-- The piece closes what it opens, and has at most so many containers of its own
open at once. -/
def NestsTo (n : Nat) (piece : List Char) : Prop :=
  ∀ (opened : Nat) (s : List Char),
    deepest .between opened (piece ++ s) = max (opened + n) (deepest .between opened s)

theorem nestsTo_zero_iff {piece : List Char} :
    NestsTo 0 piece ↔
      ∀ (opened : Nat) (s : List Char),
        deepest .between opened (piece ++ s) = deepest .between opened s := by
  have hmax (opened : Nat) (s : List Char) :
      max (opened + 0) (deepest .between opened s) = deepest .between opened s :=
    Nat.max_eq_right (le_deepest .between opened s)
  constructor
  · intro h opened s
    rw [h, hmax]
  · intro h opened s
    rw [h, hmax]

theorem nestsTo_textChars (text : String) : NestsTo 0 (textChars text) := by
  rw [nestsTo_zero_iff]
  intro opened s
  rw [textChars_append, afterQuote, List.append_assoc, deepest, if_pos rfl]
  exact deepest_within_flatMap text.toList opened s

/-- Neither a quote nor a bracket. -/
def isFlat (c : Char) : Bool :=
  c != '"' && !isOpening c && !isClosing c

theorem nestsTo_of_isFlat {cs : List Char} (h : cs.all isFlat = true) : NestsTo 0 cs := by
  rw [nestsTo_zero_iff]
  intro opened s
  induction cs with
  | nil => rfl
  | cons c cs ih =>
      rw [List.all_cons, Bool.and_eq_true] at h
      have hc := h.1
      simp only [isFlat, Bool.and_eq_true, bne_iff_ne, Bool.not_eq_true'] at hc
      rw [List.cons_append, deepest, if_neg hc.1.1, hc.1.2, hc.2, if_neg (by decide),
        if_neg (by decide)]
      exact ih h.2

theorem isFlat_of_isDigit {c : Char} (h : isDigit c = true) : isFlat c = true := by
  have hne (mark : Char) (hmark : isDigit mark = false) : c ≠ mark := by
    rintro rfl
    exact absurd h (by rw [hmark]; exact Bool.false_ne_true)
  simp [isFlat, isOpening, isClosing, hne '"' rfl, hne '[' rfl, hne '{' rfl, hne ']' rfl,
    hne '}' rfl]

theorem all_isFlat_natChars (n : Nat) : (natChars n).all isFlat = true :=
  List.all_eq_true.mpr fun _ hc => isFlat_of_isDigit (isDigit_of_mem_natChars hc)

theorem nestsTo_natChars (n : Nat) : NestsTo 0 (natChars n) :=
  nestsTo_of_isFlat (all_isFlat_natChars n)

theorem nestsTo_intChars (n : Int) : NestsTo 0 (intChars n) := by
  cases n with
  | ofNat n => exact nestsTo_natChars n
  | negSucc n =>
      refine nestsTo_of_isFlat ?_
      rw [intChars, List.all_cons, all_isFlat_natChars]
      rfl

theorem nestsTo_boolChars (b : Bool) : NestsTo 0 (boolChars b) := by
  cases b <;> exact nestsTo_of_isFlat rfl

theorem nestsTo_nullChars : NestsTo 0 nullChars :=
  nestsTo_of_isFlat rfl

theorem NestsTo.append {m n : Nat} {cs ds : List Char} (hcs : NestsTo m cs)
    (hds : NestsTo n ds) : NestsTo (max m n) (cs ++ ds) := by
  intro opened s
  rw [List.append_assoc, hcs, hds]
  omega

theorem NestsTo.member {n : Nat} {content : List Char} (name : String)
    (h : NestsTo n content) : NestsTo n (memberChars name content) := by
  have hcolon : NestsTo 0 [':'] := nestsTo_of_isFlat rfl
  have hmember := (nestsTo_textChars name).append (hcolon.append h)
  rw [Nat.zero_max, Nat.zero_max] at hmember
  exact hmember

/-!
## Containers
-/

theorem nestsTo_sequence_nil (first : Bool) : NestsTo 0 (sequenceChars first []) := by
  rw [sequenceChars_nil]
  exact nestsTo_of_isFlat rfl

theorem nestsTo_separator (first : Bool) : NestsTo 0 (separator first) := by
  cases first <;> exact nestsTo_of_isFlat rfl

theorem NestsTo.sequence_cons {m n : Nat} {item : List Char} {items : List (List Char)}
    (first : Bool) (hitem : NestsTo m item) (hitems : NestsTo n (sequenceChars false items)) :
    NestsTo (max m n) (sequenceChars first (item :: items)) := by
  have hall := ((nestsTo_separator first).append hitem).append hitems
  rw [Nat.zero_max] at hall
  rw [sequenceChars_cons]
  exact hall

theorem NestsTo.enclosed {n : Nat} {cs : List Char} {opener closer : Char} (h : NestsTo n cs)
    (hopener : isOpening opener = true) (hopenerQuote : opener ≠ '"')
    (hcloser : isClosing closer = true) (hcloserOpens : isOpening closer = false)
    (hcloserQuote : closer ≠ '"') : NestsTo (n + 1) (opener :: (cs ++ [closer])) := by
  intro opened s
  have hclosed : deepest .between (opened + 1) (closer :: s) =
      max (opened + 1) (deepest .between opened s) := by
    rw [deepest, if_neg hcloserQuote, hcloserOpens, hcloser, if_neg (by decide), if_pos rfl,
      Nat.add_sub_cancel]
  rw [List.cons_append, List.append_assoc, deepest, if_neg hopenerQuote, if_pos hopener, h]
  change max (opened + 1 + n) (deepest .between (opened + 1) (closer :: s)) = _
  rw [hclosed]
  omega

theorem NestsTo.list {n : Nat} {items : List (List Char)}
    (h : NestsTo n (sequenceChars true items)) : NestsTo (n + 1) (listChars items) :=
  h.enclosed rfl (by decide) rfl rfl (by decide)

theorem NestsTo.object {n : Nat} {members : List (List Char)}
    (h : NestsTo n (sequenceChars true members)) : NestsTo (n + 1) (objectChars members) :=
  h.enclosed rfl (by decide) rfl rfl (by decide)

theorem nesting_ofList {n : Nat} {cs : List Char} (h : NestsTo n cs) :
    nesting (String.ofList cs) = n := by
  have hdeepest := h 0 []
  rw [List.append_nil] at hdeepest
  rw [nesting, String.toList_ofList, hdeepest, deepest, Nat.max_zero, Nat.zero_add]

end Json
end WriteLatch
