import Mathlib.Data.List.Induction
import WriteLatch.Lock
import WriteLatch.Proofs.Encoding.Base64
import WriteLatch.Proofs.Encoding.Quoted

/-!
# Keys in their encoding

The display of a key is read from the root down.  An element ends where its
identity ends, and after it stands a stroke or nothing, so a path is taken
apart in one way only.  What an encoding tells is the space of the key itself
with the kinds and identities along the path; the spaces of the ancestors are
not shown.  In a valid key they are all the same, which is why no two valid
keys share a slot.
-/

namespace WriteLatch

open Text

/-- Where an element may end: before a stroke, or at the end of the text. -/
def EndsElement (rest : List Char) : Prop :=
  rest = [] ∨ ∃ u, rest = '/' :: u

theorem endsElement_nil : EndsElement [] :=
  Or.inl rfl

theorem endsElement_cons (u : List Char) : EndsElement ('/' :: u) :=
  Or.inr ⟨u, rfl⟩

theorem EndsElement.endsRun {rest : List Char} (h : EndsElement rest)
    {p : Char -> Bool} (hp : p '/' = false) : EndsRun p rest := by
  rcases h with rfl | ⟨u, rfl⟩
  · exact endsRun_nil p
  · exact endsRun_cons hp u

/-!
## Numbers
-/

theorem isDigit_of_mem_decimal (n : Nat) : ∀ c ∈ Nat.toDigits 10 n, c.isDigit = true := by
  intro c hc
  exact Nat.isDigit_of_mem_toDigits (by decide) (by decide) hc

theorem decimal_append_inj {m n : Nat} {u v : List Char} (hu : EndsElement u)
    (hv : EndsElement v) (h : Nat.toDigits 10 m ++ u = Nat.toDigits 10 n ++ v) :
    m = n ∧ u = v := by
  rcases run_append_inj (isDigit_of_mem_decimal m) (isDigit_of_mem_decimal n)
    (hu.endsRun (by decide)) (hv.endsRun (by decide)) h with ⟨hdigits, huv⟩
  exact ⟨toDigits_inj (by decide) (by decide) hdigits, huv⟩

/-- A numeral begins with a digit. -/
theorem exists_head_decimal (n : Nat) :
    ∃ c cs, Nat.toDigits 10 n = c :: cs ∧ c.isDigit = true := by
  cases h : Nat.toDigits 10 n with
  | nil => exact absurd h Nat.toDigits_ne_nil
  | cons c cs =>
      refine ⟨c, cs, rfl, isDigit_of_mem_decimal n c ?_⟩
      rw [h]
      exact List.mem_cons_self

theorem chars_int_of_nonneg {i : Int} (h : 0 <= i) :
    (toString i).toList = Nat.toDigits 10 i.toNat := by
  rw [Int.toString_eq_repr, Int.repr_eq_if, if_pos h, Nat.toList_repr]

theorem chars_int_of_neg {i : Int} (h : ¬ 0 <= i) :
    (toString i).toList = '-' :: Nat.toDigits 10 (-i).toNat := by
  rw [Int.toString_eq_repr, Int.repr_eq_if, if_neg h, String.toList_append, Nat.toList_repr]
  rfl

theorem cons_ne_decimal {c : Char} (hc : c.isDigit = false) (n : Nat) (u v : List Char) :
    c :: u ≠ Nat.toDigits 10 n ++ v := by
  intro h
  rcases exists_head_decimal n with ⟨d, ds, hn, hd⟩
  rw [hn] at h
  injection h with hhead _
  rw [hhead, hd] at hc
  cases hc

theorem cons_ne_int {c : Char} (hc : c.isDigit = false) (hminus : c ≠ '-') (i : Int)
    (u v : List Char) : c :: u ≠ (toString i).toList ++ v := by
  intro h
  by_cases hi : 0 <= i
  · rw [chars_int_of_nonneg hi] at h
    exact cons_ne_decimal hc i.toNat u v h
  · rw [chars_int_of_neg hi] at h
    injection h with hhead _
    exact hminus hhead

theorem int_append_inj {i j : Int} {u v : List Char} (hu : EndsElement u) (hv : EndsElement v)
    (h : (toString i).toList ++ u = (toString j).toList ++ v) : i = j ∧ u = v := by
  by_cases hi : 0 <= i
  · by_cases hj : 0 <= j
    · rw [chars_int_of_nonneg hi, chars_int_of_nonneg hj] at h
      rcases decimal_append_inj hu hv h with ⟨hnat, huv⟩
      exact ⟨by omega, huv⟩
    · rw [chars_int_of_nonneg hi, chars_int_of_neg hj] at h
      exact absurd h.symm (cons_ne_decimal (by decide) i.toNat _ u)
  · by_cases hj : 0 <= j
    · rw [chars_int_of_neg hi, chars_int_of_nonneg hj] at h
      exact absurd h (cons_ne_decimal (by decide) j.toNat _ v)
    · rw [chars_int_of_neg hi, chars_int_of_neg hj] at h
      injection h with _ htail
      rcases decimal_append_inj hu hv htail with ⟨hnat, huv⟩
      exact ⟨by omega, huv⟩

/-!
## Elements
-/

theorem identity_append_inj {a b : Identity} {u v : List Char} (hu : EndsElement u)
    (hv : EndsElement v) (h : a.chars ++ u = b.chars ++ v) : a = b ∧ u = v := by
  cases a with
  | incomplete =>
      cases b with
      | incomplete =>
          injection h with _ huv
          exact ⟨rfl, huv⟩
      | named name =>
          injection h with hhead _
          exact absurd hhead (by decide)
      | numbered n =>
          exact absurd h (cons_ne_int (by decide) (by decide) n.toInt u v)
  | named name =>
      cases b with
      | incomplete =>
          injection h with hhead _
          exact absurd hhead (by decide)
      | named other =>
          rcases quotedChars_append_inj h with ⟨hname, huv⟩
          rw [String.toList_inj] at hname
          exact ⟨by rw [hname], huv⟩
      | numbered n =>
          exact absurd h (cons_ne_int (by decide) (by decide) n.toInt _ v)
  | numbered m =>
      cases b with
      | incomplete =>
          exact absurd h.symm (cons_ne_int (by decide) (by decide) m.toInt v u)
      | named other =>
          exact absurd h.symm (cons_ne_int (by decide) (by decide) m.toInt _ u)
      | numbered n =>
          rcases int_append_inj hu hv h with ⟨hint, huv⟩
          exact ⟨by rw [Int64.toInt_inj.mp hint], huv⟩

namespace KeyElement

/-- What the display shows of an element. -/
def shown (e : KeyElement) : String × Identity :=
  (e.kind, e.identity)

theorem chars_append_inj {e f : KeyElement} {u v : List Char} (hu : EndsElement u)
    (hv : EndsElement v) (h : e.chars ++ u = f.chars ++ v) : e.shown = f.shown ∧ u = v := by
  have hsplit : quotedChars e.kind.toList ++ ',' :: (e.identity.chars ++ u) =
      quotedChars f.kind.toList ++ ',' :: (f.identity.chars ++ v) := by
    simpa [chars] using h
  rcases quotedChars_append_inj hsplit with ⟨hkind, hrest⟩
  injection hrest with _ hidentities
  rcases identity_append_inj hu hv hidentities with ⟨hidentity, huv⟩
  rw [String.toList_inj] at hkind
  exact ⟨by rw [shown, shown, hkind, hidentity], huv⟩

/-- What is shown and the space are all there is of an element. -/
theorem eq_of_shown_of_space {e f : KeyElement} (hshown : e.shown = f.shown)
    (hspace : e.space = f.space) : e = f := by
  injection hshown with hkind hidentity
  cases e
  cases f
  rw [KeyElement.mk.injEq]
  exact ⟨hkind, hidentity, hspace⟩

/-- An element has nothing in its text but what is shown. -/
theorem chars_eq_of_shown {e f : KeyElement} (h : e.shown = f.shown) : e.chars = f.chars := by
  injection h with hkind hidentity
  rw [chars, chars, hkind, hidentity]

end KeyElement

namespace Key

/-!
## Paths
-/

/-- What stands after the root of a path. -/
def belowRootChars : List KeyElement -> List Char
  | [] => []
  | e :: rest => '/' :: pathChars (e :: rest)

theorem endsElement_belowRootChars (es : List KeyElement) :
    EndsElement (belowRootChars es) := by
  cases es with
  | nil => exact endsElement_nil
  | cons e rest => exact endsElement_cons (pathChars (e :: rest))

theorem pathChars_concat (es : List KeyElement) (root : KeyElement) :
    pathChars (es ++ [root]) = root.chars ++ belowRootChars es := by
  induction es with
  | nil => simp [pathChars, belowRootChars]
  | cons e rest ih =>
      cases rest with
      | nil => simp [pathChars, belowRootChars]
      | cons parent rest =>
          have hleft : pathChars (e :: parent :: rest ++ [root]) =
              pathChars (parent :: rest ++ [root]) ++ '/' :: e.chars := rfl
          rw [hleft, ih]
          simp [belowRootChars, pathChars_cons_cons]

/-- A path begins with the kind of its root. -/
theorem exists_kind_pathChars {es : List KeyElement} (h : es ≠ []) :
    ∃ kind rest, pathChars es = quotedChars kind ++ ',' :: rest := by
  rcases List.eq_nil_or_concat es with rfl | ⟨front, root, rfl⟩
  · exact absurd rfl h
  · rw [List.concat_eq_append, pathChars_concat]
    exact ⟨root.kind.toList, root.identity.chars ++ belowRootChars front,
      by simp [KeyElement.chars]⟩

theorem pathChars_ne_nil {es : List KeyElement} (h : es ≠ []) : pathChars es ≠ [] := by
  rcases exists_kind_pathChars h with ⟨kind, rest, hes⟩
  rw [hes]
  exact List.append_ne_nil_of_left_ne_nil (List.cons_ne_nil _ _) _

theorem pathChars_inj {as bs : List KeyElement} (h : pathChars as = pathChars bs) :
    as.map KeyElement.shown = bs.map KeyElement.shown := by
  induction as using List.reverseRecOn generalizing bs with
  | nil =>
      cases bs with
      | nil => rfl
      | cons b rest => exact absurd h.symm (pathChars_ne_nil (List.cons_ne_nil b rest))
  | append_singleton front root ih =>
      rcases List.eq_nil_or_concat bs with rfl | ⟨front', root', rfl⟩
      · exact absurd h (pathChars_ne_nil (List.append_ne_nil_of_right_ne_nil _ (List.cons_ne_nil _ _)))
      · rw [List.concat_eq_append] at h ⊢
        rw [pathChars_concat, pathChars_concat] at h
        rcases KeyElement.chars_append_inj (endsElement_belowRootChars front)
          (endsElement_belowRootChars front') h with ⟨hroot, hbelow⟩
        have hfront : front.map KeyElement.shown = front'.map KeyElement.shown := by
          cases front with
          | nil =>
              cases front' with
              | nil => rfl
              | cons b rest => cases hbelow
          | cons a rest =>
              cases front' with
              | nil => cases hbelow
              | cons b rest' =>
                  injection hbelow with _ hpaths
                  exact ih hpaths
        rw [List.map_append, List.map_append, hfront, List.map_singleton, List.map_singleton, hroot]

theorem pathChars_eq_of_shown {as bs : List KeyElement}
    (h : as.map KeyElement.shown = bs.map KeyElement.shown) : pathChars as = pathChars bs := by
  fun_induction pathChars as generalizing bs with
  | case1 =>
      cases bs with
      | nil => rfl
      | cons b bs => cases h
  | case2 e =>
      rcases bs with _ | ⟨b, _ | ⟨parent, bs⟩⟩
      · cases h
      · injection h with hhead _
        exact KeyElement.chars_eq_of_shown hhead
      · injection h with _ htail
        cases htail
  | case3 e rest hrest ih =>
      rcases bs with _ | ⟨b, _ | ⟨parent, bs⟩⟩
      · cases h
      · injection h with _ htail
        exact absurd (List.map_eq_nil_iff.mp htail) hrest
      · injection h with hhead htail
        rw [pathChars_cons_cons, ih htail, KeyElement.chars_eq_of_shown hhead]

/-!
## Whole keys
-/

theorem spaceChars_append_inj {s t : String} {es fs : List KeyElement}
    (hes : es ≠ []) (hfs : fs ≠ [])
    (h : spaceChars s ++ pathChars es = spaceChars t ++ pathChars fs) :
    s = t ∧ pathChars es = pathChars fs := by
  -- A space is followed by a colon where the kind of a root is followed by a comma.
  rcases exists_kind_pathChars hes with ⟨kind, rest, hkind⟩
  rcases exists_kind_pathChars hfs with ⟨kind', rest', hkind'⟩
  unfold spaceChars at h
  by_cases hs : s.isEmpty = true
  · by_cases ht : t.isEmpty = true
    · rw [if_pos hs, if_pos ht] at h
      rw [String.isEmpty_iff] at hs ht
      exact ⟨by rw [hs, ht], h⟩
    · rw [if_pos hs, if_neg ht, hkind, List.nil_append, List.append_assoc] at h
      rcases quotedChars_append_inj h with ⟨_, hmark⟩
      injection hmark with hhead _
      exact absurd hhead (by decide)
  · by_cases ht : t.isEmpty = true
    · rw [if_neg hs, if_pos ht, hkind', List.nil_append, List.append_assoc] at h
      rcases quotedChars_append_inj h with ⟨_, hmark⟩
      injection hmark with hhead _
      exact absurd hhead (by decide)
    · rw [if_neg hs, if_neg ht, List.append_assoc, List.append_assoc] at h
      rcases quotedChars_append_inj h with ⟨hspace, hmark⟩
      injection hmark with _ hpaths
      exact ⟨String.toList_inj.mp hspace, hpaths⟩

theorem space_and_shown_of_encode_eq {a b : Key} (h : a.encode = b.encode) :
    a.space = b.space ∧ a.elements.map KeyElement.shown = b.elements.map KeyElement.shown := by
  have hdisplay : a.display = b.display := base64_inj h
  have hchars : a.chars = b.chars := by
    rw [← toList_display, ← toList_display, hdisplay]
  rcases spaceChars_append_inj (List.cons_ne_nil a.leaf a.ancestors)
    (List.cons_ne_nil b.leaf b.ancestors) hchars with ⟨hspace, hpath⟩
  exact ⟨hspace, pathChars_inj hpath⟩

/-!
## Valid keys
-/

theorem space_eq_of_isValidPath {e : KeyElement} {rest : List KeyElement}
    (h : isValidPath (e :: rest) = true) : ∀ f ∈ rest, f.space = e.space := by
  induction rest generalizing e with
  | nil =>
      intro f hf
      cases hf
  | cons parent rest ih =>
      rw [isValidPath_cons_cons, Bool.and_eq_true, Bool.and_eq_true] at h
      rcases h with ⟨⟨_, hfits⟩, hparent⟩
      rw [KeyElement.fitsUnder, Bool.and_eq_true, beq_iff_eq] at hfits
      intro f hf
      cases hf with
      | head => exact hfits.right
      | tail _ hmem => rw [ih hparent f hmem, hfits.right]

/-- What is shown and the spaces tell elements apart. -/
theorem elements_eq_of_shown_of_space {as bs : List KeyElement}
    (hshown : as.map KeyElement.shown = bs.map KeyElement.shown)
    (hspace : as.map KeyElement.space = bs.map KeyElement.space) : as = bs := by
  induction as generalizing bs with
  | nil =>
      cases bs with
      | nil => rfl
      | cons b bs => cases hshown
  | cons a as ih =>
      cases bs with
      | nil => cases hshown
      | cons b bs =>
          injection hshown with hhead htail
          injection hspace with hspace hspaces
          rw [KeyElement.eq_of_shown_of_space hhead hspace, ih htail hspaces]

/-- Elements that all have one space are told apart by what is shown. -/
theorem elements_eq_of_shown {as bs : List KeyElement} {space : String}
    (has : ∀ e ∈ as, e.space = space) (hbs : ∀ e ∈ bs, e.space = space)
    (h : as.map KeyElement.shown = bs.map KeyElement.shown) : as = bs := by
  have hlength : as.length = bs.length := by
    rw [← List.length_map KeyElement.shown, h, List.length_map]
  have hspaces : as.map KeyElement.space = bs.map KeyElement.space := by
    rw [List.map_eq_replicate_iff.mpr has, List.map_eq_replicate_iff.mpr hbs, hlength]
  exact elements_eq_of_shown_of_space h hspaces

/-- All elements of the key have one space. -/
def IsUniform (k : Key) : Prop :=
  ∀ e ∈ k.elements, e.space = k.space

theorem space_eq_of_mem_elements {k : Key} (h : k.isValid = true) : k.IsUniform := by
  intro e he
  cases he with
  | head => rfl
  | tail _ hmem => exact space_eq_of_isValidPath h e hmem

/-- A key keeps its space when it is completed. -/
theorem IsUniform.completedWith {k : Key} (h : k.IsUniform) (n : Int64) :
    (k.completedWith n).IsUniform := by
  intro e he
  cases he with
  | head => rfl
  | tail _ hmem => exact h e (List.mem_cons_of_mem _ hmem)

theorem encode_inj_of_isUniform {a b : Key} (ha : a.IsUniform) (hb : b.IsUniform)
    (h : a.encode = b.encode) : a = b := by
  rcases space_and_shown_of_encode_eq h with ⟨hspace, hshown⟩
  have helements : a.elements = b.elements :=
    elements_eq_of_shown ha (fun e he => by rw [hb e he, hspace]) hshown
  injection helements with hleaf hancestors
  cases a
  cases b
  rw [Key.mk.injEq]
  exact ⟨hleaf, hancestors⟩

theorem encode_inj_of_isValid {a b : Key} (ha : a.isValid = true) (hb : b.isValid = true)
    (h : a.encode = b.encode) : a = b :=
  encode_inj_of_isUniform (space_eq_of_mem_elements ha) (space_eq_of_mem_elements hb) h

end Key

theorem LockScheme.slot_inj_of_isUniform (scheme : LockScheme) {a b : Key}
    (ha : a.IsUniform) (hb : b.IsUniform) (h : scheme.slot a = scheme.slot b) : a = b := by
  have hlists := congrArg String.toList h
  rw [slot, slot, String.toList_append, String.toList_append] at hlists
  exact Key.encode_inj_of_isUniform ha hb
    (String.toList_inj.mp (List.append_cancel_left hlists))

theorem LockScheme.slot_inj_of_isValid (scheme : LockScheme) {a b : Key}
    (ha : a.isValid = true) (hb : b.isValid = true) (h : scheme.slot a = scheme.slot b) :
    a = b :=
  scheme.slot_inj_of_isUniform (Key.space_eq_of_mem_elements ha)
    (Key.space_eq_of_mem_elements hb) h

end WriteLatch
