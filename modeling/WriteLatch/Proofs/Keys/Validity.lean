import WriteLatch.Key.Basic

/-!
# Valid paths and their builders

A key is valid if every key from it up to the root is admissible, every one
above it is complete, and all have one space.  The check only ever looks at a
key and its parent, and so do the laws of the builders: a parent gives its
space to the key that is placed under it, a number completes a key where it
stands, and a key that moves away from its parent is valid no longer.
-/

namespace WriteLatch

theorem Identity.isAdmissible_iff {id : Identity} :
    id.isAdmissible = true ↔ id ≠ .named "" ∧ id ≠ .numbered 0 := by
  cases id with
  | incomplete => simp [isAdmissible]
  | named name => simp [isAdmissible]
  | numbered n => simp [isAdmissible]

theorem KeyElement.isAdmissible_iff {e : KeyElement} :
    e.isAdmissible = true ↔ e.kind ≠ "" ∧ e.identity ≠ .named "" ∧ e.identity ≠ .numbered 0 := by
  rw [isAdmissible, Bool.and_eq_true, Identity.isAdmissible_iff, Bool.not_eq_true',
    String.isEmpty_eq_false_iff]

theorem KeyElement.fitsUnder_iff {e parent : KeyElement} :
    e.fitsUnder parent = true ↔ parent.identity.isComplete = true ∧ parent.space = e.space := by
  rw [fitsUnder, Bool.and_eq_true, beq_iff_eq]

namespace Key

/-!
## A key and what is above it
-/

/-- The keys above a key are its parent and those above its parent. -/
inductive IsAbove : Key -> Key -> Prop where
  | parent {parent k : Key} (h : k.parent? = some parent) : IsAbove parent k
  | further {a parent k : Key} (h : k.parent? = some parent) (ha : IsAbove a parent) : IsAbove a k

/-- What is asked of a key by itself: a kind, and neither the empty name nor the
number zero. -/
def IsAdmissible (k : Key) : Prop :=
  k.leaf.kind ≠ "" ∧ k.leaf.identity ≠ .named "" ∧ k.leaf.identity ≠ .numbered 0

/-- From the root down, every key after its parent. -/
theorem induction_on_parent {motive : Key -> Prop} (k : Key)
    (root : ∀ k : Key, k.parent? = none -> motive k)
    (child : ∀ k parent : Key, k.parent? = some parent -> motive parent -> motive k) :
    motive k := by
  rcases k with ⟨leaf, ancestors⟩
  induction ancestors generalizing leaf with
  | nil => exact root _ rfl
  | cons parent rest ih => exact child _ ⟨parent, rest⟩ rfl (ih parent)

theorem not_isAbove_root {a k : Key} (h : k.parent? = none) : ¬ a.IsAbove k := by
  intro ha
  cases ha with
  | parent hparent => exact absurd (h.symm.trans hparent) nofun
  | further hparent _ => exact absurd (h.symm.trans hparent) nofun

theorem isAbove_iff {a k parent : Key} (h : k.parent? = some parent) :
    a.IsAbove k ↔ a = parent ∨ a.IsAbove parent := by
  constructor
  · intro ha
    cases ha with
    | parent hparent => exact Or.inl (Option.some.inj (hparent.symm.trans h))
    | further hparent ha =>
        rw [Option.some.inj (hparent.symm.trans h)] at ha
        exact Or.inr ha
  · rintro (rfl | ha)
    · exact .parent h
    · exact .further h ha

/-!
## The check, one key at a time
-/

theorem isValid_root {k : Key} (h : k.parent? = none) : k.isValid = true ↔ k.IsAdmissible := by
  rcases k with ⟨leaf, _ | ⟨parent, rest⟩⟩
  · exact KeyElement.isAdmissible_iff
  · cases h

theorem isValid_child {k parent : Key} (h : k.parent? = some parent) :
    k.isValid = true ↔
      k.IsAdmissible ∧ parent.isComplete = true ∧ parent.space = k.space ∧
        parent.isValid = true := by
  rcases k with ⟨leaf, _ | ⟨above, rest⟩⟩
  · cases h
  · cases h
    rw [isValid, elements, isValidPath_cons_cons, Bool.and_eq_true, Bool.and_eq_true,
      KeyElement.isAdmissible_iff, KeyElement.fitsUnder_iff]
    constructor
    · rintro ⟨⟨hk, hcomplete, hspace⟩, hvalid⟩
      exact ⟨hk, hcomplete, hspace, hvalid⟩
    · rintro ⟨hk, hcomplete, hspace, hvalid⟩
      exact ⟨⟨hk, hcomplete, hspace⟩, hvalid⟩

/-- The whole path, of which the check compares neighbours only. -/
theorem isValid_iff (k : Key) :
    k.isValid = true ↔
      (∀ a : Key, a = k ∨ a.IsAbove k -> a.IsAdmissible) ∧
      (∀ a : Key, a.IsAbove k -> a.isComplete = true) ∧
      (∀ a : Key, a.IsAbove k -> a.space = k.space) := by
  induction k using induction_on_parent with
  | root k hroot =>
      rw [isValid_root hroot]
      constructor
      · intro hk
        refine ⟨?_, fun a ha => absurd ha (not_isAbove_root hroot),
          fun a ha => absurd ha (not_isAbove_root hroot)⟩
        rintro a (rfl | ha)
        · exact hk
        · exact absurd ha (not_isAbove_root hroot)
      · intro h
        exact h.1 k (Or.inl rfl)
  | child k parent hparent ih =>
      rw [isValid_child hparent, ih]
      constructor
      · rintro ⟨hk, hcomplete, hspace, hadmissible, hcompletes, hspaces⟩
        refine ⟨?_, ?_, ?_⟩
        · rintro a (rfl | ha)
          · exact hk
          · exact hadmissible a ((isAbove_iff hparent).mp ha)
        · intro a ha
          rcases (isAbove_iff hparent).mp ha with rfl | ha
          · exact hcomplete
          · exact hcompletes a ha
        · intro a ha
          rcases (isAbove_iff hparent).mp ha with rfl | ha
          · exact hspace
          · exact (hspaces a ha).trans hspace
      · rintro ⟨hadmissible, hcompletes, hspaces⟩
        have habove (a : Key) (ha : a = parent ∨ a.IsAbove parent) : a.IsAbove k :=
          (isAbove_iff hparent).mpr ha
        refine ⟨hadmissible k (Or.inl rfl), hcompletes parent (.parent hparent),
          hspaces parent (.parent hparent), ?_, ?_, ?_⟩
        · exact fun a ha => hadmissible a (Or.inr (habove a ha))
        · exact fun a ha => hcompletes a (habove a (Or.inr ha))
        · intro a ha
          exact (hspaces a (habove a (Or.inr ha))).trans (hspaces parent (.parent hparent)).symm

theorem isValid_of_isAbove {a k : Key} (hvalid : k.isValid = true) (ha : a.IsAbove k) :
    a.isValid = true := by
  induction ha with
  | parent h => exact ((isValid_child h).mp hvalid).2.2.2
  | further h _ ih => exact ih ((isValid_child h).mp hvalid).2.2.2

/-!
## Builders
-/

theorem isValid_withParent_iff (k parent : Key) :
    (k.withParent parent).isValid = true ↔
      k.IsAdmissible ∧ parent.isValid = true ∧ parent.isComplete = true := by
  rw [isValid_child (parent?_withParent k parent)]
  constructor
  · rintro ⟨hk, hcomplete, _, hvalid⟩
    exact ⟨hk, hvalid, hcomplete⟩
  · rintro ⟨hk, hvalid, hcomplete⟩
    exact ⟨hk, hcomplete, (space_withParent k parent).symm, hvalid⟩

theorem parent?_completedWith (k : Key) (n : Int64) :
    (k.completedWith n).parent? = k.parent? := rfl

theorem parent?_inSpace (k : Key) (space : String) : (k.inSpace space).parent? = k.parent? := rfl

theorem IsAdmissible.completedWith {k : Key} {n : Int64} (h : k.IsAdmissible) (hn : n ≠ 0) :
    (k.completedWith n).IsAdmissible :=
  ⟨h.1, nofun, fun hzero => hn (Identity.numbered.inj hzero)⟩

/-- A valid key stays valid under any number but zero. -/
theorem isValid_completedWith {k : Key} {n : Int64} (hvalid : k.isValid = true) (hn : n ≠ 0) :
    (k.completedWith n).isValid = true := by
  cases hparent : k.parent? with
  | none =>
      rw [isValid_root hparent] at hvalid
      rw [isValid_root ((parent?_completedWith k n).trans hparent)]
      exact hvalid.completedWith hn
  | some parent =>
      rw [isValid_child hparent] at hvalid
      rw [isValid_child ((parent?_completedWith k n).trans hparent)]
      exact ⟨hvalid.1.completedWith hn, hvalid.2⟩

theorem isValid_inSpace_of_child {k parent : Key} {space : String} (hvalid : k.isValid = true)
    (hparent : k.parent? = some parent) (hspace : space ≠ k.space) :
    (k.inSpace space).isValid = false := by
  rw [Bool.eq_false_iff]
  intro hmoved
  have hkept : parent.space = k.space := ((isValid_child hparent).mp hvalid).2.2.1
  have htaken : parent.space = space :=
    ((isValid_child ((parent?_inSpace k space).trans hparent)).mp hmoved).2.2.1
  exact hspace (htaken.symm.trans hkept)

/-- What a valid path is, and what the builders do to it: everything above a
valid key is valid and complete; under a parent a key is valid if it is
admissible and the parent valid and complete, wherever the key was before; a
number other than zero completes a key and leaves it valid; and a valid key with
a parent is not valid in another space. -/
theorem valid_paths_and_builders :
    (∀ k : Key, k.isValid = true ↔
      (∀ a : Key, a = k ∨ a.IsAbove k -> a.IsAdmissible) ∧
      (∀ a : Key, a.IsAbove k -> a.isComplete = true) ∧
      (∀ a : Key, a.IsAbove k -> a.space = k.space)) ∧
    (∀ k a : Key, k.isValid = true -> a.IsAbove k -> a.isValid = true ∧ a.isComplete = true) ∧
    (∀ k parent : Key, (k.withParent parent).isValid = true ↔
      k.IsAdmissible ∧ parent.isValid = true ∧ parent.isComplete = true) ∧
    (∀ (k : Key) (n : Int64), n ≠ 0 ->
      (k.completedWith n).isComplete = true ∧
      (k.isValid = true -> (k.completedWith n).isValid = true) ∧
      (k.completedWith n).leaf.kind = k.leaf.kind ∧
      (k.completedWith n).parent? = k.parent? ∧ (k.completedWith n).space = k.space) ∧
    (∀ (k : Key) (space : String), k.isValid = true -> k.parent? ≠ none -> space ≠ k.space ->
      (k.inSpace space).isValid = false) := by
  refine ⟨isValid_iff, ?above, isValid_withParent_iff, ?completed, ?moved⟩
  case above =>
    intro k a hvalid ha
    exact ⟨isValid_of_isAbove hvalid ha, ((isValid_iff k).mp hvalid).2.1 a ha⟩
  case completed =>
    intro k n hn
    exact ⟨isComplete_completedWith k n, fun hvalid => isValid_completedWith hvalid hn, rfl,
      parent?_completedWith k n, rfl⟩
  case moved =>
    intro k space hvalid hchild hspace
    rcases Option.ne_none_iff_exists'.mp hchild with ⟨parent, hparent⟩
    exact isValid_inSpace_of_child hvalid hparent hspace

/-- A comment without an identity under a post under a user: the user is above
it, the number seven completes it, and it is not valid in no space. -/
theorem valid_paths_and_builders_comment :
    let user : Key := ⟨⟨"User", .named "ann", "t"⟩, []⟩
    let post : Key := (numbered "Post" 2).withParent user
    let comment : Key := (incomplete "Comment").withParent post
    (comment.isValid = true ∧ user.IsAbove comment ∧ comment.parent? ≠ none ∧
        "" ≠ comment.space) ∧
      (user.isValid = true ∧ user.isComplete = true) ∧
      (comment.completedWith 7).isValid = true ∧
      (comment.inSpace "").isValid = false := by
  intro user post comment
  have hvalid : comment.isValid = true := by decide
  have hpost : comment.parent? = some post := rfl
  have habove : user.IsAbove comment := .further hpost (.parent rfl)
  have hchild : comment.parent? ≠ none := nofun
  have hspace : "" ≠ comment.space := by decide
  rcases valid_paths_and_builders with ⟨_, hkeysAbove, _, hcompleted, hmoved⟩
  refine ⟨⟨hvalid, habove, hchild, hspace⟩, hkeysAbove comment user hvalid habove, ?_,
    hmoved comment "" hvalid hchild hspace⟩
  exact (hcompleted comment 7 (by decide)).2.1 hvalid

end Key
end WriteLatch
