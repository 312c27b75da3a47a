import WriteLatch.Proofs.Encoding.Keys

/-!
# What an encoding tells

An encoding tells the space of the key itself and its path, the kinds and
identities from the root down, and nothing else.  For valid keys that is the
whole key, so under one scheme two of them never have the same slot.  For keys
in general it is not: the spaces of the ancestors are not in the text, and
every key with a parent has others with the same encoding.
-/

namespace WriteLatch
namespace Key

/-- The kinds and identities of the elements, from the root down to the key's
own. -/
def path (k : Key) : List (String × Identity) :=
  (k.elements.map KeyElement.shown).reverse

theorem path_inj_iff {a b : Key} :
    a.path = b.path ↔ a.elements.map KeyElement.shown = b.elements.map KeyElement.shown := by
  rw [path, path, List.reverse_inj]

theorem chars_eq_of_path {a b : Key} (hspace : a.space = b.space) (hpath : a.path = b.path) :
    a.chars = b.chars := by
  rw [chars, chars, hspace, pathChars_eq_of_shown (path_inj_iff.mp hpath)]

theorem encode_eq_iff {a b : Key} :
    a.encode = b.encode ↔ a.space = b.space ∧ a.path = b.path := by
  constructor
  · intro h
    rcases space_and_shown_of_encode_eq h with ⟨hspace, hshown⟩
    exact ⟨hspace, path_inj_iff.mpr hshown⟩
  · rintro ⟨hspace, hpath⟩
    rw [encode, encode, display, display, chars_eq_of_path hspace hpath]

theorem encode_eq_iff_of_isValid {a b : Key} (ha : a.isValid = true) (hb : b.isValid = true) :
    a.encode = b.encode ↔ a = b :=
  ⟨encode_inj_of_isValid ha hb, congrArg encode⟩

theorem isUrlSafe_of_mem_encode (k : Key) : ∀ c ∈ k.encode.toList, Text.IsUrlSafe c :=
  Text.isUrlSafe_of_mem_base64 k.display

/-- The encoding of a key is made of its own space and its path and gives both
back, in characters that may stand in a URL; it tells valid keys apart, and so
do their slots. -/
theorem encode_tells_space_and_path :
    (∀ a b : Key, a.encode = b.encode ↔ a.space = b.space ∧ a.path = b.path) ∧
    (∀ a b : Key, a.isValid = true -> b.isValid = true -> (a.encode = b.encode ↔ a = b)) ∧
    (∀ (scheme : LockScheme) (a b : Key), a.isValid = true -> b.isValid = true ->
      a ≠ b -> scheme.slot a ≠ scheme.slot b) ∧
    (∀ k : Key, ∀ c ∈ k.encode.toList, c.isAlphanum = true ∨ c = '-' ∨ c = '_') := by
  refine ⟨?paths, ?validKeys, ?slots, ?alphabet⟩
  case paths => exact fun a b => encode_eq_iff
  case validKeys => exact fun a b ha hb => encode_eq_iff_of_isValid ha hb
  case slots =>
    intro scheme a b ha hb hne hslot
    exact hne (scheme.slot_inj_of_isValid ha hb hslot)
  case alphabet => exact isUrlSafe_of_mem_encode

/-- A name of digits is not the number they spell: two valid posts of one user
have encodings and slots of their own. -/
theorem encode_tells_space_and_path_digits :
    let user : KeyElement := ⟨"User", .numbered 1, "t"⟩
    let byName : Key := ⟨⟨"Post", .named "7", "t"⟩, [user]⟩
    let byNumber : Key := ⟨⟨"Post", .numbered 7, "t"⟩, [user]⟩
    (byName.isValid = true ∧ byNumber.isValid = true ∧ byName ≠ byNumber) ∧
      byName.encode ≠ byNumber.encode ∧
        ({} : LockScheme).slot byName ≠ ({} : LockScheme).slot byNumber := by
  intro user byName byNumber
  have hname : byName.isValid = true := by decide
  have hnumber : byNumber.isValid = true := by decide
  have hne : byName ≠ byNumber := by decide
  rcases encode_tells_space_and_path with ⟨_, hvalid, hslots, _⟩
  refine ⟨⟨hname, hnumber, hne⟩, ?_, hslots {} byName byNumber hname hnumber hne⟩
  intro h
  exact hne ((hvalid byName byNumber hname hnumber).mp h)

/-!
## What it does not tell
-/

/-- The keys differ, and only in the spaces of their ancestors. -/
structure DiffersAbove (a b : Key) : Prop where
  space : a.space = b.space
  path : a.path = b.path
  spaces : a.ancestors.map KeyElement.space ≠ b.ancestors.map KeyElement.space

/-- Own space, path and the spaces of the ancestors are all there is of a key. -/
theorem eq_of_path_of_spaces {a b : Key} (hspace : a.space = b.space) (hpath : a.path = b.path)
    (hspaces : a.ancestors.map KeyElement.space = b.ancestors.map KeyElement.space) : a = b := by
  have helements : a.elements = b.elements := by
    refine elements_eq_of_shown_of_space (path_inj_iff.mp hpath) ?_
    rw [elements, elements, List.map_cons, List.map_cons, hspaces]
    exact congrArg (· :: b.ancestors.map KeyElement.space) hspace
  injection helements with hleaf hancestors
  cases a
  cases b
  rw [Key.mk.injEq]
  exact ⟨hleaf, hancestors⟩

theorem DiffersAbove.ne {a b : Key} (h : a.DiffersAbove b) : a ≠ b := by
  rintro rfl
  exact h.spaces rfl

theorem DiffersAbove.encode_eq {a b : Key} (h : a.DiffersAbove b) : a.encode = b.encode :=
  encode_eq_iff.mpr ⟨h.space, h.path⟩

theorem differsAbove_iff {a b : Key} : a.DiffersAbove b ↔ a.encode = b.encode ∧ a ≠ b := by
  constructor
  · intro h
    exact ⟨h.encode_eq, h.ne⟩
  · rintro ⟨hencode, hne⟩
    rcases encode_eq_iff.mp hencode with ⟨hspace, hpath⟩
    exact ⟨hspace, hpath, fun hspaces => hne (eq_of_path_of_spaces hspace hpath hspaces)⟩

/-- The same path with its nearest ancestor in another space. -/
theorem exists_differsAbove {k : Key} (h : k.ancestors ≠ []) :
    ∃ other : Key, k.DiffersAbove other := by
  cases hparents : k.ancestors with
  | nil => exact absurd hparents h
  | cons parent rest =>
      refine ⟨⟨k.leaf, { parent with space := parent.space ++ "'" } :: rest⟩, rfl, ?_, ?_⟩
      · rw [path_inj_iff, elements, elements, hparents]
        rfl
      · rw [hparents]
        intro hspaces
        injection hspaces with hspace _
        have hlength := congrArg String.length hspace
        simp at hlength

/-- Two keys fall under the law unless they differ in the spaces of their ancestors
and nowhere else. -/
theorem encode_eq_iff_eq {a b : Key} :
    (a.encode = b.encode ↔ a = b) ↔ ¬ a.DiffersAbove b := by
  rw [differsAbove_iff]
  constructor
  · rintro h ⟨hencode, hne⟩
    exact hne (h.mp hencode)
  · intro h
    refine ⟨fun hencode => ?_, congrArg encode⟩
    by_contra hne
    exact h ⟨hencode, hne⟩

/-- Equal encodings mean equal keys for just the keys without a parent: two
keys fall under the law unless they differ in the spaces of their ancestors and
nowhere else, and to every key with a parent there is one that differs so. -/
theorem encode_law_iff (a b : Key) :
    ((a.encode = b.encode ↔ a = b) ↔ ¬ a.DiffersAbove b) ∧
      ((∀ other : Key, a.encode = other.encode ↔ a = other) ↔ a.ancestors = []) := by
  refine ⟨encode_eq_iff_eq, ?_, ?_⟩
  · intro h
    by_contra hparents
    rcases exists_differsAbove hparents with ⟨other, hother⟩
    exact encode_eq_iff_eq.mp (h other) hother
  · intro hroot other
    refine encode_eq_iff_eq.mpr fun hother => hother.spaces ?_
    -- The path of the other key is as long, so it has no ancestors either.
    have hlength := congrArg List.length hother.path
    simp only [path, elements, List.length_reverse, List.length_map, List.length_cons,
      hroot, List.length_nil] at hlength
    have hother : other.ancestors = [] := List.length_eq_zero_iff.mp (by omega)
    rw [hroot, hother]

/-- A post in a space under a user in no space, and under a user in that space,
are two keys with one encoding. -/
theorem encode_eq_under_two_users :
    let inNone : Key := ⟨⟨"Post", .numbered 2, "t"⟩, [⟨"User", .numbered 1, ""⟩]⟩
    let inSpace : Key := ⟨⟨"Post", .numbered 2, "t"⟩, [⟨"User", .numbered 1, "t"⟩]⟩
    ¬ (inNone.encode = inSpace.encode ↔ inNone = inSpace) := by
  intro inNone inSpace h
  have hencode : inNone.encode = inSpace.encode := encode_eq_iff.mpr ⟨rfl, rfl⟩
  have hne : inNone ≠ inSpace := by decide
  exact hne (h.mp hencode)

end Key
end WriteLatch
