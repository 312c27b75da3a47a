import Mathlib.Tactic.Common
import WriteLatch.Key.Json
import WriteLatch.Proofs.Documents.Nesting

/-!
# Keys come back from their documents

Every key on a path is one object within that of the key below it, and an
identity that is not left open is one more within that.  The reader follows all
of them down to its limit of depth, so it reads a written key back just if the
text nests no deeper.  Other texts are read as keys too, in other forms, but none
of a key that is deeper than the limit: a key that was read once is read back
from what is written of it.
-/

namespace WriteLatch

open Json

/-!
## How deep a key nests
-/

namespace Identity

/-- An open identity is a string, every other one an object. -/
def nesting : Identity -> Nat
  | .incomplete => 0
  | .named _ => 1
  | .numbered _ => 1

theorem nesting_le_one (id : Identity) : id.nesting <= 1 := by
  cases id with
  | incomplete => exact Nat.zero_le 1
  | named name => exact Nat.le_refl 1
  | numbered n => exact Nat.le_refl 1

theorem nestsTo_jsonChars (id : Identity) : NestsTo id.nesting id.jsonChars := by
  cases id with
  | incomplete => exact nestsTo_textChars "Incomplete"
  | named name =>
      have hmember := (nestsTo_textChars name).member "Name"
      exact (hmember.sequence_cons true (nestsTo_sequence_nil false)).object
  | numbered n =>
      have hmember := (nestsTo_intChars n.toInt).member "Id"
      exact (hmember.sequence_cons true (nestsTo_sequence_nil false)).object

end Identity

namespace Key

def pathNesting : List KeyElement -> Nat
  | [] => 0
  | e :: rest => max e.identity.nesting (pathNesting rest) + 1

/-- The containers open at once in the document of a key. -/
def nesting (k : Key) : Nat :=
  pathNesting k.elements

theorem nestsTo_pathJsonChars (es : List KeyElement) :
    NestsTo (pathNesting es) (pathJsonChars es) := by
  induction es with
  | nil => exact nestsTo_nullChars
  | cons e rest ih =>
      have hspace := (nestsTo_textChars e.space).member "namespace"
      have hparent := ih.member "parent"
      have hid := e.identity.nestsTo_jsonChars.member "id"
      have hkind := (nestsTo_textChars e.kind).member "kind"
      have hobject := (hkind.sequence_cons true (hid.sequence_cons false
        (hparent.sequence_cons false (hspace.sequence_cons false
          (nestsTo_sequence_nil false))))).object
      rw [Nat.zero_max, Nat.max_zero, Nat.max_zero] at hobject
      exact hobject

theorem nesting_toJson (k : Key) : Json.nesting k.toJson = k.nesting :=
  nesting_ofList (nestsTo_pathJsonChars k.elements)

end Key

/-!
## Identities are read back
-/

namespace Identity

theorem run_readTagged_named (name : String) (s : List Char) :
    readTagged.run (textChars "Name" ++ (':' :: (textChars name ++ ('}' :: s)))) =
      .ok (.named name, s) := by
  rw [readTagged, Scan.run_bind_of_run (run_readTag "Name" _), if_neg (by decide), if_pos rfl,
    Scan.run_bind_of_run (run_colon _), Scan.run_bind_of_run (run_readText name _),
    Scan.run_bind_of_run (run_closeObject s)]
  rfl

theorem run_readTagged_numbered (n : Int64) (s : List Char) :
    readTagged.run (textChars "Id" ++ (':' :: (intChars n.toInt ++ ('}' :: s)))) =
      .ok (.numbered n, s) := by
  have hends : Text.EndsRun continuesNumeral ('}' :: s) := Text.endsRun_cons rfl s
  rw [readTagged, Scan.run_bind_of_run (run_readTag "Id" _), if_neg (by decide),
    if_neg (by decide), if_pos rfl, Scan.run_bind_of_run (run_colon _),
    Scan.run_bind_of_run (run_readNumberAs_int64 n hends),
    Scan.run_bind_of_run (run_closeObject s)]
  rfl

theorem run_readIdentity_tagged {depth : Nat} (hdepth : depth ≠ 0) (s : List Char) :
    (readIdentity depth).run ('{' :: s) = readTagged.run s := by
  rw [readIdentity, run_peek_bind rfl]
  dsimp only
  rw [if_neg (by decide), if_pos rfl, if_neg hdepth, run_advance_bind]

theorem run_readIdentity (id : Identity) {depth : Nat} (hdepth : id.nesting <= depth)
    (s : List Char) : (readIdentity depth).run (id.jsonChars ++ s) = .ok (id, s) := by
  cases id with
  | incomplete =>
      rw [jsonChars, textChars_append, readIdentity, run_peek_bind rfl]
      dsimp only
      rw [if_pos rfl, ← textChars_append, Scan.run_bind_of_run (run_readText "Incomplete" s),
        if_pos rfl]
      rfl
  | named name =>
      rw [jsonChars, objectChars_one_append,
        run_readIdentity_tagged (Nat.pos_iff_ne_zero.mp hdepth)]
      exact run_readTagged_named name s
  | numbered n =>
      rw [jsonChars, objectChars_one_append,
        run_readIdentity_tagged (Nat.pos_iff_ne_zero.mp hdepth)]
      exact run_readTagged_numbered n s

end Identity

/-!
## Keys are read back
-/

namespace Key

section Members

variable (fuel depth : Nat) (first : Bool) (d : Draft) (s : List Char)

theorem run_readMembers_kind (kind : String) (hd : d.kind = none) :
    (readMembers (fuel + 1) depth first d).run
        (separator first ++ (memberChars "kind" (textChars kind) ++ s)) =
      (readMembers fuel depth false { d with kind := some kind }).run s := by
  rw [readMembers, memberChars_append, Scan.run_bind_of_run (run_nextMember first _), if_pos rfl,
    Scan.run_bind_of_run (run_restOfText "kind" _), if_pos rfl,
    if_neg (by rw [hd]; exact Bool.false_ne_true), Scan.run_bind_of_run (run_colon _),
    Scan.run_bind_of_run (run_readText kind s)]

theorem run_readMembers_id (id : Identity) (hd : d.identity = none)
    (hdepth : id.nesting <= depth) :
    (readMembers (fuel + 1) depth first d).run
        (separator first ++ (memberChars "id" id.jsonChars ++ s)) =
      (readMembers fuel depth false { d with identity := some id }).run s := by
  rw [readMembers, memberChars_append, Scan.run_bind_of_run (run_nextMember first _), if_pos rfl,
    Scan.run_bind_of_run (run_restOfText "id" _), if_neg (by decide), if_pos rfl,
    if_neg (by rw [hd]; exact Bool.false_ne_true), Scan.run_bind_of_run (run_colon _),
    Scan.run_bind_of_run (Identity.run_readIdentity id hdepth s)]

theorem run_readMembers_parent {content : List Char} {parent : Option Key}
    (hd : d.parent = none)
    (hparent : (readOptional (readKey fuel depth)).run (content ++ s) = .ok (parent, s)) :
    (readMembers (fuel + 1) depth first d).run
        (separator first ++ (memberChars "parent" content ++ s)) =
      (readMembers fuel depth false { d with parent := some parent }).run s := by
  rw [readMembers, memberChars_append, Scan.run_bind_of_run (run_nextMember first _), if_pos rfl,
    Scan.run_bind_of_run (run_restOfText "parent" _), if_neg (by decide), if_neg (by decide),
    if_pos rfl, if_neg (by rw [hd]; exact Bool.false_ne_true),
    Scan.run_bind_of_run (run_colon _), Scan.run_bind_of_run hparent]

theorem run_readMembers_namespace (space : String) (hd : d.space = none) :
    (readMembers (fuel + 1) depth first d).run
        (separator first ++ (memberChars "namespace" (textChars space) ++ s)) =
      (readMembers fuel depth false { d with space := some space }).run s := by
  rw [readMembers, memberChars_append, Scan.run_bind_of_run (run_nextMember first _), if_pos rfl,
    Scan.run_bind_of_run (run_restOfText "namespace" _), if_neg (by decide), if_neg (by decide),
    if_neg (by decide), if_pos rfl, if_neg (by rw [hd]; exact Bool.false_ne_true),
    Scan.run_bind_of_run (run_colon _), Scan.run_bind_of_run (run_readText space s)]

theorem run_readMembers_end {k : Key} (hd : d.finish? = some k) :
    (readMembers (fuel + 1) depth first d).run ('}' :: s) = .ok (k, s) := by
  rw [readMembers, Scan.run_bind_of_run (run_nextMember_end first s),
    if_neg Bool.false_ne_true, hd]
  dsimp only
  rw [Scan.run_bind_of_run (run_closeObject s)]
  rfl

end Members

theorem elementChars_append (e : KeyElement) (parent s : List Char) :
    elementChars e parent ++ s =
      '{' :: (separator true ++ (memberChars "kind" (textChars e.kind) ++
        (separator false ++ (memberChars "id" e.identity.jsonChars ++
          (separator false ++ (memberChars "parent" parent ++
            (separator false ++ (memberChars "namespace" (textChars e.space) ++
              ('}' :: s))))))))) := by
  simp [elementChars, objectChars, commaSeparated, separator]

theorem length_elementChars (e : KeyElement) (parent : List Char) :
    parent.length + 6 <= (elementChars e parent).length := by
  have hchars := congrArg List.length (elementChars_append e parent [])
  simp [memberChars, textChars, separator] at hchars
  omega

theorem ofParts_parent? (e : KeyElement) (rest : List KeyElement) :
    ofParts e.kind e.identity (Key.mk e rest).parent? e.space = ⟨e, rest⟩ := by
  cases rest <;> rfl

/-- One level of a path, the document of its parent being read as the parent. -/
theorem run_readKey_element (e : KeyElement) (rest : List KeyElement) {fuel depth : Nat}
    {content : List Char} (hid : e.identity.nesting <= depth)
    (hparent : ∀ s, (readOptional (readKey (fuel + 2) depth)).run (content ++ s) =
      .ok ((Key.mk e rest).parent?, s)) (s : List Char) :
    (readKey (fuel + 6) (depth + 1)).run (elementChars e content ++ s) = .ok (⟨e, rest⟩, s) := by
  rw [elementChars_append, readKey, run_peek_bind rfl]
  dsimp only
  rw [if_neg (by decide), if_pos rfl, if_neg (Nat.succ_ne_zero depth), run_advance_bind,
    Nat.add_sub_cancel, run_readMembers_kind _ _ _ _ _ _ rfl,
    run_readMembers_id _ _ _ _ _ _ rfl hid, run_readMembers_parent _ _ _ _ _ rfl (hparent _),
    run_readMembers_namespace _ _ _ _ _ _ rfl]
  exact run_readMembers_end _ _ _ _ _ (congrArg some (ofParts_parent? e rest))

theorem run_readParent (e : KeyElement) (rest : List KeyElement) {fuel depth : Nat}
    (hdepth : pathNesting rest <= depth) (hfuel : (pathJsonChars rest).length <= fuel)
    (s : List Char) :
    (readOptional (readKey fuel depth)).run (pathJsonChars rest ++ s) =
      .ok ((Key.mk e rest).parent?, s) := by
  induction rest generalizing e fuel depth s with
  | nil => exact run_readOptional_null _ s
  | cons p rest ih =>
      rw [pathJsonChars] at hfuel ⊢
      rw [pathNesting] at hdepth
      have hlength := length_elementChars p (pathJsonChars rest)
      obtain ⟨fuel, rfl⟩ : ∃ f, fuel = f + 6 := ⟨fuel - 6, by omega⟩
      obtain ⟨depth, rfl⟩ : ∃ d, depth = d + 1 := ⟨depth - 1, by omega⟩
      have habove (s : List Char) : (readOptional (readKey (fuel + 2) depth)).run
          (pathJsonChars rest ++ s) = .ok ((Key.mk p rest).parent?, s) :=
        ih p (by omega) (by omega) s
      have hread := run_readKey_element p rest (by omega) habove s
      rw [elementChars_append] at hread ⊢
      exact run_readOptional_some rfl (by decide) hread

theorem run_readKey (k : Key) {fuel depth : Nat} (hdepth : k.nesting <= depth)
    (hfuel : k.jsonChars.length <= fuel) (s : List Char) :
    (readKey fuel depth).run (k.jsonChars ++ s) = .ok (k, s) := by
  rw [jsonChars, elements, pathJsonChars] at hfuel ⊢
  rw [nesting, elements, pathNesting] at hdepth
  have hlength := length_elementChars k.leaf (pathJsonChars k.ancestors)
  obtain ⟨fuel, rfl⟩ : ∃ f, fuel = f + 6 := ⟨fuel - 6, by omega⟩
  obtain ⟨depth, rfl⟩ : ∃ d, depth = d + 1 := ⟨depth - 1, by omega⟩
  exact run_readKey_element k.leaf k.ancestors (by omega)
    (fun s => run_readParent k.leaf k.ancestors (by omega) (by omega) s) s

theorem fromJson?_toJson_of_nesting_le {k : Key} (h : k.nesting <= depthLimit) :
    fromJson? k.toJson = .ok k := by
  refine readWhole_of_reads (fun fuel => readKey fuel depthLimit) fun fuel hfuel s => ?_
  exact run_readKey k h hfuel s

/-!
## No key is read that nests deeper
-/

theorem yields_readIdentity (depth : Nat) :
    (Identity.readIdentity depth).Yields fun id => id.nesting <= depth := by
  refine Scan.yields_bind fun c => ?_
  cases c with
  | none => exact Scan.yields_fail _ _
  | some c =>
      refine Scan.Yields.ite (fun _ => ?_) (fun _ => Scan.Yields.ite (fun _ => ?_) (fun _ => ?_))
      · refine Scan.yields_bind fun tag => Scan.Yields.ite (fun _ => ?_) (fun _ => ?_)
        · exact Scan.yields_pure (Nat.zero_le depth)
        · exact Scan.yields_fail _ _
      · refine Scan.Yields.ite (fun _ => Scan.yields_fail _ _) (fun hdepth => ?_)
        exact Scan.yields_of_forall
          (fun id => Nat.le_trans id.nesting_le_one (Nat.pos_iff_ne_zero.mpr hdepth)) _
      · exact Scan.yields_fail _ _

theorem nesting_ofParts_le {depth : Nat} {kind space : String} {id : Identity}
    {parent : Option Key} (hid : id.nesting <= depth)
    (hparent : ∀ p, parent = some p -> p.nesting <= depth) :
    (ofParts kind id parent space).nesting <= depth + 1 := by
  have habove : pathNesting ((parent.map elements).getD []) <= depth := by
    cases parent with
    | none => exact Nat.zero_le depth
    | some p => exact hparent p rfl
  exact Nat.succ_le_succ (Nat.max_le.mpr ⟨hid, habove⟩)

/-- What has been read of a key so far nests no deeper than may be inside it. -/
structure Draft.IsWithin (d : Draft) (depth : Nat) : Prop where
  identity : ∀ id, d.identity = some id -> id.nesting <= depth
  parent : ∀ p, d.parent = some (some p) -> p.nesting <= depth

theorem Draft.exists_of_finish? {d : Draft} {k : Key} (h : d.finish? = some k) :
    ∃ kind id space, d.identity = some id ∧ ofParts kind id (d.parent.getD none) space = k := by
  simp only [finish?, Option.bind_eq_bind, Option.bind_eq_some_iff] at h
  rcases h with ⟨kind, _, id, hid, space, _, hk⟩
  exact ⟨kind, id, space, hid, Option.some.inj hk⟩

theorem Draft.IsWithin.nesting_le {d : Draft} {depth : Nat} {k : Key} (h : d.IsWithin depth)
    (hk : d.finish? = some k) : k.nesting <= depth + 1 := by
  rcases Draft.exists_of_finish? hk with ⟨kind, id, space, hid, rfl⟩
  refine nesting_ofParts_le (h.identity id hid) fun p hp => h.parent p ?_
  cases hparent : d.parent with
  | none =>
      rw [hparent] at hp
      cases hp
  | some found =>
      rw [hparent] at hp
      exact congrArg some hp

section Step

variable {fuel : Nat}
variable (hkey : ∀ depth, (readKey fuel depth).Yields fun k => k.nesting <= depth)
variable (hmembers : ∀ depth first (d : Draft), d.IsWithin depth ->
  (readMembers fuel depth first d).Yields fun k => k.nesting <= depth + 1)

include hkey in
theorem yields_parent (depth : Nat) :
    (readOptional (readKey fuel depth)).Yields
      fun found => ∀ p, found = some p -> p.nesting <= depth :=
  yields_readOptional (hkey depth)

include hkey hmembers in
theorem yields_readKey_succ (depth : Nat) :
    (readKey (fuel + 1) depth).Yields fun k => k.nesting <= depth := by
  rw [readKey]
  refine Scan.yields_bind fun c => ?_
  cases c with
  | none => exact Scan.yields_fail _ _
  | some c =>
      refine Scan.Yields.ite (fun _ => ?_) (fun _ => Scan.Yields.ite (fun _ => ?_) (fun _ => ?_))
      · refine Scan.Yields.ite (fun _ => Scan.yields_fail _ _) (fun hdepth => ?_)
        obtain ⟨depth, rfl⟩ := Nat.exists_eq_succ_of_ne_zero hdepth
        refine Scan.yields_bind fun _ => Scan.yields_bind fun _ => Scan.yields_bind fun kind =>
          Scan.yields_bind fun _ => (yields_readIdentity depth).bind fun id hid => ?_
        refine Scan.yields_bind fun _ => (yields_parent hkey depth).bind fun parent hparent => ?_
        exact Scan.yields_bind fun _ => Scan.yields_bind fun space => Scan.yields_bind fun _ =>
          Scan.yields_pure (nesting_ofParts_le hid hparent)
      · refine Scan.Yields.ite (fun _ => Scan.yields_fail _ _) (fun hdepth => ?_)
        obtain ⟨depth, rfl⟩ := Nat.exists_eq_succ_of_ne_zero hdepth
        exact Scan.yields_bind fun _ => hmembers depth true {} ⟨nofun, nofun⟩
      · exact yields_wrongKind _

include hkey hmembers in
theorem yields_readMembers_succ (depth : Nat) (first : Bool) {d : Draft}
    (hd : d.IsWithin depth) :
    (readMembers (fuel + 1) depth first d).Yields fun k => k.nesting <= depth + 1 := by
  rw [readMembers]
  refine Scan.yields_bind fun more => Scan.Yields.ite (fun _ => ?member) (fun _ => ?close)
  case member =>
    refine Scan.yields_bind fun name => Scan.Yields.ite (fun _ => ?kind) fun _ =>
      Scan.Yields.ite (fun _ => ?id) fun _ => Scan.Yields.ite (fun _ => ?parent) fun _ =>
        Scan.Yields.ite (fun _ => ?space) fun _ => ?other
    case kind =>
      refine Scan.Yields.ite (fun _ => Scan.yields_fail _ _) fun _ => ?_
      exact Scan.yields_bind fun _ => Scan.yields_bind fun kind =>
        hmembers depth false _ ⟨hd.identity, hd.parent⟩
    case id =>
      refine Scan.Yields.ite (fun _ => Scan.yields_fail _ _) fun _ => ?_
      refine Scan.yields_bind fun _ => (yields_readIdentity depth).bind fun id hid =>
        hmembers depth false _ ⟨?_, hd.parent⟩
      rintro _ ⟨⟩
      exact hid
    case parent =>
      refine Scan.Yields.ite (fun _ => Scan.yields_fail _ _) fun _ => ?_
      refine Scan.yields_bind fun _ => (yields_parent hkey depth).bind fun parent hparent =>
        hmembers depth false _ ⟨hd.identity, ?_⟩
      rintro p ⟨⟩
      exact hparent p rfl
    case space =>
      refine Scan.Yields.ite (fun _ => Scan.yields_fail _ _) fun _ => ?_
      exact Scan.yields_bind fun _ => Scan.yields_bind fun space =>
        hmembers depth false _ ⟨hd.identity, hd.parent⟩
    case other =>
      exact Scan.yields_bind fun _ => Scan.yields_bind fun _ => hmembers depth false d hd
  case close =>
    cases hk : d.finish? with
    | none => exact Scan.yields_fail _ _
    | some k => exact Scan.yields_bind fun _ => Scan.yields_pure (hd.nesting_le hk)

end Step

theorem yields_read (fuel : Nat) :
    (∀ depth, (readKey fuel depth).Yields fun k => k.nesting <= depth) ∧
      ∀ depth first (d : Draft), d.IsWithin depth ->
        (readMembers fuel depth first d).Yields fun k => k.nesting <= depth + 1 := by
  induction fuel with
  | zero => exact ⟨fun _ => Scan.yields_fail _ _, fun _ _ _ _ => Scan.yields_fail _ _⟩
  | succ fuel ih =>
      exact ⟨yields_readKey_succ ih.1 ih.2,
        fun depth first _ hd => yields_readMembers_succ ih.1 ih.2 depth first hd⟩

theorem nesting_le_of_fromJson? {text : String} {k : Key} (h : fromJson? text = .ok k) :
    k.nesting <= depthLimit :=
  of_readWhole (fun fuel => readKey fuel depthLimit) (fun fuel => (yields_read fuel).1 depthLimit) h

/-- The text of a key is read back as this key just if it nests no deeper than
127 containers; and whatever text was read as a key, what is written of the key
is read as the same key again. -/
theorem keys_come_back :
    (∀ k : Key, fromJson? k.toJson = .ok k ↔ Json.nesting k.toJson <= 127) ∧
    (∀ (text : String) (k : Key), fromJson? text = .ok k -> fromJson? k.toJson = .ok k) := by
  have hback (k : Key) : fromJson? k.toJson = .ok k ↔ k.nesting <= depthLimit :=
    ⟨nesting_le_of_fromJson?, fromJson?_toJson_of_nesting_le⟩
  refine ⟨fun k => ?_, fun text k h => (hback k).mpr (nesting_le_of_fromJson? h)⟩
  rw [hback, nesting_toJson]
  rfl

/-- A list, and an object with its members in another order, with one that no
key has and with none for the parent: both are keys, and what is written of them
is read as the same keys. -/
theorem keys_come_back_from_other_forms :
    let listed : Key := ⟨⟨"Post", .numbered (-7), "t"⟩, [⟨"User", .named "\"", "t"⟩]⟩
    let reordered : Key := ⟨⟨"Post", .incomplete, "t"⟩, []⟩
    let list : String :=
      "[\"Post\", \x7b\"Id\":-7\x7d, [\"User\", \x7b\"Name\":\"\\u0022\"\x7d, null, \"t\"], \"t\"]"
    let object : String :=
      "\x7b\"namespace\":\"t\", \"x\":[[1.5]], \"id\":\x7b\"Incomplete\":null\x7d, \"kind\":\"Post\"\x7d"
    (fromJson? list = .ok listed ∧ fromJson? object = .ok reordered) ∧
      fromJson? listed.toJson = .ok listed ∧ fromJson? reordered.toJson = .ok reordered := by
  intro listed reordered list object
  have hlist : fromJson? list = .ok listed := by decide +kernel
  have hobject : fromJson? object = .ok reordered := by decide +kernel
  rcases keys_come_back with ⟨_, hagain⟩
  exact ⟨⟨hlist, hobject⟩, hagain list listed hlist, hagain object reordered hobject⟩

end Key
end WriteLatch
