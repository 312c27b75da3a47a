import WriteLatch.Proofs.Documents.Nesting
import WriteLatch.Proofs.Values.Order
import WriteLatch.Value.Json

/-!
# Values come back from their documents

A value is written under the name of its kind, and the reader takes from each
name just the kind it stands for: octets in a list are no array, and nothing
that is read as one kind was written as another.  A written value without
numbers of double precision is read back as it was, down to the limit of depth;
its maps come back in the order they had, which all maps that are read have.
-/

namespace WriteLatch

open Json

namespace Value

/-!
## How deep a value nests
-/

mutual

/-- The containers open at once in the document of a value. -/
def nesting : Value -> Nat
  | .null => 0
  | .bool _ => 1
  | .int _ => 1
  | .float _ => 1
  | .text _ => 1
  | .bytes _ => 2
  | .array items => nestingOfItems items + 2
  | .map members => nestingOfMembers members + 2

def nestingOfItems : List Value -> Nat
  | [] => 0
  | v :: vs => max v.nesting (nestingOfItems vs)

def nestingOfMembers : List (String × Value) -> Nat
  | [] => 0
  | (_, v) :: members => max v.nesting (nestingOfMembers members)

end

theorem nestsTo_tagged {n : Nat} {content : List Char} (tag : String)
    (h : NestsTo n content) : NestsTo (n + 1) (taggedChars tag content) := by
  have hmember := (h.member tag).sequence_cons true (nestsTo_sequence_nil false)
  rw [Nat.max_zero] at hmember
  exact hmember.object

theorem nestsTo_octets (first : Bool) (bs : List UInt8) :
    NestsTo 0 (sequenceChars first (bs.map fun b => natChars b.toNat)) := by
  induction bs generalizing first with
  | nil => exact nestsTo_sequence_nil first
  | cons b bs ih => exact (nestsTo_natChars b.toNat).sequence_cons first (ih false)

mutual

theorem nestsTo_jsonChars (v : Value) (h : v.isFloatless = true) :
    NestsTo v.nesting v.jsonChars := by
  cases v with
  | null => exact nestsTo_textChars "Null"
  | bool b => exact nestsTo_tagged "Bool" (nestsTo_boolChars b)
  | int n => exact nestsTo_tagged "Int" (nestsTo_intChars n.toInt)
  | float x => cases h
  | text t => exact nestsTo_tagged "String" (nestsTo_textChars t)
  | bytes bs => exact nestsTo_tagged "Bytes" (nestsTo_octets true bs).list
  | array items => exact nestsTo_tagged "Array" (nestsTo_items items h true).list
  | map members => exact nestsTo_tagged "Map" (nestsTo_members members h true).object

theorem nestsTo_items (vs : List Value) (h : allItems (fun w => !w.isFloat) vs = true)
    (first : Bool) : NestsTo (nestingOfItems vs) (sequenceChars first (itemsJsonChars vs)) := by
  cases vs with
  | nil => exact nestsTo_sequence_nil first
  | cons v vs =>
      rw [allItems, Bool.and_eq_true] at h
      exact (nestsTo_jsonChars v h.1).sequence_cons first (nestsTo_items vs h.2 false)

theorem nestsTo_members (members : List (String × Value))
    (h : allMembers (fun w => !w.isFloat) members = true) (first : Bool) :
    NestsTo (nestingOfMembers members) (sequenceChars first (membersJsonChars members)) := by
  cases members with
  | nil => exact nestsTo_sequence_nil first
  | cons m members =>
      rcases m with ⟨name, v⟩
      rw [allMembers, Bool.and_eq_true] at h
      exact ((nestsTo_jsonChars v h.1).member name).sequence_cons first
        (nestsTo_members members h.2 false)

end

theorem nesting_toJson {v : Value} (h : v.isFloatless = true) :
    Json.nesting v.toJson = v.nesting :=
  nesting_ofList (nestsTo_jsonChars v h)

/-!
## Octets are read back
-/

/-- What follows an item in a list does not carry a number on. -/
theorem endsRun_sequence (items : List (List Char)) (s : List Char) :
    Text.EndsRun continuesNumeral (sequenceChars false items ++ ']' :: s) := by
  cases items with
  | nil => exact Text.endsRun_cons rfl s
  | cons item items => exact Text.endsRun_cons rfl _

theorem run_readOctetItems (bs : List UInt8) {fuel : Nat} (hfuel : bs.length < fuel)
    (first : Bool) (s : List Char) :
    (readOctetItems fuel first).run
        (sequenceChars first (bs.map fun b => natChars b.toNat) ++ ']' :: s) = .ok (bs, s) := by
  induction bs generalizing fuel first with
  | nil =>
      obtain ⟨fuel, rfl⟩ := Nat.exists_eq_succ_of_ne_zero (Nat.ne_of_gt hfuel)
      rw [List.map_nil, sequenceChars_nil, List.nil_append, readOctetItems,
        Scan.run_bind_of_run (run_nextItem_end first s), if_neg Bool.false_ne_true,
        Scan.run_bind_of_run (run_closeList s)]
      rfl
  | cons b bs ih =>
      obtain ⟨fuel, rfl⟩ := Nat.exists_eq_succ_of_ne_zero (Nat.ne_zero_of_lt hfuel)
      have hends := endsRun_sequence (bs.map fun b => natChars b.toNat) s
      rw [List.map_cons, sequenceChars_cons, List.append_assoc, List.append_assoc, readOctetItems,
        Scan.run_bind_of_run (run_nextItem (beginsItem_natChars b.toNat) first _), if_pos rfl,
        Scan.run_bind_of_run (run_readNumberAs_octet b hends),
        Scan.run_bind_of_run (ih (Nat.lt_of_succ_lt_succ hfuel) false)]
      rfl

theorem length_octets (first : Bool) (bs : List UInt8) :
    bs.length <= (sequenceChars first (bs.map fun b => natChars b.toNat)).length := by
  induction bs generalizing first with
  | nil => exact Nat.zero_le _
  | cons b bs ih =>
      have hpos : 0 < (natChars b.toNat).length := Nat.length_toDigits_pos
      have hrest := ih false
      rw [List.map_cons, sequenceChars_cons, List.length_append, List.length_append,
        List.length_cons]
      omega

theorem run_readOctets (bs : List UInt8) {depth : Nat} (hdepth : depth ≠ 0) (s : List Char) :
    (readOctets depth).run (listChars (bs.map fun b => natChars b.toNat) ++ s) = .ok (bs, s) := by
  have hlength := length_octets true bs
  rw [listChars_append, readOctets, run_peek_bind rfl]
  dsimp only
  rw [if_neg (by decide), if_pos rfl, if_neg hdepth, run_advance_bind, run_get_bind]
  refine run_readOctetItems bs ?_ true s
  rw [List.length_append]
  omega

/-!
## One name, one kind
-/

section Tagged

variable (fuel depth : Nat) (s : List Char)

theorem run_readTagged_bool (b : Bool) :
    (readTagged (fuel + 1) depth).run (textChars "Bool" ++ (':' :: (boolChars b ++ s))) =
      .ok (.bool b, s) := by
  rw [readTagged, Scan.run_bind_of_run (run_readTag "Bool" _), if_neg (by decide), if_pos rfl,
    Scan.run_bind_of_run (run_colon _), Scan.run_bind_of_run (run_readBool b s)]
  rfl

theorem run_readTagged_int (n : Int64) (hs : Text.EndsRun continuesNumeral s) :
    (readTagged (fuel + 1) depth).run (textChars "Int" ++ (':' :: (intChars n.toInt ++ s))) =
      .ok (.int n, s) := by
  rw [readTagged, Scan.run_bind_of_run (run_readTag "Int" _), if_neg (by decide),
    if_neg (by decide), if_pos rfl, Scan.run_bind_of_run (run_colon _),
    Scan.run_bind_of_run (run_readNumberAs_int64 n hs)]
  rfl

theorem run_readTagged_text (t : String) :
    (readTagged (fuel + 1) depth).run (textChars "String" ++ (':' :: (textChars t ++ s))) =
      .ok (.text t, s) := by
  rw [readTagged, Scan.run_bind_of_run (run_readTag "String" _), if_neg (by decide),
    if_neg (by decide), if_neg (by decide), if_neg (by decide), if_pos rfl,
    Scan.run_bind_of_run (run_colon _), Scan.run_bind_of_run (run_readText t s)]
  rfl

theorem run_readTagged_bytes (bs : List UInt8) (hdepth : depth ≠ 0) :
    (readTagged (fuel + 1) depth).run
        (textChars "Bytes" ++ (':' :: (listChars (bs.map fun b => natChars b.toNat) ++ s))) =
      .ok (.bytes bs, s) := by
  rw [readTagged, Scan.run_bind_of_run (run_readTag "Bytes" _), if_neg (by decide),
    if_neg (by decide), if_neg (by decide), if_neg (by decide), if_neg (by decide), if_pos rfl,
    Scan.run_bind_of_run (run_colon _), Scan.run_bind_of_run (run_readOctets bs hdepth s)]
  rfl

theorem run_readTagged_array {items : List Value} {t : List Char} (hdepth : depth ≠ 0)
    (hitems : (readItems fuel (depth - 1) true).run t = .ok (items, s)) :
    (readTagged (fuel + 1) depth).run (textChars "Array" ++ (':' :: '[' :: t)) =
      .ok (.array items, s) := by
  rw [readTagged, Scan.run_bind_of_run (run_readTag "Array" _), if_neg (by decide),
    if_neg (by decide), if_neg (by decide), if_neg (by decide), if_neg (by decide),
    if_neg (by decide), if_pos rfl, Scan.run_bind_of_run (run_colon _), run_peek_bind rfl]
  simp only [if_neg hdepth]
  rw [run_advance_bind, Scan.run_bind_of_run hitems]
  rfl

theorem run_readTagged_map {members : List (String × Value)} {t : List Char}
    (hdepth : depth ≠ 0)
    (hmembers : (readMembers fuel (depth - 1) true).run t = .ok (members, s)) :
    (readTagged (fuel + 1) depth).run (textChars "Map" ++ (':' :: '{' :: t)) =
      .ok (ofMembers members, s) := by
  rw [readTagged, Scan.run_bind_of_run (run_readTag "Map" _), if_neg (by decide),
    if_neg (by decide), if_neg (by decide), if_neg (by decide), if_neg (by decide),
    if_neg (by decide), if_neg (by decide), if_pos rfl, Scan.run_bind_of_run (run_colon _),
    run_peek_bind rfl]
  simp only [if_neg hdepth]
  rw [run_advance_bind, Scan.run_bind_of_run hmembers]
  rfl

theorem run_readValue_null :
    (readValue (fuel + 1) depth).run (textChars "Null" ++ s) = .ok (.null, s) := by
  rw [textChars_append, readValue, run_peek_bind rfl]
  dsimp only
  rw [if_pos rfl, ← textChars_append, Scan.run_bind_of_run (run_readText "Null" s), if_pos rfl]
  rfl

end Tagged

/-!
## Values are read back
-/

/-- A name, a colon and two braces stand around what is tagged, so for what is
inside there is fuel enough. -/
theorem run_readValue_tagged {fuel depth : Nat} {tag : String} {content : List Char} {v : Value}
    (hfuel : (taggedChars tag content).length <= fuel) (hdepth : 0 < depth) (s : List Char)
    (h : ∀ f, content.length < f ->
      (readTagged (f + 1) (depth - 1)).run
          (textChars tag ++ (':' :: (content ++ ('}' :: s)))) = .ok (v, '}' :: s)) :
    (readValue fuel depth).run (taggedChars tag content ++ s) = .ok (v, s) := by
  have hchars := congrArg List.length (objectChars_one_append tag content [])
  rw [List.append_nil, ← taggedChars] at hchars
  simp only [textChars, List.length_cons, List.length_append, List.length_nil] at hchars
  obtain ⟨fuel, rfl⟩ : ∃ f, fuel = f + 2 := ⟨fuel - 2, by omega⟩
  have hread := h fuel (by omega)
  rw [taggedChars, objectChars_one_append, readValue, run_peek_bind rfl]
  dsimp only
  rw [if_neg (by decide), if_pos rfl, if_neg (Nat.ne_of_gt hdepth), run_advance_bind,
    Scan.run_bind_of_run hread, Scan.run_bind_of_run (run_closeObject s)]
  rfl

/-- A map is read by its members, in whatever order they were written. -/
theorem run_readValue_map {members : List (String × Value)} {fuel depth : Nat}
    (hfuel : (map members).jsonChars.length <= fuel) (hdepth : 1 < depth) (s : List Char)
    (h : ∀ f, (sequenceChars true (membersJsonChars members)).length < f ->
      (readMembers f (depth - 1 - 1) true).run
          (sequenceChars true (membersJsonChars members) ++ '}' :: ('}' :: s)) =
        .ok (members, '}' :: s)) :
    (readValue fuel depth).run ((map members).jsonChars ++ s) = .ok (ofMembers members, s) := by
  refine run_readValue_tagged hfuel (by omega) s fun f hf => ?_
  rw [objectChars_append]
  exact run_readTagged_map f _ _ (by omega)
    (h f (Nat.lt_trans (length_sequenceChars_lt_object _) hf))

theorem beginsItem_jsonChars (v : Value) : BeginsItem v.jsonChars := by
  cases v with
  | null => exact ⟨_, _, rfl, rfl, by decide⟩
  | bool b => exact ⟨_, _, rfl, rfl, by decide⟩
  | int n => exact ⟨_, _, rfl, rfl, by decide⟩
  | float x => exact ⟨_, _, rfl, rfl, by decide⟩
  | text t => exact ⟨_, _, rfl, rfl, by decide⟩
  | bytes bs => exact ⟨_, _, rfl, rfl, by decide⟩
  | array items => exact ⟨_, _, rfl, rfl, by decide⟩
  | map members => exact ⟨_, _, rfl, rfl, by decide⟩

mutual

theorem run_readValue (v : Value) (hordered : v.isOrdered = true)
    (hfloatless : v.isFloatless = true) {fuel depth : Nat} (hdepth : v.nesting <= depth)
    (hfuel : v.jsonChars.length <= fuel) (s : List Char) :
    (readValue fuel depth).run (v.jsonChars ++ s) = .ok (v, s) := by
  cases v with
  | null =>
      obtain ⟨fuel, rfl⟩ := Nat.exists_eq_succ_of_ne_zero (Nat.ne_zero_of_lt hfuel)
      exact run_readValue_null fuel depth s
  | bool b =>
      exact run_readValue_tagged hfuel hdepth s fun f _ => run_readTagged_bool f _ _ b
  | int n =>
      have hends : Text.EndsRun continuesNumeral ('}' :: s) := Text.endsRun_cons rfl s
      exact run_readValue_tagged hfuel hdepth s fun f _ => run_readTagged_int f _ _ n hends
  | float x => cases hfloatless
  | text t =>
      exact run_readValue_tagged hfuel hdepth s fun f _ => run_readTagged_text f _ _ t
  | bytes bs =>
      rw [nesting] at hdepth
      exact run_readValue_tagged hfuel (by omega) s fun f _ =>
        run_readTagged_bytes f _ _ bs (by omega)
  | array items =>
      rw [nesting] at hdepth
      refine run_readValue_tagged hfuel (by omega) s fun f hf => ?_
      have hread := run_readItems items hordered hfloatless (depth - 1 - 1) (by omega) true
        (Nat.lt_trans (length_sequenceChars_lt_list _) hf) ('}' :: s)
      rw [listChars_append]
      exact run_readTagged_array f _ _ (by omega) hread
  | map members =>
      rw [nesting] at hdepth
      rw [isOrdered, all, Bool.and_eq_true] at hordered
      have hsame := ofMembers_of_namesInOrder (of_decide_eq_true hordered.1)
      have hread := run_readValue_map hfuel (by omega) s fun f hf =>
        run_readMembers members hordered.2 hfloatless (depth - 1 - 1) (by omega) true hf _
      rw [hsame] at hread
      exact hread

theorem run_readItems (vs : List Value) (hordered : allItems hasNamesInOrder vs = true)
    (hfloatless : allItems (fun w => !w.isFloat) vs = true) {fuel : Nat} (depth : Nat)
    (hdepth : nestingOfItems vs <= depth) (first : Bool)
    (hfuel : (sequenceChars first (itemsJsonChars vs)).length < fuel) (s : List Char) :
    (readItems fuel depth first).run (sequenceChars first (itemsJsonChars vs) ++ ']' :: s) =
      .ok (vs, s) := by
  obtain ⟨fuel, rfl⟩ := Nat.exists_eq_succ_of_ne_zero (Nat.ne_zero_of_lt hfuel)
  cases vs with
  | nil =>
      rw [itemsJsonChars, sequenceChars_nil, List.nil_append, readItems,
        Scan.run_bind_of_run (run_nextItem_end first s), if_neg Bool.false_ne_true,
        Scan.run_bind_of_run (run_closeList s)]
      rfl
  | cons v vs =>
      rw [allItems, Bool.and_eq_true] at hordered hfloatless
      rw [nestingOfItems, Nat.max_le] at hdepth
      rw [itemsJsonChars, sequenceChars_cons, List.length_append, List.length_append] at hfuel
      have hpos := (beginsItem_jsonChars v).length_pos
      have hv (t : List Char) : (readValue fuel depth).run (v.jsonChars ++ t) = .ok (v, t) :=
        run_readValue v hordered.1 hfloatless.1 hdepth.1 (by omega) t
      have hvs : (readItems fuel depth false).run
          (sequenceChars false (itemsJsonChars vs) ++ ']' :: s) = .ok (vs, s) :=
        run_readItems vs hordered.2 hfloatless.2 depth hdepth.2 false (by omega) s
      rw [itemsJsonChars, sequenceChars_cons, List.append_assoc, List.append_assoc, readItems,
        Scan.run_bind_of_run (run_nextItem (beginsItem_jsonChars v) first _), if_pos rfl,
        Scan.run_bind_of_run (hv _), Scan.run_bind_of_run hvs]
      rfl

theorem run_readMembers (members : List (String × Value))
    (hordered : allMembers hasNamesInOrder members = true)
    (hfloatless : allMembers (fun w => !w.isFloat) members = true) {fuel : Nat} (depth : Nat)
    (hdepth : nestingOfMembers members <= depth) (first : Bool)
    (hfuel : (sequenceChars first (membersJsonChars members)).length < fuel) (s : List Char) :
    (readMembers fuel depth first).run
        (sequenceChars first (membersJsonChars members) ++ '}' :: s) = .ok (members, s) := by
  obtain ⟨fuel, rfl⟩ := Nat.exists_eq_succ_of_ne_zero (Nat.ne_zero_of_lt hfuel)
  cases members with
  | nil =>
      rw [membersJsonChars, sequenceChars_nil, List.nil_append, readMembers,
        Scan.run_bind_of_run (run_nextMember_end first s), if_neg Bool.false_ne_true,
        Scan.run_bind_of_run (run_closeObject s)]
      rfl
  | cons m members =>
      rcases m with ⟨name, v⟩
      rw [allMembers, Bool.and_eq_true] at hordered hfloatless
      rw [nestingOfMembers, Nat.max_le] at hdepth
      rw [membersJsonChars, sequenceChars_cons, List.length_append, List.length_append,
        memberChars, List.length_append, List.length_cons] at hfuel
      have hv (t : List Char) : (readValue fuel depth).run (v.jsonChars ++ t) = .ok (v, t) :=
        run_readValue v hordered.1 hfloatless.1 hdepth.1 (by omega) t
      have hmembers : (readMembers fuel depth false).run
          (sequenceChars false (membersJsonChars members) ++ '}' :: s) = .ok (members, s) :=
        run_readMembers members hordered.2 hfloatless.2 depth hdepth.2 false (by omega) s
      rw [membersJsonChars, sequenceChars_cons, List.append_assoc, List.append_assoc,
        memberChars_append, readMembers, Scan.run_bind_of_run (run_nextMember first _), if_pos rfl,
        Scan.run_bind_of_run (run_restOfText name _), Scan.run_bind_of_run (run_colon _),
        Scan.run_bind_of_run (hv _), Scan.run_bind_of_run hmembers]
      rfl

end

/-!
## Maps that are read are in order
-/

theorem yields_named {α : Type} (read : Scan α) (make : α -> Value)
    (h : ∀ a, (make a).isOrdered = true) :
    (do colon; let a <- read; pure (make a) : Scan Value).Yields fun v => v.isOrdered = true :=
  Scan.yields_bind fun _ => Scan.yields_bind fun a => Scan.yields_pure (h a)

section Step

variable {fuel : Nat}
variable (hvalue : ∀ depth, (readValue fuel depth).Yields fun v => v.isOrdered = true)
variable (htagged : ∀ depth, (readTagged fuel depth).Yields fun v => v.isOrdered = true)
variable (hitems : ∀ depth first, (readItems fuel depth first).Yields
  fun vs => ∀ v ∈ vs, v.isOrdered = true)
variable (hmembers : ∀ depth first, (readMembers fuel depth first).Yields
  fun members => ∀ m ∈ members, m.2.isOrdered = true)

include htagged in
theorem yields_readValue_succ (depth : Nat) :
    (readValue (fuel + 1) depth).Yields fun v => v.isOrdered = true := by
  rw [readValue]
  refine Scan.yields_bind fun c => ?_
  cases c with
  | none => exact Scan.yields_fail _ _
  | some c =>
      refine Scan.Yields.ite (fun _ => ?_) fun _ => Scan.Yields.ite (fun _ => ?_) fun _ => ?_
      · exact Scan.yields_bind fun _ =>
          Scan.Yields.ite (fun _ => Scan.yields_pure rfl) fun _ => Scan.yields_fail _ _
      · refine Scan.Yields.ite (fun _ => Scan.yields_fail _ _) fun _ => ?_
        exact Scan.yields_bind fun _ => (htagged _).bind fun v hv =>
          Scan.yields_bind fun _ => Scan.yields_pure hv
      · exact Scan.yields_fail _ _

include hitems hmembers in
theorem yields_readTagged_succ (depth : Nat) :
    (readTagged (fuel + 1) depth).Yields fun v => v.isOrdered = true := by
  rw [readTagged]
  refine Scan.yields_bind fun tag => ?_
  refine Scan.Yields.ite (fun _ => ?null) fun _ => ?_
  case null => exact yields_named _ (fun _ => .null) fun _ => rfl
  refine Scan.Yields.ite (fun _ => ?bool) fun _ => ?_
  case bool => exact yields_named _ .bool fun _ => rfl
  refine Scan.Yields.ite (fun _ => ?int) fun _ => ?_
  case int => exact yields_named _ .int fun _ => rfl
  refine Scan.Yields.ite (fun _ => ?float) fun _ => ?_
  case float => exact yields_named _ .float fun _ => rfl
  refine Scan.Yields.ite (fun _ => ?text) fun _ => ?_
  case text => exact yields_named _ .text fun _ => rfl
  refine Scan.Yields.ite (fun _ => ?bytes) fun _ => ?_
  case bytes => exact yields_named _ .bytes fun _ => rfl
  refine Scan.Yields.ite (fun _ => ?array) fun _ => ?_
  case array =>
    refine Scan.yields_bind fun _ => Scan.yields_bind fun c => ?_
    split
    · refine Scan.Yields.ite (fun _ => Scan.yields_fail _ _) fun _ => ?_
      exact Scan.yields_bind fun _ => (hitems _ _).bind fun vs hvs =>
        Scan.yields_pure (allItems_iff.mpr hvs)
    · exact yields_wrongKind _
  refine Scan.Yields.ite (fun _ => ?map) fun _ => Scan.yields_fail _ _
  case map =>
    refine Scan.yields_bind fun _ => Scan.yields_bind fun c => ?_
    split
    · refine Scan.Yields.ite (fun _ => Scan.yields_fail _ _) fun _ => ?_
      exact Scan.yields_bind fun _ => (hmembers _ _).bind fun members hread =>
        Scan.yields_pure (isOrdered_ofMembers hread)
    · exact yields_wrongKind _

include hvalue hitems in
theorem yields_readItems_succ (depth : Nat) (first : Bool) :
    (readItems (fuel + 1) depth first).Yields fun vs => ∀ v ∈ vs, v.isOrdered = true := by
  rw [readItems]
  refine Scan.yields_bind fun more => Scan.Yields.ite (fun _ => ?_) fun _ => ?_
  · exact (hvalue depth).bind fun v hv => (hitems depth false).bind fun vs hvs =>
      Scan.yields_pure (List.forall_mem_cons.mpr ⟨hv, hvs⟩)
  · exact Scan.yields_bind fun _ => Scan.yields_pure nofun

include hvalue hmembers in
theorem yields_readMembers_succ (depth : Nat) (first : Bool) :
    (readMembers (fuel + 1) depth first).Yields
      fun members => ∀ m ∈ members, m.2.isOrdered = true := by
  rw [readMembers]
  refine Scan.yields_bind fun more => Scan.Yields.ite (fun _ => ?_) fun _ => ?_
  · exact Scan.yields_bind fun name => Scan.yields_bind fun _ =>
      (hvalue depth).bind fun v hv => (hmembers depth false).bind fun members hread =>
        Scan.yields_pure (List.forall_mem_cons.mpr ⟨hv, hread⟩)
  · exact Scan.yields_bind fun _ => Scan.yields_pure nofun

end Step

theorem yields_ordered (fuel : Nat) :
    (∀ depth, (readValue fuel depth).Yields fun v => v.isOrdered = true) ∧
      (∀ depth, (readTagged fuel depth).Yields fun v => v.isOrdered = true) ∧
      (∀ depth first, (readItems fuel depth first).Yields
        fun vs => ∀ v ∈ vs, v.isOrdered = true) ∧
      (∀ depth first, (readMembers fuel depth first).Yields
        fun members => ∀ m ∈ members, m.2.isOrdered = true) := by
  induction fuel with
  | zero =>
      refine ⟨fun _ => ?_, fun _ => ?_, fun _ _ => ?_, fun _ _ => ?_⟩
      · rw [readValue]
        exact Scan.yields_fail _ _
      · rw [readTagged]
        exact Scan.yields_fail _ _
      · rw [readItems]
        exact Scan.yields_fail _ _
      · rw [readMembers]
        exact Scan.yields_fail _ _
  | succ fuel ih =>
      rcases ih with ⟨hvalue, htagged, hitems, hmembers⟩
      exact ⟨yields_readValue_succ htagged, yields_readTagged_succ hitems hmembers,
        yields_readItems_succ hvalue hitems, yields_readMembers_succ hvalue hmembers⟩

theorem isOrdered_of_fromJson? {text : String} {v : Value} (h : fromJson? text = .ok v) :
    v.isOrdered = true :=
  of_readWhole (fun fuel => readValue fuel depthLimit)
    (fun fuel => (yields_ordered fuel).1 depthLimit) h

/-!
## Whole documents
-/

theorem fromJson?_toJson {v : Value} (hordered : v.isOrdered = true)
    (hfloatless : v.isFloatless = true) (hnesting : v.nesting <= depthLimit) :
    fromJson? v.toJson = .ok v := by
  refine readWhole_of_reads (fun fuel => readValue fuel depthLimit) fun fuel hfuel s => ?_
  exact run_readValue v hordered hfloatless hnesting hfuel s

/-- Of a map whose members stand in any order, the one with the same members in
order is read. -/
theorem fromJson?_toJson_map {members : List (String × Value)}
    (hordered : allMembers hasNamesInOrder members = true)
    (hfloatless : allMembers (fun w => !w.isFloat) members = true)
    (hnesting : (map members).nesting <= depthLimit) :
    fromJson? (map members).toJson = .ok (ofMembers members) := by
  rw [nesting] at hnesting
  refine readWhole_of_reads (fun fuel => readValue fuel depthLimit) fun fuel hfuel s => ?_
  exact run_readValue_map hfuel (by decide) s fun f hf =>
    run_readMembers members hordered hfloatless (depthLimit - 1 - 1) (by omega) true hf _

/-- A value without numbers of double precision is read back from its text as it
was, if its maps are in order and the text nests no deeper than 127 containers;
and every value that is read from any text has its maps in order. -/
theorem values_come_back :
    (∀ v : Value, v.isOrdered = true -> v.isFloatless = true -> Json.nesting v.toJson <= 127 ->
      fromJson? v.toJson = .ok v) ∧
    (∀ (text : String) (v : Value), fromJson? text = .ok v -> v.isOrdered = true) := by
  refine ⟨fun v hordered hfloatless hnesting => ?_, fun text v h => isOrdered_of_fromJson? h⟩
  rw [nesting_toJson hfloatless] at hnesting
  exact fromJson?_toJson hordered hfloatless hnesting

/-- Octets, an array and a string side by side in a map come back as what they
are; and of two members in the wrong order the map that is read has them in
order. -/
theorem values_come_back_side_by_side :
    let v : Value := .map [("\x00\"[", .text "[0,255]"), ("a", .bytes [0, 255]),
      ("b", .array [.int 0, .int (-9223372036854775808), .null, .bool true])]
    let text : String := "\x7b\"Map\":\x7b\"b\":\"Null\",\"a\":\"Null\"\x7d\x7d"
    let sorted : Value := .map [("a", .null), ("b", .null)]
    (v.isOrdered = true ∧ v.isFloatless = true ∧ Json.nesting v.toJson <= 127 ∧
        fromJson? text = .ok sorted) ∧
      fromJson? v.toJson = .ok v ∧ sorted.isOrdered = true := by
  intro v text sorted
  have hordered : v.isOrdered = true := by decide +kernel
  have hfloatless : v.isFloatless = true := by decide
  have hnesting : Json.nesting v.toJson <= 127 := by
    rw [nesting_toJson hfloatless]
    decide
  let written : List (String × Value) := [("b", .null), ("a", .null)]
  have htext : text = (map written).toJson := rfl
  have hsorted : ofMembers written = sorted := rfl
  have hread : fromJson? text = .ok sorted := by
    rw [htext, ← hsorted]
    exact fromJson?_toJson_map rfl rfl (by decide)
  rcases values_come_back with ⟨hback, horder⟩
  exact ⟨⟨hordered, hfloatless, hnesting, hread⟩, hback v hordered hfloatless hnesting,
    horder text sorted hread⟩

end Value
end WriteLatch
