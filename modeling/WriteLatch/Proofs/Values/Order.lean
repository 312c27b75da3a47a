import Mathlib.Data.String.Basic
import WriteLatch.Value.Basic

/-!
# Maps in order

The names of a map stand in their order, each one once, in every map within a
value.  Putting in a member keeps the order, so a map made from any members has
it, and a map made from members that are in order already has just those.
-/

namespace WriteLatch
namespace Value

/-!
## All values within a value
-/

mutual

/-- Whether the value and every value within it passes the test. -/
def all (test : Value -> Bool) : Value -> Bool
  | .array items => test (.array items) && allItems test items
  | .map members => test (.map members) && allMembers test members
  | v => test v

def allItems (test : Value -> Bool) : List Value -> Bool
  | [] => true
  | v :: vs => v.all test && allItems test vs

def allMembers (test : Value -> Bool) : List (String × Value) -> Bool
  | [] => true
  | (_, v) :: members => v.all test && allMembers test members

end

theorem allItems_iff {test : Value -> Bool} {vs : List Value} :
    allItems test vs = true ↔ ∀ v ∈ vs, v.all test = true := by
  induction vs with
  | nil => exact ⟨fun _ => nofun, fun _ => rfl⟩
  | cons v vs ih => rw [allItems, Bool.and_eq_true, ih, List.forall_mem_cons]

theorem allMembers_iff {test : Value -> Bool} {members : List (String × Value)} :
    allMembers test members = true ↔ ∀ m ∈ members, m.2.all test = true := by
  induction members with
  | nil => exact ⟨fun _ => nofun, fun _ => rfl⟩
  | cons m members ih => rw [allMembers, Bool.and_eq_true, ih, List.forall_mem_cons]

/-!
## Names in order
-/

def NamesInOrder (members : List (String × Value)) : Prop :=
  (members.map Prod.fst).Pairwise (· < ·)

instance (members : List (String × Value)) : Decidable (NamesInOrder members) :=
  inferInstanceAs (Decidable ((members.map Prod.fst).Pairwise (· < ·)))

def hasNamesInOrder : Value -> Bool
  | .map members => decide (NamesInOrder members)
  | _ => true

/-- Every map in the value has its names in order. -/
def isOrdered (v : Value) : Bool :=
  v.all hasNamesInOrder

theorem namesInOrder_cons {m : String × Value} {members : List (String × Value)} :
    NamesInOrder (m :: members) ↔ (∀ other ∈ members, m.1 < other.1) ∧ NamesInOrder members := by
  rw [NamesInOrder, List.map_cons, List.pairwise_cons, List.forall_mem_map]
  rfl

theorem mem_insertMember {name : String} {v : Value} {members : List (String × Value)}
    {m : String × Value} (h : m ∈ insertMember name v members) : m = (name, v) ∨ m ∈ members := by
  fun_induction insertMember name v members with
  | case1 => exact Or.inl (List.mem_singleton.mp h)
  | case2 other w members hlt => exact List.mem_cons.mp h
  | case3 w members hne =>
      rcases List.mem_cons.mp h with hm | hm
      · exact Or.inl hm
      · exact Or.inr (List.mem_cons_of_mem _ hm)
  | case4 other w members hlt hne ih =>
      rcases List.mem_cons.mp h with rfl | hm
      · exact Or.inr List.mem_cons_self
      · exact (ih hm).imp id (List.mem_cons_of_mem _)

theorem namesInOrder_insertMember {name : String} {v : Value}
    {members : List (String × Value)} (h : NamesInOrder members) :
    NamesInOrder (insertMember name v members) := by
  fun_induction insertMember name v members with
  | case1 => exact List.pairwise_singleton _ name
  | case2 other w members hlt =>
      rw [namesInOrder_cons]
      refine ⟨fun m hm => ?_, h⟩
      rcases List.mem_cons.mp hm with rfl | hm
      · exact hlt
      · exact lt_trans hlt ((namesInOrder_cons.mp h).1 m hm)
  | case3 w members hne => exact h
  | case4 other w members hlt hne ih =>
      rw [namesInOrder_cons] at h ⊢
      refine ⟨fun m hm => ?_, ih h.2⟩
      rcases mem_insertMember hm with rfl | hm
      · exact lt_of_le_of_ne (not_lt.mp hlt) (Ne.symm hne)
      · exact h.1 m hm

/-!
## Maps made from members
-/

theorem insertMember_last {name : String} {v : Value} {members : List (String × Value)}
    (h : ∀ m ∈ members, m.1 < name) : insertMember name v members = members ++ [(name, v)] := by
  induction members with
  | nil => rfl
  | cons m members ih =>
      have hm : m.1 < name := h m List.mem_cons_self
      rw [insertMember, if_neg (lt_asymm hm), if_neg (ne_of_gt hm),
        ih fun other hother => h other (List.mem_cons_of_mem m hother), List.cons_append]

theorem foldl_insertMember {before members : List (String × Value)}
    (h : NamesInOrder (before ++ members)) :
    members.foldl (fun ms m => insertMember m.1 m.2 ms) before = before ++ members := by
  induction members generalizing before with
  | nil => exact (List.append_nil before).symm
  | cons m members ih =>
      have hbefore : ∀ other ∈ before, other.1 < m.1 := by
        intro other hother
        rw [NamesInOrder, List.map_append, List.pairwise_append] at h
        exact h.2.2 other.1 (List.mem_map_of_mem hother) m.1 List.mem_cons_self
      rw [List.append_cons] at h ⊢
      rw [List.foldl_cons, insertMember_last hbefore]
      exact ih h

theorem ofMembers_of_namesInOrder {members : List (String × Value)} (h : NamesInOrder members) :
    ofMembers members = .map members :=
  congrArg map (foldl_insertMember (show NamesInOrder ([] ++ members) from h))

theorem isOrdered_ofMembers {members : List (String × Value)}
    (h : ∀ m ∈ members, m.2.isOrdered = true) : (ofMembers members).isOrdered = true := by
  -- Both the order and the test of the members hold of what has been put in so far.
  have hfold (before : List (String × Value)) (horder : NamesInOrder before)
      (hbefore : ∀ m ∈ before, m.2.isOrdered = true) :
      NamesInOrder (members.foldl (fun ms m => insertMember m.1 m.2 ms) before) ∧
        ∀ m ∈ members.foldl (fun ms m => insertMember m.1 m.2 ms) before,
          m.2.isOrdered = true := by
    induction members generalizing before with
    | nil => exact ⟨horder, hbefore⟩
    | cons m members ih =>
        refine ih (fun other hother => h other (List.mem_cons_of_mem m hother)) _
          (namesInOrder_insertMember horder) fun other hother => ?_
        rcases mem_insertMember hother with rfl | hother
        · exact h m List.mem_cons_self
        · exact hbefore other hother
  rcases hfold [] List.Pairwise.nil nofun with ⟨horder, hmembers⟩
  rw [ofMembers, isOrdered, all, Bool.and_eq_true, allMembers_iff]
  exact ⟨decide_eq_true horder, hmembers⟩

/-!
## Values without numbers of double precision
-/

def isFloat : Value -> Bool
  | .float _ => true
  | _ => false

/-- No number of double precision is in the value. -/
def isFloatless (v : Value) : Bool :=
  v.all fun w => !w.isFloat

end Value
end WriteLatch
