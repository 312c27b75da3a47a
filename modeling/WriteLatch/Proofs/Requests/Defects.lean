import WriteLatch.Proofs.Interleaving.Dispatch
import WriteLatch.Simulation.Session

/-!
# Defects of requests

A request is looked over for one defect after another and told the first position
at which it has the first of them.  A client that finds a defect answers with it
and has touched nothing, and nothing is touched for a request that has nothing to
write either.
-/

namespace WriteLatch

/-- No two of the values are of different kinds. -/
def Value.AreOfOneKind (values : List Value) : Prop :=
  ∀ v ∈ values, ∀ w ∈ values, v.kind = w.kind

namespace Request

/-!
## The first position at fault
-/

theorem firstWhere?_eq_some_iff {α : Type} {p : α -> Bool} {xs : List α} {x : α} {i : Nat} :
    firstWhere? p xs = some (x, i) ↔
      xs[i]? = some x ∧ p x = true ∧
        ∀ (j : Nat) (y : α), j < i -> xs[j]? = some y -> p y = false := by
  rw [firstWhere?, List.find?_eq_some_iff_getElem]
  simp only [List.getElem_zipIdx, List.length_zipIdx, Nat.zero_add, Prod.mk.injEq]
  constructor
  · rintro ⟨hx, j, hj, ⟨hxj, hij⟩, hbefore⟩
    subst hij
    refine ⟨by rw [List.getElem?_eq_getElem hj, hxj], hx, ?_⟩
    intro l y hl hy
    rcases List.getElem?_eq_some_iff.mp hy with ⟨hlength, heq⟩
    rw [← heq]
    simpa using hbefore l hl
  · rintro ⟨hi, hx, hbefore⟩
    rcases List.getElem?_eq_some_iff.mp hi with ⟨hlength, heq⟩
    refine ⟨hx, i, hlength, ⟨heq, rfl⟩, ?_⟩
    intro l hl
    have hl' := hbefore l _ hl (List.getElem?_eq_getElem (Nat.lt_trans hl hlength))
    simpa using hl'

theorem firstWhere?_eq_none_iff {α : Type} {p : α -> Bool} {xs : List α} :
    firstWhere? p xs = none ↔ ∀ x ∈ xs, p x = false := by
  refine ⟨of_firstWhere?_eq_none, ?_⟩
  intro h
  rw [firstWhere?, List.find?_eq_none]
  intro found hmem
  have hx := List.mem_of_getElem? (List.mem_zipIdx_iff_getElem?.mp hmem)
  simp [h found.1 hx]

/-- The defects that a request can be told, each with the first position that
has it, if it has none of those before. -/
inductive FirstDefect (keys : List Key) (values : List Value) : Defect -> Prop where
  | lengths (h : keys.length ≠ values.length) :
      FirstDefect keys values (.lengths keys.length values.length)
  | mixedKinds {first other : Value} {index : Nat} (hlengths : keys.length = values.length)
      (hfirst : values[0]? = some first) (hother : values[index]? = some other)
      (hdiffer : other.kind ≠ first.kind)
      (hleast : ∀ (j : Nat) (v : Value), j < index -> values[j]? = some v -> v.kind = first.kind) :
      FirstDefect keys values (.mixedKinds index first.kind other.kind)
  | invalidKey {k : Key} {index : Nat} (hlengths : keys.length = values.length)
      (hkinds : Value.AreOfOneKind values) (hk : keys[index]? = some k)
      (hinvalid : k.isValid = false)
      (hleast : ∀ (j : Nat) (l : Key), j < index -> keys[j]? = some l -> l.isValid = true) :
      FirstDefect keys values (.invalidKey index k.display)

theorem mixedKinds?_eq_none_iff {values : List Value} :
    mixedKinds? values = none ↔ Value.AreOfOneKind values := by
  cases values with
  | nil =>
      refine iff_of_true rfl ?_
      intro v hv
      cases hv
  | cons first rest =>
      rw [mixedKinds?, Option.map_eq_none_iff, firstWhere?_eq_none_iff]
      constructor
      · intro h v hv w hw
        have hvKind : v.kind = first.kind := by simpa using h v hv
        have hwKind : w.kind = first.kind := by simpa using h w hw
        rw [hvKind, hwKind]
      · intro h v hv
        simpa using h v hv first List.mem_cons_self

theorem mixedKinds?_eq_some_iff {values : List Value} {d : Defect} :
    mixedKinds? values = some d ↔
      ∃ (first other : Value) (index : Nat), values[0]? = some first ∧
        values[index]? = some other ∧ other.kind ≠ first.kind ∧
        (∀ (j : Nat) (v : Value), j < index -> values[j]? = some v -> v.kind = first.kind) ∧
        d = .mixedKinds index first.kind other.kind := by
  cases values with
  | nil => simp [mixedKinds?]
  | cons first rest =>
      rw [mixedKinds?, Option.map_eq_some_iff]
      constructor
      · rintro ⟨⟨other, index⟩, hfound, hd⟩
        rcases firstWhere?_eq_some_iff.mp hfound with ⟨hother, hdiffer, hleast⟩
        refine ⟨first, other, index, rfl, hother, by simpa using hdiffer, ?_, hd.symm⟩
        intro j v hj hv
        simpa using hleast j v hj hv
      · rintro ⟨first', other, index, hfirst, hother, hdiffer, hleast, hd⟩
        cases Option.some.inj hfirst
        refine ⟨(other, index), firstWhere?_eq_some_iff.mpr ⟨hother, by simpa using hdiffer, ?_⟩,
          hd.symm⟩
        intro j v hj hv
        simpa using hleast j v hj hv

theorem invalidKey?_eq_none_iff {keys : List Key} :
    invalidKey? keys = none ↔ ∀ k ∈ keys, k.isValid = true := by
  rw [invalidKey?, Option.map_eq_none_iff, firstWhere?_eq_none_iff]
  simp

theorem invalidKey?_eq_some_iff {keys : List Key} {d : Defect} :
    invalidKey? keys = some d ↔
      ∃ (k : Key) (index : Nat), keys[index]? = some k ∧ k.isValid = false ∧
        (∀ (j : Nat) (l : Key), j < index -> keys[j]? = some l -> l.isValid = true) ∧
        d = .invalidKey index k.display := by
  rw [invalidKey?, Option.map_eq_some_iff]
  constructor
  · rintro ⟨⟨k, index⟩, hfound, hd⟩
    rcases firstWhere?_eq_some_iff.mp hfound with ⟨hk, hinvalid, hleast⟩
    refine ⟨k, index, hk, by simpa using hinvalid, ?_, hd.symm⟩
    intro j l hj hl
    simpa using hleast j l hj hl
  · rintro ⟨k, index, hk, hinvalid, hleast, hd⟩
    refine ⟨(k, index), firstWhere?_eq_some_iff.mpr ⟨hk, by simpa using hinvalid, ?_⟩, hd.symm⟩
    intro j l hj hl
    simpa using hleast j l hj hl

/-!
## The order of the checks
-/

variable {keys : List Key} {values : List Value}

theorem check_eq_error_iff {d : Defect} :
    check keys values = .error d ↔ defect? keys values = some d := by
  cases h : defect? keys values with
  | none => simp [check, h]
  | some d' => simp [check, h]

/-- A request passes if it has none of the three defects. -/
theorem check_passes_iff :
    check keys values = .ok () ↔
      keys.length = values.length ∧ Value.AreOfOneKind values ∧ ∀ k ∈ keys, k.isValid = true := by
  rw [check_eq_ok_iff, defect?, ← mixedKinds?_eq_none_iff, ← invalidKey?_eq_none_iff]
  by_cases hlengths : keys.length = values.length
  · rw [if_neg (not_not_intro hlengths), Option.or_eq_none_iff, and_iff_right hlengths]
  · rw [if_pos hlengths]
    refine iff_of_false (Option.some_ne_none _) ?_
    exact fun h => hlengths h.1

/-- Any other request is told its first defect. -/
theorem check_eq_error_iff_firstDefect {d : Defect} :
    check keys values = .error d ↔ FirstDefect keys values d := by
  rw [check_eq_error_iff, defect?]
  by_cases hlengths : keys.length = values.length
  · rw [if_neg (not_not_intro hlengths), Option.or_eq_some_iff, mixedKinds?_eq_some_iff,
      mixedKinds?_eq_none_iff, invalidKey?_eq_some_iff]
    constructor
    · rintro (⟨first, other, index, hfirst, hother, hdiffer, hleast, hd⟩ |
        ⟨hkinds, k, index, hk, hinvalid, hleast, hd⟩)
      · rw [hd]
        exact .mixedKinds hlengths hfirst hother hdiffer hleast
      · rw [hd]
        exact .invalidKey hlengths hkinds hk hinvalid hleast
    · intro h
      cases h with
      | lengths hne => exact absurd hlengths hne
      | mixedKinds _ hfirst hother hdiffer hleast =>
          exact Or.inl ⟨_, _, _, hfirst, hother, hdiffer, hleast, rfl⟩
      | invalidKey _ hkinds hk hinvalid hleast =>
          exact Or.inr ⟨hkinds, _, _, hk, hinvalid, hleast, rfl⟩
  · rw [if_pos hlengths, Option.some.injEq]
    constructor
    · intro hd
      rw [← hd]
      exact .lengths hlengths
    · intro h
      cases h with
      | lengths _ => rfl
      | mixedKinds heq _ _ _ _ => exact absurd heq hlengths
      | invalidKey heq _ _ _ _ => exact absurd heq hlengths

end Request

/-!
## Clients that find a defect
-/

namespace Simulation
namespace Session

variable {s : Session} {ctx : String} {keys : List Key} {values : List Value}
  {giveUp : Option Millis}

/-- A client that has started the tasks of a request finds no defect in it any
more. -/
theorem finishMany_ne_invalid (s : Session) (spans : List Span) (ends : List Client.TaskEnd)
    (d : Defect) : (s.finishMany spans ends).2 ≠ .written (.error (.invalid d)) := by
  unfold finishMany Client.merged
  dsimp only
  intro hinvalid
  have hmerged := Outcome.written.inj hinvalid
  cases hmerge : Batch.merge spans (ends.map Client.TaskEnd.result) with
  | ok written =>
      rw [hmerge] at hmerged
      cases hmerged
  | error slots =>
      rw [hmerge] at hmerged
      cases hmerged

theorem take_writeMany_of_error {d : Defect} (h : Request.check keys values = .error d) :
    s.take (.writeMany ctx keys values giveUp) = (s, .written (.error (.invalid d))) := by
  rw [take, writeMany, h]

theorem take_writeMany_invalid_iff {d : Defect} :
    (s.take (.writeMany ctx keys values giveUp)).2 = .written (.error (.invalid d)) ↔
      Request.check keys values = .error d := by
  cases hcheck : Request.check keys values with
  | error d' =>
      rw [take_writeMany_of_error hcheck]
      simp
  | ok u =>
      refine iff_of_false ?_ (by simp)
      rw [take, writeMany, hcheck]
      dsimp only
      split
      · simp
      · split
        · exact finishMany_ne_invalid _ _ _ d
        · simp

theorem take_writeOne_of_error {key : Key} {value : Value} {d : Defect}
    (h : Request.check [key] [value] = .error d) :
    s.take (.writeOne ctx key value giveUp) = (s, .slot (.error (.invalid d))) := by
  rw [take, writeOne, h]

/-- Exactly the requests without a defect pass, any other is told its first
defect, and whoever asked for it finds the whole session as it was: no call and
no report in the journal, no counter changed, and no task started. -/
theorem first_defect_and_nothing_else (s : Session) (ctx : String) (giveUp : Option Millis) :
    (∀ keys values,
      (Request.check keys values = .ok () ↔ keys.length = values.length ∧
        Value.AreOfOneKind values ∧ ∀ k ∈ keys, k.isValid = true) ∧
      (∀ d, Request.check keys values = .error d ↔ Request.FirstDefect keys values d) ∧
      (∀ d, Request.check keys values = .error d ->
        s.take (.writeMany ctx keys values giveUp) = (s, .written (.error (.invalid d)))) ∧
      (∀ d, (s.take (.writeMany ctx keys values giveUp)).2 = .written (.error (.invalid d)) ->
        Request.check keys values = .error d)) ∧
    (∀ key value d, Request.check [key] [value] = .error d ->
      s.take (.writeOne ctx key value giveUp) = (s, .slot (.error (.invalid d)))) ∧
    s.take (.writeMany ctx [] [] giveUp) = (s, .written (.ok [])) := by
  refine ⟨?_, ?_, rfl⟩
  · intro keys values
    exact ⟨Request.check_passes_iff, fun d => Request.check_eq_error_iff_firstDefect,
      fun d => take_writeMany_of_error, fun d => take_writeMany_invalid_iff.mp⟩
  · exact fun key value d => take_writeOne_of_error

/-- A client that has nothing to do yet. -/
def idle : Session :=
  ⟨⟨{}, 500⟩, { scene := {} }⟩

/-- The third value is of another kind than the first, and the second key is
invalid: the client is told of the value. -/
theorem first_defect_and_nothing_else_mixed :
    idle.take (.writeMany "root" [.numbered "Item" 1, .numbered "Item" 0, .numbered "Item" 3]
        [.int 1, .int 2, .text "oops"] none) =
        (idle, .written (.error (.invalid (.mixedKinds 2 .int .text)))) ∧
      idle.take (.writeOne "root" (.numbered "Item" 0) (.int 1) none) =
        (idle, .slot (.error (.invalid (.invalidKey 0 "\"Item\",0")))) := by
  have hall := first_defect_and_nothing_else idle "root" none
  exact ⟨(hall.1 _ _).2.2.1 _ rfl, hall.2.1 _ _ _ rfl⟩

end Session
end Simulation
end WriteLatch
