import WriteLatch.Batch.Span
import WriteLatch.Failure

/-!
# Merging the outcomes of a split

The outcomes of the pieces of a request make one outcome aligned with the
request.  A store that answers for another number of keys than it was given has
failed wholesale.  If every piece was written, the keys are strung together;
otherwise there is one slot for every position, a wholesale failure repeated
over its span.
-/

namespace WriteLatch
namespace Batch

/-- How many results a call gave; a wholesale failure gives none that could be
miscounted. -/
def answered? : CallResult -> Option Nat
  | .ok keys => some keys.length
  | .error (.positional slots) => some slots.size
  | .error (.wholesale _) => none

/-- The number of results, if it is not the number of keys. -/
def misfit? (span : Span) (result : CallResult) : Option Nat :=
  (answered? result).filter fun n => n != span.size

def misfitFailure (returned expected : Nat) : Failure :=
  .backend [s!"backing store returned {returned} results for {expected} keys"]

/-- Puts a wholesale failure in place of a result of the wrong length. -/
def conform (span : Span) (result : CallResult) : CallResult :=
  match misfit? span result with
  | some returned => .error (.wholesale (misfitFailure returned span.size))
  | none => result

/-- The slots of one piece. -/
def slotsOf (span : Span) : CallResult -> List Slot
  | .ok keys => keys.map .ok
  | .error (.positional slots) => slots.toList
  | .error (.wholesale f) => List.replicate span.size (.error f)

def keys? : CallResult -> Option (List Key)
  | .ok keys => some keys
  | .error _ => none

/-- All keys in order, if every piece was written. -/
def allKeys? (results : List CallResult) : Option (List Key) :=
  (results.mapM keys?).map List.flatten

def merge (spans : List Span) (results : List CallResult) : Except Slots (List Key) :=
  let pieces := (spans.zip results).map fun piece => (piece.1, conform piece.1 piece.2)
  match allKeys? (pieces.map Prod.snd) with
  | some keys => .ok keys
  | none => .error ⟨pieces.flatMap fun piece => slotsOf piece.1 piece.2⟩

/-- Whether memory can be asked for the outcome, of eighty octets a slot: first
for every position up to the end of the last span, then for as many slots as
the spans with a result have positions. -/
def mergeHasRoom (spans : List Span) (results : List CallResult) : Bool :=
  Span.hasRoom ((spans.getLast?.map Span.stop).getD 0) 80 &&
    Span.hasRoom (((spans.zip results).map fun piece => piece.1.size).foldr (· + ·) 0) 80

/-! ## Conforming results -/

theorem conform_of_misfit?_eq_none {span : Span} {result : CallResult}
    (h : misfit? span result = none) : conform span result = result := by
  simp [conform, h]

theorem conform_of_misfit?_eq_some {span : Span} {result : CallResult} {n : Nat}
    (h : misfit? span result = some n) :
    conform span result = .error (.wholesale (misfitFailure n span.size)) := by
  simp [conform, h]

theorem misfit?_eq_none_iff (span : Span) (result : CallResult) :
    misfit? span result = none ↔ ∀ n, answered? result = some n -> n = span.size := by
  cases h : answered? result with
  | none => simp [misfit?, h]
  | some n => simp [misfit?, h, Option.filter]

theorem length_slotsOf_conform (span : Span) (result : CallResult) :
    (slotsOf span (conform span result)).length = span.size := by
  cases h : misfit? span result with
  | some n => simp [conform_of_misfit?_eq_some h, slotsOf]
  | none =>
      rw [conform_of_misfit?_eq_none h]
      rw [misfit?_eq_none_iff] at h
      match result with
      | .ok keys => simpa [slotsOf] using h keys.length rfl
      | .error (.positional slots) => exact h slots.size rfl
      | .error (.wholesale f) => simp [slotsOf]

end Batch
end WriteLatch
