import Mathlib.Data.List.Nodup
import WriteLatch.Proofs.Keys.Validity
import WriteLatch.Proofs.Store.Entities

/-!
# A call lays entities over a store

A call is refused as a whole, and leaves the store as it is, or it answers for
every position by itself and lays the entities that it has written over those in
the store, in the order of the positions.  The numbers of a store go to the
incomplete keys that are written, one after another over all calls.
-/

namespace WriteLatch

/-!
## Keys that are completed
-/

namespace Key

def number? (k : Key) : Option Int64 :=
  match k.leaf.identity with
  | .numbered n => some n
  | .named _ => none
  | .incomplete => none

end Key

namespace Store

/-!
## Numbers that go to keys
-/

/-- How many numbers an entry takes: one if it is written under an incomplete key. -/
def taken (s : Store) (entry : Key × Value) : Nat :=
  assigned ([entry].filter s.accepts)

end Store
end WriteLatch
