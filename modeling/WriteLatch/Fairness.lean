/-!
# Fairness

Tasks share one thread and are never interrupted, so it takes two bounds to let
everyone come to turn.  After a round of turns whoever set the tasks going is
looked at again.  And who goes on because what it waits for is over at once may
do so only so often before it has to give way.
-/

namespace WriteLatch
namespace Fairness

/-- The number of turns in a round. -/
def roundSize : Nat :=
  61

/-- How many waits may be over at once within one turn. -/
def allowance : Nat :=
  128

end Fairness
end WriteLatch
