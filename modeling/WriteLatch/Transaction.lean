import WriteLatch.Context.Basic

/-!
# The write-lock transaction

One piece of a request is written in a fixed order.  A context for the cache is
derived, the locks are set, the store is called, and the locks are deleted
again, whatever became of the two calls before.  What the store answered is the
result; a failure to delete the locks is reported aside and changes nothing.
Without a context for the cache nothing is touched at all.

A transaction moves from phase to phase by the answers to its calls.  A call is
interrupted when the context it is made under ends first.
-/

namespace WriteLatch

/-- What became of a call made under a context. -/
inductive Answer (α : Type) where
  | interrupted (i : Interruption)
  | returned (a : α)
  deriving Repr

/-- The answer of the cache: done, or the causes why not. -/
abbrev CacheAnswer : Type :=
  Answer (Except (List String) Unit)

abbrev StoreAnswer : Type :=
  Answer CallResult

namespace Transaction

inductive Phase where
  | opening
  | locking (cacheContext : Context)
  | writing (cacheContext : Context)
  | releasing (cacheContext : Context) (result : CallResult)
  | finished (result : CallResult)

def wholesale (f : Failure) : CallResult :=
  .error (.wholesale f)

def opened : Except (List String) Context -> Phase
  | .ok c => .locking c
  | .error causes => .finished (wholesale (.cache "new_context" causes))

def locked (c : Context) : CacheAnswer -> Phase
  | .returned (.ok ()) => .writing c
  | .returned (.error causes) => .releasing c (wholesale (.cache "set_multi" causes))
  | .interrupted i => .releasing c (wholesale i.failure)

def written (c : Context) : StoreAnswer -> Phase
  | .returned result => .releasing c result
  | .interrupted i => .releasing c (wholesale i.failure)

/-- Why the locks may still be there, if they may. -/
def releaseCauses? : CacheAnswer -> Option (List String)
  | .returned (.ok ()) => none
  | .returned (.error causes) => some ("put_multi cache delete_multi" :: causes)
  | .interrupted i => some ["put_multi cache delete_multi", i.failure.message]

def released (result : CallResult) (_ : CacheAnswer) : Phase :=
  .finished result

end Transaction
end WriteLatch
