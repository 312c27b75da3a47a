import WriteLatch.Key.Basic

/-!
# The order of keys

Keys are compared by kind, then identity, then parent, then space; texts by
code point.  An incomplete identity comes before every name and a name before
every number, and a key without a parent before one with a parent.
-/

namespace WriteLatch

namespace Identity

def compareTo : Identity -> Identity -> Ordering
  | .incomplete, .incomplete => .eq
  | .incomplete, _ => .lt
  | .named _, .incomplete => .gt
  | .named a, .named b => compare a b
  | .named _, .numbered _ => .lt
  | .numbered m, .numbered n => compare m.toInt n.toInt
  | .numbered _, _ => .gt

end Identity

namespace Key

/-- The comparison of two paths, nearest element first.  The space of an
element counts only after everything above it. -/
def comparePaths : List KeyElement -> List KeyElement -> Ordering
  | [], [] => .eq
  | [], _ :: _ => .lt
  | _ :: _, [] => .gt
  | a :: as, b :: bs =>
      ((compare a.kind b.kind).then (a.identity.compareTo b.identity)).then
        ((comparePaths as bs).then (compare a.space b.space))

def compareTo (a b : Key) : Ordering :=
  comparePaths a.elements b.elements

def sorted (keys : List Key) : List Key :=
  keys.mergeSort fun a b => (a.compareTo b).isLE

end Key
end WriteLatch
