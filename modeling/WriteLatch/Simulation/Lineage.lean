import WriteLatch.Association

/-!
# Lineages

Who was derived from whom, by the numbers of the tokens.  Only a token that is
still held somewhere and not cancelled stands in a lineage, with those derived
from it in order.  Cancellation reaches a family one by one: the derived ones
before the token itself, and a generation before the next.  Who is let go of
leaves those derived from it to the token it was derived from.

The order within a family follows from how children are taken away.  Where one
leaves a row, the last of the row steps into its place.
-/

namespace WriteLatch
namespace Simulation

/-- The children of every token in it. -/
abbrev Lineage : Type :=
  Association Nat (List Nat)

namespace Lineage

/-- The last of a row steps to its head. -/
def lastFirst (row : List Nat) : List Nat :=
  row.getLast?.toList ++ row.dropLast

/-- Takes a number out of a row; the last of the row steps into its place. -/
def takeOut (n : Nat) : List Nat -> List Nat
  | [] => []
  | m :: row => if m = n then lastFirst row else m :: takeOut n row

def found (l : Lineage) (id : Nat) : Lineage :=
  l.put id []

/-- A token derived from a cancelled one has no place in the lineage. -/
def derive (l : Lineage) (parent id : Nat) : Lineage :=
  match List.lookup parent l with
  | some children => (l.put parent (children ++ [id])).put id []
  | none => l

def parent? (l : Lineage) (id : Nat) : Option (Nat × List Nat) :=
  l.find? fun e => e.2.contains id

/-- Lets go of a token that nothing holds any more. -/
def letGo (l : Lineage) (id : Nat) : Lineage :=
  let children := (List.lookup id l).getD []
  let l :=
    match l.parent? id with
    | some (parent, row) => l.put parent (takeOut id (row ++ children))
    | none => l
  l.erase id

/-- Reaches those in a row and those derived from them.  Where one has been
cancelled before, the last of the row steps into its place. -/
def reach : Nat -> Lineage -> List Nat -> List Nat × Lineage
  | 0, l, _ => ([], l)
  | _, l, [] => ([], l)
  | fuel + 1, l, id :: row =>
      match List.lookup id l with
      | some children =>
          let (reached, l) := reach fuel (l.erase id) (row ++ children.reverse)
          (id :: reached, l)
      | none => reach fuel l (lastFirst row)

/-- A bound on the numbers that can come up. -/
def size (l : Lineage) : Nat :=
  (l.map fun e => e.2.length + 1).foldr (· + ·) 0

/-- Cancels a token: those it reaches, in order, and the lineage without
them. -/
def cancel (l : Lineage) (id : Nat) : List Nat × Lineage :=
  match List.lookup id l with
  | some children =>
      let (reached, rest) := reach (l.size + 1) (l.erase id) (lastFirst children)
      (reached ++ [id], rest)
  | none => ([], l)

end Lineage
end Simulation
end WriteLatch
