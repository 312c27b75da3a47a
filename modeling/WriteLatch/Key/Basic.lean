/-!
# Entity keys

A key is a path: the element that names the entity, and the elements of its
ancestors, nearest first.  An element has a kind, an identity and a space; the
identity is a name, a number, or left for the store to assign.
-/

namespace WriteLatch

inductive Identity where
  | incomplete
  | named (name : String)
  | numbered (n : Int64)
  deriving DecidableEq, Repr, Inhabited

namespace Identity

def isComplete : Identity -> Bool
  | .incomplete => false
  | .named _ => true
  | .numbered _ => true

/-- Neither the empty name nor the number zero. -/
def isAdmissible : Identity -> Bool
  | .incomplete => true
  | .named name => !name.isEmpty
  | .numbered n => n != 0

end Identity

structure KeyElement where
  kind : String
  identity : Identity
  space : String
  deriving DecidableEq, Repr, Inhabited

namespace KeyElement

def isAdmissible (e : KeyElement) : Bool :=
  !e.kind.isEmpty && e.identity.isAdmissible

/-- Whether an element may stand directly under the given parent element. -/
def fitsUnder (e parent : KeyElement) : Bool :=
  parent.identity.isComplete && parent.space == e.space

end KeyElement

structure Key where
  leaf : KeyElement
  ancestors : List KeyElement
  deriving DecidableEq, Repr, Inhabited

namespace Key

def ofElement (e : KeyElement) : Key :=
  ⟨e, []⟩

def incomplete (kind : String) : Key :=
  ofElement ⟨kind, .incomplete, ""⟩

def named (kind name : String) : Key :=
  ofElement ⟨kind, .named name, ""⟩

def numbered (kind : String) (n : Int64) : Key :=
  ofElement ⟨kind, .numbered n, ""⟩

/-- The elements of the path, the key's own first. -/
def elements (k : Key) : List KeyElement :=
  k.leaf :: k.ancestors

def parent? (k : Key) : Option Key :=
  match k.ancestors with
  | [] => none
  | e :: rest => some ⟨e, rest⟩

def space (k : Key) : String :=
  k.leaf.space

/-- Under a parent a key takes the space of that parent. -/
def withParent (k parent : Key) : Key :=
  ⟨{ k.leaf with space := parent.space }, parent.elements⟩

/-- Only the key itself moves; its ancestors stay where they are. -/
def inSpace (k : Key) (space : String) : Key :=
  ⟨{ k.leaf with space := space }, k.ancestors⟩

def isComplete (k : Key) : Bool :=
  k.leaf.identity.isComplete

def completedWith (k : Key) (n : Int64) : Key :=
  ⟨{ k.leaf with identity := .numbered n }, k.ancestors⟩

/-! ## Validity -/

def isValidPath : List KeyElement -> Bool
  | [] => true
  | [e] => e.isAdmissible
  | e :: parent :: rest =>
      e.isAdmissible && e.fitsUnder parent && isValidPath (parent :: rest)

/-- Every element of the path is admissible and fits under the next one. -/
def isValid (k : Key) : Bool :=
  isValidPath k.elements

/-! ## Construction -/

theorem parent?_withParent (k parent : Key) :
    (k.withParent parent).parent? = some parent := rfl

theorem space_withParent (k parent : Key) :
    (k.withParent parent).space = parent.space := rfl

theorem isComplete_completedWith (k : Key) (n : Int64) :
    (k.completedWith n).isComplete = true := rfl

theorem isValidPath_cons_cons (e parent : KeyElement) (rest : List KeyElement) :
    isValidPath (e :: parent :: rest) =
      (e.isAdmissible && e.fitsUnder parent && isValidPath (parent :: rest)) := rfl

end Key
end WriteLatch
