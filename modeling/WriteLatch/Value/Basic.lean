import WriteLatch.Binary64.Basic

/-!
# Entity values

What is stored under a key: a scalar, a run of octets, an array, or a map from
names to values.  The members of a map are kept in the order of their names,
each name once.
-/

namespace WriteLatch

inductive Value where
  | null
  | bool (b : Bool)
  | int (n : Int64)
  | float (x : Binary64)
  | text (s : String)
  | bytes (bs : List UInt8)
  | array (items : List Value)
  | map (members : List (String × Value))
  deriving Repr, Inhabited

inductive ValueKind where
  | null
  | bool
  | int
  | float
  | text
  | bytes
  | array
  | map
  deriving DecidableEq, Repr, Inhabited

namespace ValueKind

def name : ValueKind -> String
  | .null => "null"
  | .bool => "bool"
  | .int => "int"
  | .float => "float"
  | .text => "string"
  | .bytes => "bytes"
  | .array => "array"
  | .map => "map"

def all : List ValueKind :=
  [.null, .bool, .int, .float, .text, .bytes, .array, .map]

def ofName? (name : String) : Option ValueKind :=
  all.find? fun kind => kind.name == name

end ValueKind

namespace Value

def kind : Value -> ValueKind
  | .null => .null
  | .bool _ => .bool
  | .int _ => .int
  | .float _ => .float
  | .text _ => .text
  | .bytes _ => .bytes
  | .array _ => .array
  | .map _ => .map

/-! ## Size -/

mutual

/-- A rough count of octets, by which stores limit the size of an entity. -/
def size : Value -> Nat
  | .null => 1
  | .bool _ => 1
  | .int _ => 8
  | .float _ => 8
  | .text s => s.utf8ByteSize
  | .bytes bs => bs.length
  | .array items => sizeOfItems items
  | .map members => sizeOfMembers members

def sizeOfItems : List Value -> Nat
  | [] => 0
  | v :: vs => v.size + sizeOfItems vs

def sizeOfMembers : List (String × Value) -> Nat
  | [] => 0
  | (name, v) :: members => name.utf8ByteSize + v.size + sizeOfMembers members

end

/-! ## Depth -/

mutual

/-- The number of containers nested in one another. -/
def depth : Value -> Nat
  | .null => 0
  | .bool _ => 0
  | .int _ => 0
  | .float _ => 0
  | .text _ => 0
  | .bytes _ => 0
  | .array items => depthOfItems items + 1
  | .map members => depthOfMembers members + 1

def depthOfItems : List Value -> Nat
  | [] => 0
  | v :: vs => max v.depth (depthOfItems vs)

def depthOfMembers : List (String × Value) -> Nat
  | [] => 0
  | (_, v) :: members => max v.depth (depthOfMembers members)

end

/-! ## Members in order -/

/-- A member takes the place of one of the same name. -/
def insertMember (name : String) (v : Value) :
    List (String × Value) -> List (String × Value)
  | [] => [(name, v)]
  | (other, w) :: members =>
      if name < other then (name, v) :: (other, w) :: members
      else if name = other then (name, v) :: members
      else (other, w) :: insertMember name v members

/-- Of the members of one name the last one counts. -/
def ofMembers (members : List (String × Value)) : Value :=
  .map (members.foldl (fun ms m => insertMember m.1 m.2 ms) [])

/-! ## Equality of values -/

mutual

/-- Equality in which numbers of double precision are compared as numbers. -/
def equals : Value -> Value -> Bool
  | .null, .null => true
  | .bool a, .bool b => a == b
  | .int m, .int n => m == n
  | .float x, .float y => x.numericallyEqual y
  | .text s, .text t => s == t
  | .bytes bs, .bytes cs => bs == cs
  | .array vs, .array ws => equalItems vs ws
  | .map ms, .map ns => equalMembers ms ns
  | _, _ => false

def equalItems : List Value -> List Value -> Bool
  | [], [] => true
  | v :: vs, w :: ws => v.equals w && equalItems vs ws
  | _, _ => false

def equalMembers : List (String × Value) -> List (String × Value) -> Bool
  | [], [] => true
  | (a, v) :: ms, (b, w) :: ns => a == b && v.equals w && equalMembers ms ns
  | _, _ => false

end

end Value
end WriteLatch
