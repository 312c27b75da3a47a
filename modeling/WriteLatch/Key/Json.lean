import WriteLatch.Json.Printer
import WriteLatch.Json.Skip
import WriteLatch.Key.Basic

/-!
# Keys as documents

A key is an object with the members kind, id, parent and namespace, in this
order; a key without a parent has null there.  Read, the members may come in
any order, others among them are skipped and the parent may be absent; a list
of exactly the four is read too.
-/

namespace WriteLatch

open Json

namespace Identity

def jsonChars : Identity -> List Char
  | .incomplete => textChars "Incomplete"
  | .named name => objectChars [memberChars "Name" (textChars name)]
  | .numbered n => objectChars [memberChars "Id" (intChars n.toInt)]

/-- An identity in braces: its one variant with what belongs to it. -/
def readTagged : Scan Identity := do
  let tag <- readTag
  if tag = "Incomplete" then do
    colon
    readNull
    closeObject
    pure .incomplete
  else if tag = "Name" then do
    colon
    let name <- readText
    closeObject
    pure (.named name)
  else if tag = "Id" then do
    colon
    let n <- readNumberAs Number.int64?
    closeObject
    pure (.numbered n)
  else Scan.fail .misshapen

def readIdentity (depth : Nat) : Scan Identity := do
  match <- peek with
  | none => Scan.fail .truncated
  | some c =>
      if c = '"' then do
        let tag <- readText
        if tag = "Incomplete" then pure .incomplete else Scan.fail .misshapen
      else if c = '{' then
        if depth = 0 then Scan.fail .malformed
        else do
          advance
          readTagged
      else Scan.fail .malformed

end Identity

namespace Key

def elementChars (e : KeyElement) (parent : List Char) : List Char :=
  objectChars
    [memberChars "kind" (textChars e.kind),
      memberChars "id" e.identity.jsonChars,
      memberChars "parent" parent,
      memberChars "namespace" (textChars e.space)]

def pathJsonChars : List KeyElement -> List Char
  | [] => nullChars
  | e :: rest => elementChars e (pathJsonChars rest)

def jsonChars (k : Key) : List Char :=
  pathJsonChars k.elements

def toJson (k : Key) : String :=
  String.ofList k.jsonChars

/-! ## Reading -/

def ofParts (kind : String) (identity : Identity) (parent : Option Key) (space : String) : Key :=
  ⟨⟨kind, identity, space⟩, (parent.map Key.elements).getD []⟩

/-- The members of a key met so far.  Every one may come once. -/
structure Draft where
  kind : Option String := none
  identity : Option Identity := none
  parent : Option (Option Key) := none
  space : Option String := none

namespace Draft

/-- The parent alone may be absent. -/
def finish? (d : Draft) : Option Key := do
  let kind <- d.kind
  let identity <- d.identity
  let space <- d.space
  pure (ofParts kind identity (d.parent.getD none) space)

end Draft

mutual

def readKey : Nat -> Nat -> Scan Key
  | 0, _ => Scan.fail .malformed
  | fuel + 1, depth => do
      match <- peek with
      | none => Scan.fail .truncated
      | some c =>
          if c = '[' then
            if depth = 0 then Scan.fail .malformed
            else do
              advance
              expectItem true
              let kind <- readText
              expectItem false
              let identity <- Identity.readIdentity (depth - 1)
              expectItem false
              let parent <- readOptional (readKey fuel (depth - 1))
              expectItem false
              let space <- readText
              closeList
              pure (ofParts kind identity parent space)
          else if c = '{' then
            if depth = 0 then Scan.fail .malformed
            else do
              advance
              readMembers fuel (depth - 1) true {}
          else wrongKind

def readMembers : Nat -> Nat -> Bool -> Draft -> Scan Key
  | 0, _, _, _ => Scan.fail .malformed
  | fuel + 1, depth, first, draft => do
      if <- nextMember first then do
        let name <- restOfText
        if name = "kind" then
          if draft.kind.isSome then Scan.fail .misshapen
          else do
            colon
            let kind <- readText
            readMembers fuel depth false { draft with kind := some kind }
        else if name = "id" then
          if draft.identity.isSome then Scan.fail .misshapen
          else do
            colon
            let identity <- Identity.readIdentity depth
            readMembers fuel depth false { draft with identity := some identity }
        else if name = "parent" then
          if draft.parent.isSome then Scan.fail .misshapen
          else do
            colon
            let parent <- readOptional (readKey fuel depth)
            readMembers fuel depth false { draft with parent := some parent }
        else if name = "namespace" then
          if draft.space.isSome then Scan.fail .misshapen
          else do
            colon
            let space <- readText
            readMembers fuel depth false { draft with space := some space }
        else do
          colon
          skipValue
          readMembers fuel depth false draft
      else
        match draft.finish? with
        | some k => do
            closeObject
            pure k
        | none => Scan.fail .misshapen

end

/-- Every member and every key consumes characters. -/
def fromJson? (text : String) : Except Fault Key :=
  readWhole (do readKey (2 * (<- get).length + 2) depthLimit) text

end Key
end WriteLatch
