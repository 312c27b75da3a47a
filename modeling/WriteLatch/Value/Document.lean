import WriteLatch.Json.Skip
import WriteLatch.Value.Basic

/-!
# Values from any document

Any JSON document stands for a value: null, booleans, strings, lists and
objects for their counterparts, an integer of sixty-four bits with a sign for
an integer, and every other number for one of double precision.
-/

namespace WriteLatch

open Json

namespace Value

def ofNumber (n : Number) : Value :=
  match n.int64? with
  | some i => .int i
  | none => .float n.toBinary64

mutual

def readDocument : Nat -> Nat -> Scan Value
  | 0, _ => Scan.fail .malformed
  | fuel + 1, depth => do
      match <- peek with
      | none => Scan.fail .truncated
      | some c =>
          if c = 'n' then do
            readNull
            pure .null
          else if c = 't' || c = 'f' then do
            let b <- readBool
            pure (.bool b)
          else if c = '-' || isDigit c then do
            let n <- readNumber
            pure (ofNumber n)
          else if c = '"' then do
            let s <- readText
            pure (.text s)
          else if c = '[' then
            if depth = 0 then Scan.fail .malformed
            else do
              advance
              let items <- readDocuments fuel (depth - 1) true
              pure (.array items)
          else if c = '{' then
            if depth = 0 then Scan.fail .malformed
            else do
              advance
              let members <- readNamedDocuments fuel (depth - 1) true
              pure (ofMembers members)
          else Scan.fail .malformed

def readDocuments : Nat -> Nat -> Bool -> Scan (List Value)
  | 0, _, _ => Scan.fail .malformed
  | fuel + 1, depth, first => do
      if <- nextItem first then do
        let v <- readDocument fuel depth
        let vs <- readDocuments fuel depth false
        pure (v :: vs)
      else do
        closeList
        pure []

def readNamedDocuments : Nat -> Nat -> Bool -> Scan (List (String × Value))
  | 0, _, _ => Scan.fail .malformed
  | fuel + 1, depth, first => do
      if <- nextMember first then do
        let name <- restOfText
        colon
        let v <- readDocument fuel depth
        let members <- readNamedDocuments fuel depth false
        pure ((name, v) :: members)
      else do
        closeObject
        pure []

end

def ofDocument? (text : String) : Except Fault Value :=
  readWhole (do readDocument (2 * (<- get).length + 2) depthLimit) text

end Value
end WriteLatch
