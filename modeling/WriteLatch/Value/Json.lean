import WriteLatch.Json.Printer
import WriteLatch.Json.Skip
import WriteLatch.Value.Basic

/-!
# Values as tagged documents

A value is written as an object of one member, named for its kind; null is the
bare name.  Octets are a list of numbers, and may also be read from a string.
-/

namespace WriteLatch

open Json

namespace Value

/-- The one member of a tagged document. -/
def taggedChars (tag : String) (content : List Char) : List Char :=
  objectChars [memberChars tag content]

mutual

def jsonChars : Value -> List Char
  | .null => textChars "Null"
  | .bool b => taggedChars "Bool" (boolChars b)
  | .int n => taggedChars "Int" (intChars n.toInt)
  | .float x => taggedChars "Float" (floatChars x)
  | .text s => taggedChars "String" (textChars s)
  | .bytes bs => taggedChars "Bytes" (listChars (bs.map fun b => natChars b.toNat))
  | .array items => taggedChars "Array" (listChars (itemsJsonChars items))
  | .map members => taggedChars "Map" (objectChars (membersJsonChars members))

def itemsJsonChars : List Value -> List (List Char)
  | [] => []
  | v :: vs => v.jsonChars :: itemsJsonChars vs

def membersJsonChars : List (String × Value) -> List (List Char)
  | [] => []
  | (name, v) :: members => memberChars name v.jsonChars :: membersJsonChars members

end

def toJson (v : Value) : String :=
  String.ofList v.jsonChars

/-! ## Reading -/

/-- What is left of a list of octets. -/
def readOctetItems : Nat -> Bool -> Scan (List UInt8)
  | 0, _ => Scan.fail .malformed
  | fuel + 1, first => do
      if <- nextItem first then do
        let b <- readNumberAs Number.octet?
        let bs <- readOctetItems fuel false
        pure (b :: bs)
      else do
        closeList
        pure []

def readOctets (depth : Nat) : Scan (List UInt8) := do
  match <- peek with
  | none => Scan.fail .truncated
  | some c =>
      if c = '"' then do
        advance
        restOfOctets
      else if c = '[' then
        if depth = 0 then Scan.fail .malformed
        else do
          advance
          readOctetItems ((<- get).length + 1) true
      else wrongKind

mutual

def readValue : Nat -> Nat -> Scan Value
  | 0, _ => Scan.fail .malformed
  | fuel + 1, depth => do
      match <- peek with
      | none => Scan.fail .truncated
      | some c =>
          if c = '"' then do
            let tag <- readText
            if tag = "Null" then pure .null else Scan.fail .misshapen
          else if c = '{' then
            if depth = 0 then Scan.fail .malformed
            else do
              advance
              let v <- readTagged fuel (depth - 1)
              closeObject
              pure v
          else Scan.fail .malformed

def readTagged : Nat -> Nat -> Scan Value
  | 0, _ => Scan.fail .malformed
  | fuel + 1, depth => do
      let tag <- readTag
      if tag = "Null" then do
        colon
        readNull
        pure .null
      else if tag = "Bool" then do
        colon
        let b <- readBool
        pure (.bool b)
      else if tag = "Int" then do
        colon
        let n <- readNumberAs Number.int64?
        pure (.int n)
      else if tag = "Float" then do
        colon
        let x <- readNumberAs fun n => some n.toBinary64
        pure (.float x)
      else if tag = "String" then do
        colon
        let s <- readText
        pure (.text s)
      else if tag = "Bytes" then do
        colon
        let bs <- readOctets depth
        pure (.bytes bs)
      else if tag = "Array" then do
        colon
        match <- peek with
        | some '[' =>
            if depth = 0 then Scan.fail .malformed
            else do
              advance
              let items <- readItems fuel (depth - 1) true
              pure (.array items)
        | _ => wrongKind
      else if tag = "Map" then do
        colon
        match <- peek with
        | some '{' =>
            if depth = 0 then Scan.fail .malformed
            else do
              advance
              let members <- readMembers fuel (depth - 1) true
              pure (ofMembers members)
        | _ => wrongKind
      else Scan.fail .misshapen

def readItems : Nat -> Nat -> Bool -> Scan (List Value)
  | 0, _, _ => Scan.fail .malformed
  | fuel + 1, depth, first => do
      if <- nextItem first then do
        let v <- readValue fuel depth
        let vs <- readItems fuel depth false
        pure (v :: vs)
      else do
        closeList
        pure []

def readMembers : Nat -> Nat -> Bool -> Scan (List (String × Value))
  | 0, _, _ => Scan.fail .malformed
  | fuel + 1, depth, first => do
      if <- nextMember first then do
        let name <- restOfText
        colon
        let v <- readValue fuel depth
        let members <- readMembers fuel depth false
        pure ((name, v) :: members)
      else do
        closeObject
        pure []

end

def fromJson? (text : String) : Except Fault Value :=
  readWhole (do readValue (2 * (<- get).length + 2) depthLimit) text

end Value
end WriteLatch
