import WriteLatch.Json.Numeral
import WriteLatch.Json.Text

/-!
# Blanks, punctuation and scalars

The pieces from which the readers of documents are put together.  Where a
container goes on, what may stand there depends on whether an item stood there
before; a comma has to be followed by one more.  A scalar of the wrong kind is
read to its end first, so that a text broken inside it is found broken and not
misshapen.
-/

namespace WriteLatch
namespace Json

def isBlank (c : Char) : Bool :=
  c = ' ' || c = '\n' || c = '\t' || c = '\r'

/-- The first character that is not blank, left where it is. -/
def peek : Scan (Option Char) :=
  Scan.onRest fun s =>
    let rest := s.dropWhile isBlank
    .ok (rest.head?, rest)

def advance : Scan Unit :=
  modify (List.drop 1)

/-- The given characters, one after the other. -/
def word (cs : List Char) : Scan Unit :=
  Scan.onRest fun s => go cs s
where
  go : List Char -> List Char -> Except Fault (Unit × List Char)
    | [], s => .ok ((), s)
    | _ :: _, [] => .error .truncated
    | c :: cs, d :: s => if c = d then go cs s else .error .malformed

/-! ## Containers -/

/-- Whether a list has one more item; its end is left unread. -/
def nextItem (first : Bool) : Scan Bool := do
  match <- peek with
  | none => Scan.fail .truncated
  | some c =>
      if c = ']' then pure false
      else if first then pure true
      else if c = ',' then do
        advance
        match <- peek with
        | none => Scan.fail .truncated
        | some c => if c = ']' then Scan.fail .malformed else pure true
      else Scan.fail .malformed

/-- Whether an object has one more member, whose opening quote is consumed; the
end of the object is left unread. -/
def nextMember (first : Bool) : Scan Bool := do
  match <- peek with
  | none => Scan.fail .truncated
  | some c =>
      if c = '}' then pure false
      else if first then
        if c = '"' then do advance; pure true
        else Scan.fail .malformed
      else if c = ',' then do
        advance
        match <- peek with
        | none => Scan.fail .truncated
        | some c =>
            if c = '"' then do advance; pure true
            else Scan.fail .malformed
      else Scan.fail .malformed

/-- One character of punctuation. -/
def punctuation (mark : Char) : Scan Unit := do
  match <- peek with
  | none => Scan.fail .truncated
  | some c => if c = mark then advance else Scan.fail .malformed

def colon : Scan Unit :=
  punctuation ':'

def closeObject : Scan Unit :=
  punctuation '}'

/-- The name of the one member of a tagged document; anything but a string is
not JSON in its place. -/
def readTag : Scan String := do
  punctuation '"'
  restOfText

/-- The end of a list that may hold no further item: a comma here is not JSON,
whatever follows it. -/
def closeList : Scan Unit :=
  punctuation ']'

/-- One more item of a list that has to have it. -/
def expectItem (first : Bool) : Scan Unit := do
  if <- nextItem first then pure () else Scan.fail .misshapen

/-! ## Scalars -/

def wrongKind {α : Type} : Scan α := do
  match <- peek with
  | none => Scan.fail .truncated
  | some c =>
      if c = 'n' then do advance; word ['u', 'l', 'l']; Scan.fail .misshapen
      else if c = 't' then do advance; word ['r', 'u', 'e']; Scan.fail .misshapen
      else if c = 'f' then do advance; word ['a', 'l', 's', 'e']; Scan.fail .misshapen
      else if c = '-' || isDigit c then do let _ <- readNumber; Scan.fail .misshapen
      else if c = '"' then do advance; let _ <- restOfText; Scan.fail .misshapen
      else if c = '[' || c = '{' then Scan.fail .misshapen
      else Scan.fail .malformed

def readText : Scan String := do
  match <- peek with
  | none => Scan.fail .truncated
  | some c => if c = '"' then do advance; restOfText else wrongKind

/-- A number that the given function accepts. -/
def readNumberAs {α : Type} (accept : Number -> Option α) : Scan α := do
  match <- peek with
  | none => Scan.fail .truncated
  | some c =>
      if c = '-' || isDigit c then do
        match accept (<- readNumber) with
        | some a => pure a
        | none => Scan.fail .misshapen
      else wrongKind

def readBool : Scan Bool := do
  match <- peek with
  | none => Scan.fail .truncated
  | some c =>
      if c = 't' then do advance; word ['r', 'u', 'e']; pure true
      else if c = 'f' then do advance; word ['a', 'l', 's', 'e']; pure false
      else wrongKind

def readNull : Scan Unit := do
  match <- peek with
  | none => Scan.fail .truncated
  | some c => if c = 'n' then do advance; word ['u', 'l', 'l'] else wrongKind

/-- A null, or else what the given reader reads. -/
def readOptional {α : Type} (read : Scan α) : Scan (Option α) := do
  if (<- peek) = some 'n' then do
    advance
    word ['u', 'l', 'l']
    pure none
  else do
    let a <- read
    pure (some a)

/-! ## Whole documents -/

/-- The whole text, blanks around the document allowed. -/
def readWhole {α : Type} (read : Scan α) (text : String) : Except Fault α := do
  let (a, rest) <- read.run text.toList
  if (rest.dropWhile isBlank).isEmpty then pure a else throw .malformed

end Json
end WriteLatch
