/-!
# Numbers in decimal

A sign if any, then a point with digits on at least one side of it, or digits
alone, then an exponent if any.  What is infinite or no number has a name, in
upper or lower case.
-/

namespace WriteLatch
namespace Text

def isSign (c : Char) : Bool :=
  c = '+' || c = '-'

def afterSign (cs : List Char) : List Char :=
  match cs with
  | c :: rest => if isSign c then rest else cs
  | [] => []

def isDigits (cs : List Char) : Bool :=
  !cs.isEmpty && cs.all Char.isDigit

/-- Nothing, or an exponent. -/
def isExponent (cs : List Char) : Bool :=
  match cs with
  | [] => true
  | c :: rest => (c = 'e' || c = 'E') && isDigits (afterSign rest)

def isUnsignedDecimal (cs : List Char) : Bool :=
  let whole := cs.takeWhile Char.isDigit
  match cs.dropWhile Char.isDigit with
  | '.' :: rest =>
      !(whole.isEmpty && (rest.takeWhile Char.isDigit).isEmpty) &&
        isExponent (rest.dropWhile Char.isDigit)
  | rest => !whole.isEmpty && isExponent rest

def numberNames : List String :=
  ["inf", "infinity", "nan"]

def isDecimal (cs : List Char) : Bool :=
  isUnsignedDecimal (afterSign cs) ||
    numberNames.contains (String.ofList ((afterSign cs).map Char.toLower))

end Text
end WriteLatch
