/-!
# Places in octets

A text in UTF-8 is cut at places that are counted in octets.  A place inside a
character is no place to cut at.  What stands between two texts is cut out by the
octets that come before it and its own.
-/

namespace WriteLatch
namespace Text

def octetCount (cs : List Char) : Nat :=
  (cs.map Char.utf8Size).foldr (· + ·) 0

/-- Characters with the places at which they begin. -/
def withPlaces (place : Nat) : List Char -> List (Char × Nat)
  | [] => []
  | c :: cs => (c, place) :: withPlaces (place + c.utf8Size) cs

/-- The first so many octets. -/
def takeOctets? : Nat -> List Char -> Option (List Char)
  | 0, _ => some []
  | _ + 1, [] => none
  | n + 1, c :: cs =>
      if c.utf8Size <= n + 1 then (takeOctets? (n + 1 - c.utf8Size) cs).map (c :: ·) else none

/-- What comes behind the first so many octets. -/
def dropOctets? : Nat -> List Char -> Option (List Char)
  | 0, cs => some cs
  | _ + 1, [] => none
  | n + 1, c :: cs =>
      if c.utf8Size <= n + 1 then dropOctets? (n + 1 - c.utf8Size) cs else none

/-- What stands between two places. -/
def cut? (start stop : Nat) (cs : List Char) : Option (List Char) :=
  (dropOctets? start cs).bind (takeOctets? (stop - start))

end Text
end WriteLatch
