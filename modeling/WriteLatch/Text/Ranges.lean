/-!
# Ranges of code points

A property of characters is written down as a list of inclusive ranges of code
points in ascending order.
-/

namespace WriteLatch
namespace Text

def inRanges (ranges : List (Nat × Nat)) (code : Nat) : Bool :=
  ranges.any fun range => range.1 <= code && code <= range.2

end Text
end WriteLatch
