/-!
# Hexadecimal digits

Digits with a value from zero to fifteen, in upper or lower case.
-/

namespace WriteLatch
namespace Text

def hexValue? (c : Char) : Option Nat :=
  if '0' <= c && c <= '9' then some (c.toNat - '0'.toNat)
  else if 'a' <= c && c <= 'f' then some (c.toNat - 'a'.toNat + 10)
  else if 'A' <= c && c <= 'F' then some (c.toNat - 'A'.toNat + 10)
  else none

end Text
end WriteLatch
