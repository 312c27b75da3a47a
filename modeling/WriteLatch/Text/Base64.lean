/-!
# URL-safe base 64

Octets as letters, digits, the hyphen and the underscore, three octets to four
characters.  A last group of one or two octets gives two or three characters
and no padding.
-/

namespace WriteLatch
namespace Text

def base64Digit (n : Nat) : Char :=
  if n < 26 then Char.ofNat (65 + n)
  else if n < 52 then Char.ofNat (71 + n)
  else if n < 62 then Char.ofNat (n - 4)
  else if n = 62 then '-'
  else '_'

def base64Chars : List UInt8 -> List Char
  | [] => []
  | [a] =>
      [base64Digit (a.toNat / 4), base64Digit (a.toNat % 4 * 16)]
  | [a, b] =>
      [base64Digit (a.toNat / 4),
        base64Digit (a.toNat % 4 * 16 + b.toNat / 16),
        base64Digit (b.toNat % 16 * 4)]
  | a :: b :: c :: rest =>
      base64Digit (a.toNat / 4) ::
        base64Digit (a.toNat % 4 * 16 + b.toNat / 16) ::
          base64Digit (b.toNat % 16 * 4 + c.toNat / 64) ::
            base64Digit (c.toNat % 64) :: base64Chars rest

/-- The octets of a text are its UTF-8 form. -/
def octets (s : String) : List UInt8 :=
  s.toUTF8.data.toList

def base64 (s : String) : String :=
  String.ofList (base64Chars (octets s))

/-! ## Shape of the result -/

theorem base64Chars_length (bs : List UInt8) :
    (base64Chars bs).length = (4 * bs.length + 2) / 3 := by
  fun_induction base64Chars bs with
  | case1 => rfl
  | case2 a => simp
  | case3 a b => simp
  | case4 a b c rest ih =>
      simp [ih]
      omega

theorem toList_base64 (s : String) : (base64 s).toList = base64Chars (octets s) := by
  simp [base64]

end Text
end WriteLatch
