import WriteLatch.Text.GraphemeExtend
import WriteLatch.Text.Ranges
import WriteLatch.Text.Unprintable

/-!
# Quoted text

A text in double quotes in which every character is visible.  The quote, the
backslash and four controls have two-character escapes; a mark that would
attach itself to its neighbour, a letter that only fills a place, and a
character without a printed form stand as their code point in lower-case
hexadecimal between braces.  Everything else,
the apostrophe included, stands for itself.
-/

namespace WriteLatch
namespace Text

/-- The letters of Hangul that stand for a missing one and show nothing. -/
def fillerRanges : List (Nat × Nat) :=
  [(0x115f, 0x1160), (0x3164, 0x3164), (0xffa0, 0xffa0)]

/-- Printable ASCII is decided without looking into the tables. -/
def needsCodePoint (c : Char) : Bool :=
  if 0x20 <= c.toNat && c.toNat < 0x7f then
    false
  else
    inRanges graphemeExtendRanges c.toNat || inRanges fillerRanges c.toNat ||
      inRanges unprintableRanges c.toNat

def codePointEscape (c : Char) : List Char :=
  ['\\', 'u', '{'] ++ Nat.toDigits 16 c.toNat ++ ['}']

def quotedChar (c : Char) : List Char :=
  if c = '"' then ['\\', '"']
  else if c = '\\' then ['\\', '\\']
  else if c = '\n' then ['\\', 'n']
  else if c = '\r' then ['\\', 'r']
  else if c = '\t' then ['\\', 't']
  else if c = '\x00' then ['\\', '0']
  else if needsCodePoint c then codePointEscape c
  else [c]

def quotedChars (cs : List Char) : List Char :=
  '"' :: (cs.flatMap quotedChar ++ ['"'])

def quoted (s : String) : String :=
  String.ofList (quotedChars s.toList)

end Text
end WriteLatch
