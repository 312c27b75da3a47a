import WriteLatch.Key.Basic
import WriteLatch.Text.Base64
import WriteLatch.Text.Quoted

/-!
# Keys as text

A key is displayed as its path from the root, every element with its quoted
kind and its identity, after the quoted space of the key itself.  Its encoding
is the display in URL-safe base 64.
-/

namespace WriteLatch

namespace Identity

def chars : Identity -> List Char
  | .incomplete => ['?']
  | .named name => Text.quotedChars name.toList
  | .numbered n => (toString n.toInt).toList

end Identity

namespace KeyElement

def chars (e : KeyElement) : List Char :=
  Text.quotedChars e.kind.toList ++ ',' :: e.identity.chars

end KeyElement

namespace Key

/-- An empty space is not shown. -/
def spaceChars (space : String) : List Char :=
  if space.isEmpty then [] else Text.quotedChars space.toList ++ [':']

/-- The elements, given from the leaf upwards, from the root down. -/
def pathChars : List KeyElement -> List Char
  | [] => []
  | [e] => e.chars
  | e :: rest => pathChars rest ++ '/' :: e.chars

def chars (k : Key) : List Char :=
  spaceChars k.space ++ pathChars k.elements

def display (k : Key) : String :=
  String.ofList k.chars

def encode (k : Key) : String :=
  Text.base64 k.display

theorem toList_display (k : Key) : k.display.toList = k.chars := by
  simp [display]

theorem pathChars_cons_cons (e parent : KeyElement) (rest : List KeyElement) :
    pathChars (e :: parent :: rest) = pathChars (parent :: rest) ++ '/' :: e.chars := rfl

end Key
end WriteLatch
