import WriteLatch.Text.Blank

/-!
# Modes of reading a pattern

Letters switch modes on, and behind a hyphen off.  At first upper and lower case
are told apart, characters are those of Unicode, and blanks stand for themselves.
Where they do not, a number sign begins a comment, which goes on to the end of
the line and counts as a blank.
-/

namespace WriteLatch
namespace Text
namespace Pattern

structure Mode where
  ignoresCase : Bool := false
  unicode : Bool := true
  skipsBlanks : Bool := false
  deriving DecidableEq, Repr

/-! ## Switching -/

/-- The letters that switch a mode. Four of them are for lines, for the dot and
for greed, and do not matter to what is a pattern. -/
def switchLetters : List Char :=
  ['i', 'u', 'x', 'm', 's', 'U', 'R']

/-- Every letter stands once and so does the hyphen, which is not the last. -/
def areSwitches (cs : List Char) : Bool :=
  cs.all (fun c => c = '-' || switchLetters.contains c) && cs.getLast? != some '-' &&
    decide cs.Nodup

/-- How a letter leaves its mode, which was as given before. -/
def switched (cs : List Char) (letter : Char) (before : Bool) : Bool :=
  if cs.contains letter then (cs.takeWhile (· != '-')).contains letter else before

def Mode.switch (mode : Mode) (cs : List Char) : Mode where
  ignoresCase := switched cs 'i' mode.ignoresCase
  unicode := switched cs 'u' mode.unicode
  skipsBlanks := switched cs 'x' mode.skipsBlanks

/-! ## Skipping -/

def afterBlanks (inComment : Bool) : List Char -> List Char
  | [] => []
  | c :: cs =>
      if inComment then afterBlanks (c != '\n') cs
      else if isBlank c then afterBlanks false cs
      else if c = '#' then afterBlanks true cs
      else c :: cs

/-- What comes behind the blanks that are skipped. -/
def Mode.skip (mode : Mode) (cs : List Char) : List Char :=
  if mode.skipsBlanks then afterBlanks false cs else cs

/-- The character that comes next. Of a comment only the number sign is
skipped. -/
def Mode.next? (mode : Mode) (cs : List Char) : Option Char :=
  if mode.skipsBlanks then
    match cs.dropWhile isBlank with
    | '#' :: rest => (rest.dropWhile isBlank).head?
    | rest => rest.head?
  else cs.head?

end Pattern
end Text
end WriteLatch
