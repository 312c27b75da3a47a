import WriteLatch.Demo.Options
import WriteLatch.Text.Blank
import WriteLatch.Text.Decimal
import WriteLatch.Text.Octets
import WriteLatch.Text.Pattern.Basic

/-!
# Directives of a log filter

A directive names a verbosity, or what it is about, or both with an equals sign
between them: the source of an event by the first characters of its name, in
brackets the span around it, and in braces a member it has to have, which may
have to have a certain value.  A source without a verbosity is shown in full.

Blanks around a directive are passed over, but where they come first its parts
are cut out too far to the left: places are counted without the blanks, and the
parts are cut out with them.
-/

namespace WriteLatch
namespace Demo

/-! ## Verbosities -/

/-- From nothing at all to everything. -/
def verbosities : List String :=
  ["off", "error", "warn", "info", "debug", "trace"]

/-- A verbosity by its name, upper case or lower, or by its place among them;
an empty text stands for errors. -/
def verbosity? (s : String) : Option Nat :=
  match word? s with
  | some n => if n < verbosities.length then some n else none
  | none =>
      if s.isEmpty then some 1 else verbosities.findIdx? (· == s.toLower)

def fullVerbosity : Nat :=
  5

/-! ## Directives -/

structure Directive where
  source : Option String := none
  span : Option String := none
  members : List String := []
  /-- Whether a member has to have a certain value. -/
  wantsValue : Bool := false
  verbosity : Nat := fullVerbosity
  deriving DecidableEq, Repr

/-- Why a directive cannot be read. -/
inductive DirectiveFault where
  | malformed
  /-- A part begins or ends inside a character. -/
  | torn
  deriving DecidableEq, Repr

namespace Directive

/-! ## Reading -/

/-- How far the reading of a directive has come, with the place where the part
that is being read has begun. -/
inductive Place where
  | start
  | name (since : Nat)
  | span (since : Nat)
  | member (since : Nat)
  | afterMembers
  | afterSpan
  | verbosity (since : Nat)
  deriving DecidableEq, Repr

def mayStart (c : Char) : Bool :=
  c = '-' || c = ':' || c = '_' || Text.isAlphanumeric c

/-- A number, or a pattern for the text of a value. -/
def isWantedValue (cs : List Char) : Bool :=
  Text.isDecimal cs || Text.isPattern cs

/-- Adds a member, with the value that stands between an equals sign and the
next. -/
def addMember (d : Directive) (text : List Char) : Except DirectiveFault Directive :=
  if text.isEmpty then .error .malformed
  else
    let d := { d with members := d.members ++ [String.ofList (text.takeWhile (· != '='))] }
    match text.dropWhile (· != '=') with
    | [] => .ok d
    | _ :: rest =>
        if isWantedValue (rest.takeWhile (· != '=')) then .ok { d with wantsValue := true }
        else .error .malformed

def withVerbosity (d : Directive) (text : String) : Except DirectiveFault Directive :=
  if text.isEmpty then .ok d
  else
    match verbosity? text with
    | some v => .ok { d with verbosity := v }
    | none => .error .malformed

/-- The part of a whole text between two places. -/
def part (whole : List Char) (start stop : Nat) : Except DirectiveFault (List Char) :=
  match Text.cut? start stop whole with
  | some cs => .ok cs
  | none => .error .torn

/-- One character further. -/
def step (whole : List Char) (at_ : Place × Directive) (c : Char × Nat) :
    Except DirectiveFault (Place × Directive) :=
  let (place, d) := at_
  let (c, i) := c
  match place with
  | .start =>
      if c = '[' then .ok (.span (i + 1), d)
      else if mayStart c then .ok (.name i, d)
      else .error .malformed
  | .name since =>
      if c = '=' || c = '[' then do
        let d := { d with source := some (String.ofList (<- part whole since i)) }
        pure (if c = '=' then .verbosity (i + 1) else .span (i + 1), d)
      else .ok (place, d)
  | .span since =>
      if c = ']' then do
        pure (.afterSpan, { d with span := some (String.ofList (<- part whole since i)) })
      else if c = '{' then do
        let span <- part whole since i
        let d := { d with span := if span.isEmpty then none else some (String.ofList span) }
        pure (.member (i + 1), d)
      else .ok (place, d)
  | .member since =>
      if c = '}' then do
        pure (.afterMembers, <- d.addMember (<- part whole since i))
      else .ok (place, d)
  | .afterMembers => if c = ']' then .ok (.afterSpan, d) else .error .malformed
  | .afterSpan => if c = '=' then .ok (.verbosity (i + 1), d) else .error .malformed
  | .verbosity _ => .ok (place, d)

/-- A name alone is a verbosity if it can be. -/
def finish (whole : List Char) : Place × Directive -> Except DirectiveFault Directive
  | (.name since, d) => do
      let text := String.ofList (<- part whole since (Text.octetCount whole))
      match verbosity? text with
      | some v => pure { d with verbosity := v }
      | none => pure { d with source := some text }
  | (.verbosity since, d) => do
      d.withVerbosity (String.ofList (<- part whole since (Text.octetCount whole)))
  | (.afterSpan, d) => .ok d
  | _ => .error .malformed

def ofText (s : String) : Except DirectiveFault Directive := do
  let whole := s.toList
  finish whole (<- (Text.withPlaces 0 (Text.trimmed whole)).foldlM (step whole) (.start, {}))

/-! ## What a directive is about -/

/-- About a span, or about a member with a certain value, a directive says
nothing of events outside all spans. -/
def aboutEvents (d : Directive) : Bool :=
  d.span.isNone && !d.wantsValue

def isAbout (d : Directive) (source : String) (members : List String) : Bool :=
  (d.source.all fun s => s.isPrefixOf source) && d.members.all fun m => members.contains m

def sourceSize (d : Directive) : Nat :=
  match d.source with
  | some s => s.utf8ByteSize + 1
  | none => 0

/-- Whether a directive gives way to a later one that is about the same event. -/
def givesWayTo (d e : Directive) : Bool :=
  if d.sourceSize ≠ e.sourceSize then d.sourceSize < e.sourceSize
  else if d.members.length ≠ e.members.length then d.members.length < e.members.length
  else !(decide (e.members < d.members))

end Directive
end Demo
end WriteLatch
