import WriteLatch.Demo.Directive
import WriteLatch.Demo.Stop

/-!
# What of the log is shown

A log filter is a list of directives between commas; between two commas there may
also be nothing.  Without any directive errors are shown.  A filter with a
directive that is malformed counts as none.  Of the directives that are about an
event the most specific decides.
-/

namespace WriteLatch
namespace Demo

/-- What is shown when no filter is given, or one that cannot be read. -/
def usualVerbosity : Nat :=
  3

/-- What a filter without directives shows. -/
def emptyVerbosity : Nat :=
  1

/-! ## Filters -/

/-- The directives of a filter, read from the left up to the first fault. -/
def directives (filter : String) : Except DirectiveFault (List Directive) := do
  let texts := (filter.splitOn ",").filter fun text => !text.isEmpty
  let ds <- texts.mapM Directive.ofText
  pure (if ds.isEmpty then [{ verbosity := emptyVerbosity }] else ds)

/-- The directives in force. -/
def directivesOf (filter : Option String) : Except Stop (List Directive) :=
  match filter.map directives with
  | some (.ok ds) => .ok ds
  | some (.error .torn) => .error .crashed
  | some (.error .malformed) => .ok [{ verbosity := usualVerbosity }]
  | none => .ok [{ verbosity := usualVerbosity }]

/-- The directive that decides about an event, and what it lets through. -/
def verbosityFor (ds : List Directive) (source : String) (members : List String) : Nat :=
  let about := ds.filter fun d => d.aboutEvents && d.isAbout source members
  match about with
  | [] => 0
  | d :: rest =>
      (rest.foldl (fun best d => if best.givesWayTo d then d else best) d).verbosity

/-- Whether the summary of the demonstration is shown. The log is set up before
anything else, and the demonstration may end there. -/
def Options.showsSummary (options : Options) : Except Stop Bool := do
  let ds <- directivesOf options.logFilter
  pure
    (usualVerbosity <=
      verbosityFor ds "put_demo"
        ["message", "written", "store_calls", "batch_size", "locks_left", "elapsed_ms"])

end Demo
end WriteLatch
