/-!
# Ends of the demonstration

How the demonstration ends when it has nothing to sum up, with the status of the
process.
-/

namespace WriteLatch
namespace Demo

/-- Why there are no settings to read under a path. -/
inductive FileFault where
  | missing
  | directory
  | notDirectory
  | nameTooLong
  | notText
  deriving DecidableEq, Repr

def FileFault.message : FileFault -> String
  | .missing => "No such file or directory (os error 2)"
  | .directory => "Is a directory (os error 21)"
  | .notDirectory => "Not a directory (os error 20)"
  | .nameTooLong => "File name too long (os error 36)"
  | .notText => "stream did not contain valid UTF-8"

/-- How the demonstration ends without a summary. -/
inductive Stop where
  | failed (message : String)
  /-- A text was to be cut inside a character, or more memory was asked for than
  there are addresses. -/
  | crashed
  /-- Memory has run out. -/
  | killed
  deriving DecidableEq, Repr

namespace Stop

/-- Being killed counts as the signal for an abort. -/
def status : Stop -> Nat
  | .failed _ => 1
  | .crashed => 101
  | .killed => 134

end Stop

end Demo
end WriteLatch
