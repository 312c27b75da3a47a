import WriteLatch.Demo.LogFilter
import WriteLatch.Demo.Write
import WriteLatch.Json.Printer

/-!
# Command line

Reads the options and the settings, writes, and shows the summary unless the log
filter keeps it back.  Bad usage ends with status 2 and a failed write with
status 1.
-/

namespace WriteLatch
namespace Demo

def usage : String :=
  "Usage: put-demo [--entities N] [--store-limit N] [--config PATH] [--json-logs]"

def UsageFault.text : UsageFault -> String
  | .unexpected arg => "error: unexpected argument " ++ Text.quoted arg
  | .repeated option => "error: " ++ option ++ " cannot be used multiple times"
  | .missingValue option => "error: a value is required for " ++ option
  | .badValue option value => "error: invalid value " ++ Text.quoted value ++ " for " ++ option
  | .helpWanted => "Batched lock-aware write over in-memory backends"

def Summary.jsonChars (s : Summary) : List Char :=
  let count (name : String) (n : Nat) := Json.memberChars name (Json.natChars n)
  Json.objectChars
    [Json.memberChars "message" (Json.textChars "demo write complete"),
      count "written" s.written, count "store_calls" s.storeCalls,
      count "batch_size" s.batchSize, count "locks_left" s.locksLeft]

def Summary.line (s : Summary) : String :=
  s!"demo write complete written={s.written} store_calls={s.storeCalls} " ++
    s!"batch_size={s.batchSize} locks_left={s.locksLeft}"

def environment : IO (List (String × String)) := do
  let mut found := []
  for name in [Name.entities.envName, Name.storeLimit.envName, Name.config.envName,
      jsonLogsEnvName, logFilterEnvName] do
    if let some value <- IO.getEnv name then
      found := found ++ [(name, value)]
  pure found

def faultMessage : IO.Error -> String
  | .noFileOrDirectory .. => FileFault.missing.message
  | .inappropriateType _ 20 _ => FileFault.notDirectory.message
  | .inappropriateType .. => FileFault.directory.message
  | .userError _ => FileFault.notText.message
  | e => if e.toString.endsWith "36)" then FileFault.nameTooLong.message else e.toString

def readSettings (path : String) : IO (Except Stop String) := do
  try
    pure (.ok (<- IO.FS.readFile path))
  catch e => pure (.error (.failed (faultMessage e)))

def Summary.shown (s : Summary) (options : Options) : String :=
  if options.jsonLogs then String.ofList s.jsonChars else s.line

/-- Writes, and gives the line to be shown if there is one. -/
def run (options : Options) : IO (Except Stop (Option String)) := do
  match options.showsSummary with
  | .error stop => pure (.error stop)
  | .ok isShown =>
      let settings <- match options.configPath with
        | none => pure (.ok none)
        | some path => do pure ((<- readSettings path).map some)
      let summary := settings.bind (write options)
      pure (summary.map fun s => if isShown then some (s.shown options) else none)

end Demo
end WriteLatch

open WriteLatch in
def main (args : List String) : IO UInt32 := do
  match Demo.Options.parse args (<- Demo.environment) with
  | .error .helpWanted =>
      IO.println (Demo.UsageFault.text .helpWanted)
      IO.println Demo.usage
      pure 0
  | .error fault =>
      IO.eprintln fault.text
      IO.eprintln Demo.usage
      pure 2
  | .ok options =>
      match <- Demo.run options with
      | .ok (some line) =>
          IO.println line
          pure 0
      | .ok none => pure 0
      | .error stop =>
          if let .failed message := stop then IO.eprintln s!"Error: {message}"
          pure stop.status.toUInt32
