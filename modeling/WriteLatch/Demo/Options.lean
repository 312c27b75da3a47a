/-!
# Options of the demonstration

Options are given once each, with a value behind them or behind an equals sign;
what is not given comes from the environment, and else from the defaults.
Anything else on the command line is bad usage.
-/

namespace WriteLatch
namespace Demo

structure Options where
  entities : Nat := 1200
  storeLimit : Nat := 500
  configPath : Option String := none
  jsonLogs : Bool := false
  /-- What of the log is shown, if anything is said about it. -/
  logFilter : Option String := none
  deriving DecidableEq, Repr

inductive UsageFault where
  | unexpected (arg : String)
  | repeated (option : String)
  | missingValue (option : String)
  | badValue (option value : String)
  | helpWanted
  deriving DecidableEq, Repr

/-- The options met so far, as they were written. -/
structure Given where
  entities : Option Nat := none
  storeLimit : Option Nat := none
  configPath : Option String := none
  jsonLogs : Bool := false

/-- A machine word in decimal, a plus sign allowed. -/
def word? (s : String) : Option Nat :=
  let ds := match s.toList with
    | '+' :: rest => rest
    | cs => cs
  if ds.isEmpty || !ds.all Char.isDigit then none
  else
    let n := ds.foldl (fun n c => 10 * n + (c.toNat - '0'.toNat)) 0
    if n < Nat.pow 2 64 then some n else none

inductive Name where
  | entities
  | storeLimit
  | config
  deriving DecidableEq, Repr

namespace Name

def text : Name -> String
  | .entities => "--entities"
  | .storeLimit => "--store-limit"
  | .config => "--config"

def envName : Name -> String
  | .entities => "CACHELOCK_ENTITIES"
  | .storeLimit => "CACHELOCK_STORE_LIMIT"
  | .config => "CACHELOCK_CONFIG"

def ofText? (s : String) : Option Name :=
  [Name.entities, .storeLimit, .config].find? fun name => name.text == s

end Name

namespace Given

def has (given : Given) : Name -> Bool
  | .entities => given.entities.isSome
  | .storeLimit => given.storeLimit.isSome
  | .config => given.configPath.isSome

def set (given : Given) (name : Name) (value : String) : Except UsageFault Given :=
  match name with
  | .entities =>
      match word? value with
      | some n => .ok { given with entities := some n }
      | none => .error (.badValue name.text value)
  | .storeLimit =>
      match word? value with
      | some n => .ok { given with storeLimit := some n }
      | none => .error (.badValue name.text value)
  | .config =>
      if value.isEmpty then .error (.badValue name.text value)
      else .ok { given with configPath := some value }

def setOnce (given : Given) (name : Name) (value : String) : Except UsageFault Given :=
  if given.has name then .error (.repeated name.text) else given.set name value

end Given

/-- An option's name and the value behind an equals sign. -/
def splitOption (arg : String) : String × Option String :=
  let cs := arg.toList
  match cs.dropWhile (· != '=') with
  | [] => (arg, none)
  | _ :: value => (String.ofList (cs.takeWhile (· != '=')), some (String.ofList value))

/-- A single hyphen is a value. -/
def looksLikeOption (arg : String) : Bool :=
  arg.startsWith "-" && arg != "-"

def jsonLogsName : String :=
  "--json-logs"

def parseArgs (given : Given) : List String -> Except UsageFault Given
  | [] => .ok given
  | ["--"] => .ok given
  | "--" :: arg :: _ => .error (.unexpected arg)
  | arg :: rest =>
      let (name, value) := splitOption arg
      match Name.ofText? name, value with
      | some name, some value => do parseArgs (<- given.setOnce name value) rest
      | some name, none =>
          match rest with
          | [] => .error (.missingValue name.text)
          | value :: rest =>
              if looksLikeOption value then .error (.missingValue name.text)
              else do parseArgs (<- given.setOnce name value) rest
      | none, _ =>
          if arg = jsonLogsName then
            if given.jsonLogs then .error (.repeated arg)
            else parseArgs { given with jsonLogs := true } rest
          else if arg = "--help" || arg.startsWith "-h" then .error .helpWanted
          else .error (.unexpected arg)

/-- Takes from the environment what the command line does not give. -/
def fillIn (given : Given) (env : List (String × String)) (name : Name) :
    Except UsageFault Given :=
  if given.has name then .ok given
  else
    match env.lookup name.envName with
    | some value => given.set name value
    | none => .ok given

def jsonLogsEnvName : String :=
  "CACHELOCK_JSON_LOGS"

def logFilterEnvName : String :=
  "RUST_LOG"

/-- Takes from the environment whether logs are written as JSON, if the command
line does not ask for it. -/
def fillInJsonLogs (given : Given) (env : List (String × String)) : Except UsageFault Given :=
  if given.jsonLogs then .ok given
  else
    match env.lookup jsonLogsEnvName with
    | some "true" => .ok { given with jsonLogs := true }
    | some "false" => .ok given
    | some value => .error (.badValue jsonLogsName value)
    | none => .ok given

def Options.parse (args : List String) (env : List (String × String)) :
    Except UsageFault Options := do
  let given <- parseArgs {} args
  let given <- fillIn given env .entities
  let given <- fillIn given env .storeLimit
  let given <- fillIn given env .config
  let given <- fillInJsonLogs given env
  let default : Options := {}
  pure
    { entities := given.entities.getD default.entities
      storeLimit := given.storeLimit.getD default.storeLimit
      configPath := given.configPath
      jsonLogs := given.jsonLogs
      logFilter := env.lookup logFilterEnvName }

end Demo
end WriteLatch
