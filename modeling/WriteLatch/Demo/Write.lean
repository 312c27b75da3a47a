import WriteLatch.Config.Json
import WriteLatch.Demo.Options
import WriteLatch.Demo.Stop
import WriteLatch.Simulation.Session

/-!
# The demonstration

Generated entities are written in one request through a client over an empty
store and an empty cache, and what the write took is summed up.  Settings are
read before anything else.
-/

namespace WriteLatch
namespace Demo

structure Summary where
  written : Nat
  storeCalls : Nat
  batchSize : Nat
  locksLeft : Nat
  deriving DecidableEq, Repr

/-- What becomes of a request for so many entities before any is made: their
keys, of eighty octets each, need room. -/
def roomFault? (entities : Nat) : Option Stop :=
  if !Span.hasRoom entities 80 then some .crashed
  else if Nat.pow 2 26 < entities then some .killed
  else none

def label (i : Nat) : String :=
  s!"entity-{i}"

def key (i : Nat) : Key :=
  Key.named "DemoEntity" (label i)

def value (i : Nat) : Value :=
  Value.ofMembers [("seq", .int (Int64.ofNat i)), ("label", .text (label i))]

def configOf (text : Option String) : Except String Config :=
  match text with
  | none => .ok {}
  | some text =>
      match Config.load text with
      | .ok c => .ok c
      | .error (.unreadable _) => .error "invalid config document"
      | .error (.refused d) => .error d.message

/-- A session over an empty store, or what is wrong with the settings. -/
def sessionOf (options : Options) (configText : Option String) :
    Except String Simulation.Session := do
  let config <- configOf configText
  let store : Store := { limit := options.storeLimit }
  (Simulation.Session.create config store store.limit .traced).mapError ConfigDefect.message

/-- The summary of the write, or how it ended without one. -/
def write (options : Options) (configText : Option String) : Except Stop Summary := do
  let session <- (sessionOf options configText).mapError .failed
  match roomFault? options.entities with
  | some stop => throw stop
  | none => pure ()
  let indices := List.range options.entities
  let request : Simulation.Step :=
    .writeMany Simulation.Session.rootName (indices.map key) (indices.map value) none
  let (session, page) := session.step request
  match page.outcome with
  | .written (.ok keys) =>
      pure
        { written := keys.length
          storeCalls := session.scene.store.callSizes.length
          batchSize := session.client.batchSize
          locksLeft := page.cached }
  | .written (.error f) => throw (.failed f.message)
  | _ => throw (.failed "the write did not end")

end Demo
end WriteLatch
