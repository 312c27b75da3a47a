import WriteLatch.Config.Basic
import WriteLatch.Json.Skip

/-!
# Settings as documents

Settings are read from an object in which every member may be absent, or from a
list of the four settings in order that may stop early.  A setting may be given
once.
-/

namespace WriteLatch

open Json

namespace Config

/-- The settings met so far. -/
structure Draft where
  slotHead : Option String := none
  lockSeconds : Option Nat := none
  maxBatchSize : Option (Option Nat) := none
  writeTimeout : Option (Option Nat) := none

namespace Draft

def finish (d : Draft) : Config :=
  let default : Config := {}
  { slotHead := d.slotHead.getD default.slotHead
    lockSeconds := d.lockSeconds.getD default.lockSeconds
    maxBatchSize := d.maxBatchSize.getD default.maxBatchSize
    writeTimeout := d.writeTimeout.getD default.writeTimeout }

end Draft

def readWord : Scan Nat :=
  readNumberAs Number.word?

def readMembers : Nat -> Bool -> Draft -> Scan Config
  | 0, _, _ => Scan.fail .malformed
  | fuel + 1, first, draft => do
      if <- nextMember first then do
        let name <- restOfText
        if name = "cache_key_prefix" then
          if draft.slotHead.isSome then Scan.fail .misshapen
          else do
            colon
            let head <- readText
            readMembers fuel false { draft with slotHead := some head }
        else if name = "lock_expiration_secs" then
          if draft.lockSeconds.isSome then Scan.fail .misshapen
          else do
            colon
            let seconds <- readWord
            readMembers fuel false { draft with lockSeconds := some seconds }
        else if name = "max_batch_size" then
          if draft.maxBatchSize.isSome then Scan.fail .misshapen
          else do
            colon
            let most <- readOptional readWord
            readMembers fuel false { draft with maxBatchSize := some most }
        else if name = "write_timeout_ms" then
          if draft.writeTimeout.isSome then Scan.fail .misshapen
          else do
            colon
            let timeout <- readOptional readWord
            readMembers fuel false { draft with writeTimeout := some timeout }
        else do
          colon
          skipValue
          readMembers fuel false draft
      else do
        closeObject
        pure draft.finish

def readListed : Scan Draft := do
  if <- nextItem true then do
    let head <- readText
    if <- nextItem false then do
      let seconds <- readWord
      if <- nextItem false then do
        let most <- readOptional readWord
        if <- nextItem false then do
          let timeout <- readOptional readWord
          pure ⟨some head, some seconds, some most, some timeout⟩
        else pure ⟨some head, some seconds, some most, none⟩
      else pure ⟨some head, some seconds, none, none⟩
    else pure ⟨some head, none, none, none⟩
  else pure {}

def readConfig : Scan Config := do
  match <- peek with
  | none => Scan.fail .truncated
  | some c =>
      if c = '{' then do
        advance
        readMembers ((<- get).length + 1) true {}
      else if c = '[' then do
        advance
        let draft <- readListed
        closeList
        pure draft.finish
      else wrongKind

inductive LoadFailure where
  | unreadable (fault : Fault)
  | refused (d : ConfigDefect)
  deriving DecidableEq, Repr

def fromJson? (text : String) : Except Fault Config :=
  readWhole readConfig text

/-- Settings that are read and found acceptable. -/
def load (text : String) : Except LoadFailure Config := do
  let c <- (fromJson? text).mapError .unreadable
  c.check.mapError .refused
  pure c

end Config
end WriteLatch
