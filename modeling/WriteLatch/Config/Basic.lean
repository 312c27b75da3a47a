import WriteLatch.Lock

/-!
# Client settings

Every setting has a default.  Settings are refused when they would allow no key
in a call or give slots no head.
-/

namespace WriteLatch

structure Config where
  slotHead : String := "CL1:"
  lockSeconds : Nat := 32
  /-- Lowers the number of keys per call below what the store takes. -/
  maxBatchSize : Option Nat := none
  /-- The time allowed for a write. -/
  writeTimeout : Option Millis := none
  deriving DecidableEq, Repr

inductive ConfigDefect where
  | zeroBatchSize
  | emptySlotHead
  deriving DecidableEq, Repr

namespace ConfigDefect

def message : ConfigDefect -> String
  | .zeroBatchSize => "max_batch_size must be positive"
  | .emptySlotHead => "cache_key_prefix must not be empty"

end ConfigDefect

namespace Config

def check (c : Config) : Except ConfigDefect Unit :=
  if c.maxBatchSize = some 0 then .error .zeroBatchSize
  else if c.slotHead.isEmpty then .error .emptySlotHead
  else .ok ()

def lockScheme (c : Config) : LockScheme :=
  ⟨c.slotHead, c.lockSeconds * 1000⟩

/-- The number of keys per call to a store with the given limit; at least one. -/
def batchSize (c : Config) (storeLimit : Nat) : Nat :=
  max 1 (match c.maxBatchSize with
    | some most => min most storeLimit
    | none => storeLimit)

theorem batchSize_pos (c : Config) (storeLimit : Nat) : 0 < c.batchSize storeLimit := by
  unfold batchSize
  omega

end Config
end WriteLatch
