import WriteLatch.Clock
import WriteLatch.Key.Text

/-!
# Locks in the cache

While a key is being written, its slot in the cache holds a lock instead of an
entity.  A reader that meets a lock leaves the cache aside.  The slot of a key
is its encoding behind a common head, and readers cache entities under the same
slot.
-/

namespace WriteLatch

structure CacheItem where
  slot : String
  payload : List UInt8
  flags : UInt32
  /-- An item with lifetime zero does not expire. -/
  lifetime : Millis
  deriving DecidableEq, Repr

namespace CacheItem

/-- The flag bit of locks. -/
def lockFlag : UInt32 :=
  1

def isLock (item : CacheItem) : Bool :=
  item.flags &&& lockFlag != 0

end CacheItem

/-- How the slots of keys are named, and how long a lock outlives a writer that
does not come back. -/
structure LockScheme where
  slotHead : String := "CL1:"
  lifetime : Millis := 32000
  deriving DecidableEq, Repr

namespace LockScheme

def slot (scheme : LockScheme) (k : Key) : String :=
  scheme.slotHead ++ k.encode

/-- The payload of a lock is four octets that nobody reads. -/
def lockPayload : List UInt8 :=
  [0, 0, 0, 0]

def lockItem (scheme : LockScheme) (k : Key) : CacheItem :=
  ⟨scheme.slot k, lockPayload, CacheItem.lockFlag, scheme.lifetime⟩

/-- Nothing can be cached for a key that is not complete, so it needs no
lock. -/
def lockItems (scheme : LockScheme) (keys : List Key) : List CacheItem :=
  (keys.filter Key.isComplete).map scheme.lockItem

def lockSlots (scheme : LockScheme) (keys : List Key) : List String :=
  (keys.filter Key.isComplete).map scheme.slot

theorem isLock_lockItem (scheme : LockScheme) (k : Key) :
    (scheme.lockItem k).isLock = true := by
  simp [lockItem, CacheItem.isLock, CacheItem.lockFlag]

theorem map_slot_lockItems (scheme : LockScheme) (keys : List Key) :
    (scheme.lockItems keys).map CacheItem.slot = scheme.lockSlots keys := by
  simp [lockItems, lockSlots, lockItem]

end LockScheme
end WriteLatch
