import WriteLatch.Association
import WriteLatch.Lock

/-!
# The cache in memory

Slots hold items, each until its expiry if it has one.  An expired item is
invisible to readers and dropped when one comes across it; until then it counts
towards the size.  An expiry past the last instant of the clock cannot be
represented, and storing such an item fails.
-/

namespace WriteLatch

structure CacheEntry where
  item : CacheItem
  expiry : Option Millis
  deriving DecidableEq, Repr

namespace CacheEntry

def isLive (e : CacheEntry) (now : Millis) : Bool :=
  match e.expiry with
  | some t => now < t
  | none => true

end CacheEntry

structure Cache where
  entries : Association String CacheEntry := []
  deriving DecidableEq, Repr

namespace Cache

/-- The end of the clock: seconds are counted with sixty-three bits. -/
def clockEnd : Millis :=
  Nat.pow 2 63 * 1000

def overflowMessage : String :=
  "overflow when adding duration to instant"

def held? (c : Cache) (slot : String) : Option CacheEntry :=
  c.entries.lookup slot

def erase (c : Cache) (slot : String) : Cache :=
  ⟨c.entries.erase slot⟩

def insert (c : Cache) (slot : String) (e : CacheEntry) : Cache :=
  ⟨c.entries.put slot e⟩

def size (c : Cache) : Nat :=
  c.entries.length

/-- The item a reader finds in a slot. -/
def find? (c : Cache) (now : Millis) (slot : String) : Option CacheItem :=
  ((c.held? slot).filter fun e => e.isLive now).map CacheEntry.item

/-- What a reader leaves of the cache: the slot without its item, if that has
expired. -/
def afterRead (c : Cache) (now : Millis) (slot : String) : Cache :=
  match c.held? slot with
  | some e => if e.isLive now then c else c.erase slot
  | none => c

def isLocked (c : Cache) (now : Millis) (slot : String) : Bool :=
  match c.find? now slot with
  | some item => item.isLock
  | none => false

def expiryOf (now : Millis) (item : CacheItem) : Option Millis :=
  if item.lifetime = 0 then none else some (now + item.lifetime)

/-- Stores the items in turn.  An item that cannot be stored ends it, with the
items before it in place. -/
def setAll (c : Cache) (now : Millis) : List CacheItem -> Except Cache Cache
  | [] => .ok c
  | item :: items =>
      match expiryOf now item with
      | some t =>
          if t < clockEnd then (c.insert item.slot ⟨item, some t⟩).setAll now items
          else .error c
      | none => (c.insert item.slot ⟨item, none⟩).setAll now items

def eraseAll (c : Cache) (slots : List String) : Cache :=
  ⟨slots.foldl Association.erase c.entries⟩

/-! ## Slots after an operation -/

theorem held?_erase (c : Cache) (slot other : String) :
    (c.erase slot).held? other = if other = slot then none else c.held? other :=
  Association.lookup_erase c.entries slot other

theorem held?_insert (c : Cache) (slot other : String) (e : CacheEntry) :
    (c.insert slot e).held? other = if other = slot then some e else c.held? other :=
  Association.lookup_put c.entries slot other e

theorem held?_eraseAll (c : Cache) (slots : List String) (other : String) :
    (c.eraseAll slots).held? other = if other ∈ slots then none else c.held? other :=
  Association.lookup_foldl_erase slots c.entries other

end Cache
end WriteLatch
