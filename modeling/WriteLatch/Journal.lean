import WriteLatch.Association
import WriteLatch.Failure
import WriteLatch.Lock

/-!
# What is recorded while writing

Calls made to the collaborators, failures reported aside, spans and events of
the trace, and counters.  Every field of the trace is shown as text.
-/

namespace WriteLatch

inductive CollaboratorCall where
  | newContext
  | set (items : List CacheItem)
  /-- The keys given to the store, and which of them were locked then. -/
  | put (keys : List Key) (locked : List Bool)
  | delete (slots : List String)

structure Report where
  tenant : Option String
  traceId : String
  error : String
  deriving DecidableEq, Repr

inductive Event where
  | writing (traceId : String) (keys pieces : Nat)
  | locksSet (count : Nat)
  | storeAnswered (keys : Nat) (ok : Bool)
  | pieceFailed (offset : Nat) (error : String)
  | wrongLength (offset expected returned : Nat)
  | written (ok : Bool)
  | reported (report : Report)
  deriving DecidableEq, Repr

namespace Event

inductive Level where
  | debug
  | warn
  deriving DecidableEq, Repr

def Level.name : Level -> String
  | .debug => "DEBUG"
  | .warn => "WARN"

/-- The name of a span; an event has none. -/
def span? : Event -> Option String
  | .writing _ _ _ => some "put_multi"
  | _ => none

def level : Event -> Level
  | .wrongLength _ _ _ => .warn
  | .reported _ => .warn
  | _ => .debug

def message : Event -> String
  | .writing _ _ _ => ""
  | .locksSet _ => "cache locks set"
  | .storeAnswered _ _ => "backing store put complete"
  | .pieceFailed _ _ => "sub-batch failed"
  | .wrongLength _ _ _ => "backing store returned a result of the wrong length"
  | .written _ => "put_multi complete"
  | .reported _ => "write path error reported"

def fields : Event -> List (String × String)
  | .writing traceId keys pieces =>
      [("trace_id", traceId), ("keys", toString keys), ("sub_batches", toString pieces)]
  | .locksSet count => [("locks", toString count)]
  | .storeAnswered keys ok => [("keys", toString keys), ("ok", toString ok)]
  | .pieceFailed offset error => [("offset", toString offset), ("error", error)]
  | .wrongLength offset expected returned =>
      [("offset", toString offset), ("expected", toString expected),
        ("returned", toString returned)]
  | .written ok => [("ok", toString ok)]
  | .reported report =>
      [("trace_id", report.traceId), ("tenant", report.tenant.getD ""), ("error", report.error)]

end Event

inductive Counter where
  | keys
  | pieces
  | failedPieces
  | failedReleases
  | reportedErrors
  deriving DecidableEq, Repr

namespace Counter

def name : Counter -> String
  | .keys => "cachelock_put_keys_total"
  | .pieces => "cachelock_sub_batches_total"
  | .failedPieces => "cachelock_sub_batch_failures_total"
  | .failedReleases => "cachelock_lock_release_failures_total"
  | .reportedErrors => "cachelock_reported_errors_total"

end Counter

structure Journal where
  calls : List CollaboratorCall := []
  reports : List Report := []
  events : List Event := []
  /-- A counter appears once it has been touched. -/
  counters : Association Counter Nat := []

namespace Journal

def call (j : Journal) (c : CollaboratorCall) : Journal :=
  { j with calls := j.calls ++ [c] }

def report (j : Journal) (r : Report) : Journal :=
  { j with reports := j.reports ++ [r] }

def event (j : Journal) (e : Event) : Journal :=
  { j with events := j.events ++ [e] }

def total (j : Journal) (c : Counter) : Nat :=
  (j.counters.lookup c).getD 0

def count (j : Journal) (c : Counter) (n : Nat) : Journal :=
  { j with counters := j.counters.put c (j.total c + n) }

/-- A fresh page for the next step; the counters run on. -/
def nextPage (j : Journal) : Journal :=
  { counters := j.counters }

theorem total_count (j : Journal) (c d : Counter) (n : Nat) :
    (j.count c n).total d = if d = c then j.total d + n else j.total d := by
  by_cases h : d = c
  · simp [count, total, Association.lookup_put, h]
  · simp [count, total, Association.lookup_put, h]

end Journal
end WriteLatch
