import WriteLatch.Batch.Merge
import WriteLatch.Config.Basic
import WriteLatch.Context.Basic

/-!
# The client

A client checks a request before it touches anything, gives the write its time,
cuts the request into pieces no larger than a call may be, and puts the
outcomes of the pieces together.  Every piece is written by a transaction on a
task of its own, so a task that crashes fails the keys of its piece and no
others.
-/

namespace WriteLatch

structure Client where
  config : Config
  batchSize : Nat
  deriving Repr

namespace Client

/-- A client over a store that takes the given number of keys per call. -/
def create (config : Config) (storeLimit : Nat) : Except ConfigDefect Client := do
  config.check
  pure ⟨config, config.batchSize storeLimit⟩

/-- The context of a write: the caller's, with the time allowed from now. -/
def bounded (c : Client) (now : Millis) (ctx : Context) : Context :=
  match c.config.writeTimeout with
  | some timeout => ctx.withTimeout now timeout
  | none => ctx

structure Piece where
  span : Span
  keys : List Key
  values : List Value

def pieces (c : Client) (keys : List Key) (values : List Value) : List Piece :=
  (Span.split keys.length c.batchSize).map fun span =>
    ⟨span, span.slice keys, span.slice values⟩

/-- How a task came to its end. -/
inductive TaskEnd where
  | finished (result : CallResult)
  | crashed (message : String)
  deriving Repr

def TaskEnd.result : TaskEnd -> CallResult
  | .finished result => result
  | .crashed message => .error (.wholesale (Failure.ofCrash message))

/-- The outcome of a request from the ends of its tasks, piece by piece. -/
def merged (spans : List Span) (ends : List TaskEnd) : Except WriteFailure (List Key) :=
  (Batch.merge spans (ends.map TaskEnd.result)).mapError .positional

def noResult : Failure :=
  .backend ["backing store returned no result"]

/-- The span of a request for one key. -/
def single : Span :=
  ⟨0, 1⟩

/-- The outcome of a write of one key from the end of its task. -/
def outcome (e : TaskEnd) : Slot :=
  match Batch.conform single e.result with
  | .ok keys => (keys.getLast?.map .ok).getD (.error noResult)
  | .error (.positional slots) => slots.toList.getLast?.getD (.error noResult)
  | .error (.wholesale f) => .error f

/-! ## Pieces -/

theorem eq_of_create {config : Config} {storeLimit : Nat} {c : Client}
    (h : create config storeLimit = .ok c) :
    config.check = .ok () ∧ c = ⟨config, config.batchSize storeLimit⟩ := by
  unfold create at h
  cases hcheck : config.check with
  | error d =>
      rw [hcheck] at h
      cases h
  | ok u =>
      rw [hcheck] at h
      cases h
      exact ⟨rfl, rfl⟩

theorem batchSize_pos_of_create {config : Config} {storeLimit : Nat} {c : Client}
    (h : create config storeLimit = .ok c) : 0 < c.batchSize := by
  rw [(eq_of_create h).2]
  exact config.batchSize_pos storeLimit

theorem length_pieces (c : Client) (keys : List Key) (values : List Value) :
    (c.pieces keys values).length = (Span.split keys.length c.batchSize).length := by
  simp [pieces]

end Client
end WriteLatch
