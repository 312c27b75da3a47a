import WriteLatch.Proofs.Interleaving.Books

/-!
# Calls that begin in time

A transaction looks at its context before every call.  So whatever it calls, it
calls before its context has ended: before it is cancelled, before the deadline
of the caller, and within the time allowed for a write.  The log of the books
says so of every call that is begun, and what is in the log is what the
collaborators get.
-/

namespace WriteLatch

namespace Client

variable (client : Client)

end Client

namespace Simulation

open Transaction (Call Job)

/-- A call begins while the context of its transaction goes on. -/
structure Beginning.IsTimely (beginning : Beginning) : Prop where
  context : beginning.origin.context.interruption? beginning.moment.tokens
    beginning.moment.now = none
  /-- The caller has not cancelled, and the caller's deadline has not come. -/
  caller : beginning.origin.caller.interruption? beginning.moment.tokens
    beginning.moment.now = none
  /-- The time allowed for the write is not over. -/
  allowed : ∀ client since ctx timeout, beginning.origin = .called client since ctx ->
    client.config.writeTimeout = some timeout -> beginning.moment.now < since + timeout

section Moves

variable {run : Run} {scene : Scene}

end Moves

/-!
## Accounts
-/

namespace Account

/-- The transaction works under the context that it was given, and its context for
the cache is within that. -/
structure IsBound (a : Account) : Prop where
  ctx : a.writer.run.ctx = a.origin.context
  within : ∀ c, a.writer.run.cacheContext? = some c -> c.Within a.writer.run.ctx

variable {a : Account}

theorem IsBound.moved (h : a.IsBound) (scene : Scene) : (a.moved scene).IsBound := by
  have hmoved := a.writer.run.moved_move scene
  refine ⟨hmoved.ctx.trans h.ctx, ?_⟩
  intro c hc
  have hlast : c.Within a.writer.run.ctx := World.within_of_leads hmoved.stage h.within c hc
  rw [Account.moved, hmoved.ctx]
  exact hlast

end Account

/-!
## The log
-/

theorem NotedAs.isForKeys {call : Call} {note : CollaboratorCall} (h : NotedAs call note) :
    note.isForKeys = true := by
  cases h <;> rfl

namespace Books

variable {within : Scene -> Scene -> Prop} {b b' : Books}

/-- The calls on all pages so far. -/
def calls (b : Books) : List CollaboratorCall :=
  b.pages.flatMap Journal.calls ++ b.scene.journal.calls

/-- The calls about keys that the collaborators got are those in the log. -/
def IsNoted (b : Books) : Prop :=
  List.Forall₂ (fun (beginning : Beginning) note => NotedAs beginning.call note) b.log
    (b.calls.filter CollaboratorCall.isForKeys)

theorem IsNoted.moved (h : b.IsNoted) (i : Nat) (a : Account) : (b.moved i a).IsNoted := by
  have hmove : Notes a.writer.job (b.sceneOf a) a.writer.run.stage (b.moved i a).scene
      (a.nextStage (b.sceneOf a)) := a.writer.run.notes_move (b.sceneOf a)
  have hadded {begun : List Beginning} {notes : List CollaboratorCall}
      (hbegun : a.begins (b.sceneOf a) = begun)
      (hcalls : (b.moved i a).scene.journal.calls = b.scene.journal.calls ++ notes)
      (hnoted : List.Forall₂ (fun (beginning : Beginning) note => NotedAs beginning.call note)
        begun (notes.filter CollaboratorCall.isForKeys)) : (b.moved i a).IsNoted := by
    have hall : (b.moved i a).calls = b.calls ++ notes := by
      rw [calls, hcalls, ← List.append_assoc]
      rfl
    rw [IsNoted, hall, List.filter_append]
    exact List.rel_append h (hbegun ▸ hnoted)
  have hbegins {begun : Option Call} (hbegun : Stage.begun? a.writer.job a.writer.run.stage
      (a.nextStage (b.sceneOf a)) = begun) : a.begins (b.sceneOf a) =
        (begun.map fun call => ⟨a.origin, call, (b.sceneOf a).moment⟩).toList := by
    rw [Account.begins, hbegun]
  cases hmove with
  | nothing hbegun hcalls =>
      exact hadded (hbegins hbegun) (hcalls.trans (List.append_nil _).symm) List.Forall₂.nil
  | context hopening hbegun hcalls =>
      exact hadded (hbegins hbegun) hcalls List.Forall₂.nil
  | @call due noted hbegun hnoted hcalls =>
      refine hadded (hbegins hbegun) hcalls ?_
      rw [List.filter_cons_of_pos hnoted.isForKeys]
      exact List.Forall₂.cons hnoted List.Forall₂.nil

end Books
end Simulation
end WriteLatch
