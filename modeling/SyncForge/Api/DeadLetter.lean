import SyncForge.Worker.Process

/-!
# `Api.DeadLetter` — the operators' side of retry rows and dead letters

`internal/api/dlq.go`: an operator sends a dead letter back to the retry queue, or discards it. `conflicts.go`
and `reconcile.go` end in the same enqueue, and a full sync parks what it cannot read (`syncjob/runner.go`).
An entry is named by its row key here; its `id` comes with the row and stays.
-/

namespace SyncForge.Api

open Effect
open Effect.Prog (attempt)
open Store

/-- What an endpoint answers: the HTTP status, and the text under `error` or `status`. -/
structure Response where
  code : Nat
  text : String
deriving DecidableEq, Repr

/-- The end of `handleDLQRetry`, once the entry is loaded: mark it, and queue its payload with no delay. -/
def retryItem (env : Env) (key : RowKey) (item : DeadLetter) : Sync Response := do
  match ← attempt (stmt (.setDeadLetterStatus key .retrying)) with
  | .error _ => pure ⟨500, "failed to update dead letter"⟩
  | .ok _ =>
    match ← attempt (stmt (.enqueueRetry
        { tenantID := item.tenantID, eventID := item.eventID, maxAttempts := env.options.retryMaxAttempts
          lastError := "manual replay from DLQ", errorClass := item.errorClass, state := item.payload } 0)) with
    | .error _ => pure ⟨500, "failed to enqueue retry"⟩
    | .ok _ => pure ⟨200, "retrying"⟩

/-- The end of `handleDLQDiscard`. -/
def discardItem (key : RowKey) : Sync Response := do
  match ← attempt (stmt (.setDeadLetterStatus key .discarded)) with
  | .error _ => pure ⟨500, "failed to update dead letter"⟩
  | .ok _ => pure ⟨200, "discarded"⟩

def withItem (key : RowKey) (next : DeadLetter → Sync Response) : Sync Response := do
  match ← attempt (stmt (.getDeadLetter key)) with
  | .error .notFound => pure ⟨404, "dead letter not found"⟩
  | .error _ => pure ⟨500, "failed to load dead letter"⟩
  | .ok item => next item

def handleDLQRetry (env : Env) (key : RowKey) : Sync Response := withItem key (retryItem env key)

def handleDLQDiscard (key : RowKey) : Sync Response := withItem key (fun _ => discardItem key)

/-- The enqueue of an operator's decision: `handleResolveConflict` with the error text "operator resolution"
    and the class `RESOLUTION`, `handleApplyFinding` with "operator reconcile apply" and `RECONCILIATION`. -/
def enqueueDecision (env : Env) (ev : Event) (lastError errorClass : String) : Sync Unit :=
  stmt (.enqueueRetry
    { tenantID := ev.tenantID, eventID := ev.eventID, maxAttempts := env.options.retryMaxAttempts
      lastError, errorClass, state := .marshal ev } 0)

/-- The insert of `deadLetterProviderRecord`, best effort. -/
def parkProviderRecord (ev : Event) (reason : String) : Sync Unit :=
  tryStmt (.insertDeadLetter
    { tenantID := ev.tenantID, eventID := ev.eventID, reason, errorClass := ErrorKind.schema.string
      payload := .marshal ev })

end SyncForge.Api
