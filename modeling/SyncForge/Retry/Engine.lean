import SyncForge.Worker.Process

/-!
# `Retry.Engine` — re-running failed events

`internal/retry/engine.go`. An engine takes the due rows of `retry_queue` and re-runs each through the worker,
one after the other. A run that returns `nil` (also one that found the event claimed by somebody else) deletes
the row and resolves the dead letter; a failure re-enqueues the row or parks the event.
-/

namespace SyncForge

open Effect
open Effect.Prog (attempt ofExcept perform)
open Store

namespace Retry

/-- `deadLetter` of the engine: nothing is returned, so an insert that fails only skips the status update. -/
def deadLetter (r : RetryEntry) (reason errorClass : String) : Sync Unit := do
  match ← attempt (stmt (.insertDeadLetter
      { tenantID := r.tenantID, eventID := r.eventID, reason, errorClass, payload := r.state })) with
  | .error _ => pure ()   -- logged; the callers delete the row all the same
  | .ok _ => tryStmt (.setSourceEventStatusTo r.tenantID r.eventID .dlq)

def discard (r : RetryEntry) : Sync Unit := tryStmt (.deleteRetry r.key)

/-- A re-run that returned `nil`: the row is deleted and the dead letter resolved. -/
def settle (r : RetryEntry) : Sync Unit := do
  tryStmt (.deleteRetry r.key)
  tryStmt (.resolveDeadLetterForEvent r.key)

def reschedule (env : Env) (r : RetryEntry) (cause : GoError) : Sync Unit := do
  let kind := cause.classify.1
  let retryAfter := cause.classify.2
  -- the failure that filled the row counts as attempt 1
  let failureCount := r.attempt + 1
  if kind.shouldRetry = false ∨ r.maxAttempts ≤ failureCount then
    deadLetter r cause.error kind.string
    discard r
  else
    let jitter ← perform (S := sig) .random
    tryStmt (.enqueueRetry
      { tenantID := r.tenantID, eventID := r.eventID, maxAttempts := r.maxAttempts
        lastError := cause.error, errorClass := kind.string, state := r.state }
      (retryDelay env.options failureCount retryAfter jitter))

def processRetry (env : Env) (r : RetryEntry) : Sync Unit := do
  match r.state.unmarshal with
  | .error _ => do
    deadLetter r "corrupt retry state" ErrorKind.schema.string
    discard r
  | .ok ev =>
    match ← attempt (process env ev) with
    | .ok _ => settle r   -- a duplicate too
    | .error e => reschedule env r e

/-- The body of `drain`: the claimed rows in order. -/
def drainRows (env : Env) : List RetryEntry → Sync Unit
  | [] => pure ()
  | r :: rest => do
    processRetry env r
    drainRows env rest

/-- `drain`: how many rows were handled. -/
def drain (env : Env) (batchSize : Int) : Sync Nat := do
  match ← attempt (stmt (.claimDueRetries batchSize)) with
  | .error _ => pure 0
  | .ok due => do
    drainRows env due
    pure due.length

end Retry

end SyncForge
