import SyncForge.Api.DeadLetter
import SyncForge.Reconcile.Engine

/-!
# `Job.Runner` — full synchronization and scheduled reconciliation

`internal/syncjob/runner.go`. A runner takes the next runnable job and executes it: a reconciliation job goes
to the engine of `Reconcile.Engine`, any other walks the source's pages and sends every live record through
the worker as an event of its own. A job that crashed is taken up again after a minute, from the stored
cursor.
-/

namespace SyncForge.Job

open Effect
open Effect.Prog (attempt ofExcept perform)
open Store
open Reconcile.Sweep (nullablePtr nextCursor)

def eventID (jobID recordID : String) : String := "jobsync:" ++ jobID ++ ":" ++ recordID

def abort {α : Type} (job : SyncJob) (cause : GoError) : Sync α := do
  tryStmt (.finishSyncJob job.id job.tenantID .failed (some cause.error))
  .throw cause

/-- `if err != nil { return r.abort(ctx, job, err) }`. -/
def orAbort {α : Type} (job : SyncJob) (p : Sync α) : Sync α := do
  match ← attempt p with
  | .ok a => pure a
  | .error e => abort job e

def recordEvent (job : SyncJob) (entityType : String) (rec : ProviderRecord) (now : Time) : Event where
  eventID := eventID job.id rec.id
  tenantID := job.tenantID
  source := job.source
  entityType := entityType
  entityID := rec.id
  eventType := .created
  sourceVersion := rec.sourceVersion
  occurredAt := now
  provenance := { originSource := job.source, syncOperationID := job.id }
  fields := some rec.data

/-- The event `deadLetterProviderRecord` parks. -/
def malformedEvent (job : SyncJob) (rec : ProviderRecord) : Event where
  eventID := eventID job.id rec.id
  tenantID := job.tenantID
  source := job.source
  entityType := "customer"
  entityID := rec.id
  eventType := .created
  sourceVersion := rec.sourceVersion
  occurredAt := 0
  fields := some rec.data

def applyRecord (env : Env) (job : SyncJob) (src : Remote) (rec : ProviderRecord) (counts : Int × Int) :
    Sync (Int × Int) :=
  if rec.deleted then pure counts   -- a full sync does not backfill deletions
  else
    match src.adapter.validate rec with
    | .error e => do
      Api.parkProviderRecord (malformedEvent job rec) e.error
      pure (counts.1, counts.2 + 1)
    | .ok _ => do
      let now ← perform (S := sig) .timeNow
      match ← attempt (process env (recordEvent job src.adapter.canonicalEntityType rec now)) with
      | .error _ => pure (counts.1, counts.2 + 1)
      | .ok _ => pure (counts.1 + 1, counts.2)

def applyPage (env : Env) (job : SyncJob) (src : Remote) : List ProviderRecord → Int × Int → Sync (Int × Int)
  | [], counts => pure counts
  | rec :: recs, counts => do
    let counts ← applyRecord env job src rec counts
    applyPage env job src recs counts

def walk (env : Env) (job : SyncJob) (src : Remote) (total : Int) : Nat → String → Int × Int → Sync Bool
  | 0, _, _ => pure false
  | fuel + 1, cursor, counts => do
    let page ← orAbort job (perform (S := sig) (.list src.endpoint cursor job.batchSize))
    let counts ← applyPage env job src page.records counts
    orAbort job (stmt (.updateSyncJobProgress job.id job.tenantID (nullablePtr (nextCursor page)) counts.1
      counts.2 total))
    if nextCursor page = "" then do
      stmt (.finishSyncJob job.id job.tenantID .completed none)
      pure true
    else walk env job src total fuel (nextCursor page) counts

def fullSync (env : Env) (fuel : Nat) (job : SyncJob) : Sync Bool := do
  let srcConn ← orAbort job (stmt (.getConnectionByProvider job.tenantID job.source))
  let src ← orAbort job (ofExcept (adapterFor env srcConn))
  let dstConn ← orAbort job (stmt (.getConnectionByProvider job.tenantID job.destination))
  let _ ← orAbort job (ofExcept (adapterFor env dstConn))
  let total ← do
    match ← attempt (perform (S := sig) (.health src.endpoint)) with
    | .ok records => pure (if 0 < records then records else job.total)
    | .error _ => pure job.total
  walk env job src total fuel (job.cursor.getD "") (job.processed, job.failed)

/-- `execute`; `reconciler` says whether `WithReconciler` attached an engine. -/
def execute (env : Env) (reconciler : Bool) (fuel : Nat) (job : SyncJob) : Sync Bool :=
  if job.type = .reconcile then
    if reconciler then Reconcile.run env fuel job
    else abort job (.plain "reconcile engine not configured")
  else fullSync env fuel job

/-- `ClaimNextSyncJob`: two statements, so two runners can be given one job. -/
def claimNextSyncJob : Sync SyncJob := do
  let job ← stmt .nextSyncJob
  stmt (.startSyncJob job.id job.tenantID)
  let now ← perform (S := sig) .timeNow
  pure { job with status := .running, startedAt := some (job.startedAt.getD now) }

/-- One tick of `Run`: errors are logged. -/
def tick (env : Env) (reconciler : Bool) (fuel : Nat) : Sync Unit := do
  match ← attempt claimNextSyncJob with
  | .error _ => pure ()
  | .ok job => do
    let _ ← attempt (execute env reconciler fuel job)
    pure ()

end SyncForge.Job
