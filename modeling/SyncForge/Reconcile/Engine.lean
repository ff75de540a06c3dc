import SyncForge.Worker.Process

/-!
# `Reconcile.Engine` — sweeping a provider for divergences

`internal/reconcile/{engine,classify}.go`. A run compares every live record of one provider with the canonical
record that maps its id, and then looks for canonical records whose id it did not see. An automatic run
repairs what it finds, unless the delete policy forbids it. The walk over the pages has fuel: `run` answers
`false` when it was not enough.
-/

namespace SyncForge.Reconcile

open Effect
open Effect.Prog (attempt ofExcept perform)
open Store

/-! ## Classification -/

/-- `fmt.Sprint(m[k])`. -/
def sprintAt (m : FieldMap) (f : Field) : String := ((m f).getD .nil).sprint

def sameFields (a b : FieldMap) : Bool := Field.all.all (fun f => sprintAt a f = sprintAt b f)

/-- `classify`: no kind means that the record is in sync. -/
def classify (canonical : Option CanonicalRecord) (providerFields : FieldMap) : Option FindingKind :=
  match canonical with
  | none => some .missed
  | some c =>
    if c.tombstone then some .deleted
    else if sameFields c.fields providerFields then none
    else some .drift

def shouldRecreateMissing (deletePolicy : DeletePolicy) : Bool :=
  deletePolicy = .tombstoneOnly ∨ deletePolicy = .ignore

/-- `deletePolicyFor`: the first policy from the source, else the first one to it, whatever their entity. -/
def deletePolicyFor (policies : List SyncPolicy) (source : String) : DeletePolicy :=
  match policies.find? (fun p => p.source = source) with
  | some p => p.deletePolicy
  | none =>
    match policies.find? (fun p => p.destination = source) with
    | some p => p.deletePolicy
    | none => .propagate

def repairable (f : ReconciliationFinding) (deletePolicy : DeletePolicy) : Bool :=
  match f.kind with
  | .deleted => deletePolicy = .propagate
  | .missing => shouldRecreateMissing deletePolicy
  | _ => true

def policyName : DeletePolicy → String
  | .propagate => "propagate"
  | .tombstoneOnly => "tombstone_only"
  | .ignore => "ignore"
  | .other name => name

def policyGateReason (kind : FindingKind) (deletePolicy : DeletePolicy) : String :=
  if kind = .deleted then "delete_policy=" ++ policyName deletePolicy ++ ": deletes do not propagate"
  else "delete_policy=" ++ policyName deletePolicy ++ ": external deletions are respected"

/-! ## Findings and repairs -/

def eventID (findingID : String) : String := "reconcile:" ++ findingID

/-- The event of `repair`. -/
def repairEvent (run : ReconciliationRun) (job : SyncJob) (entityType : String) (f : ReconciliationFinding)
    (now : Time) : Event where
  eventID := eventID f.id
  tenantID := job.tenantID
  source := run.source
  entityType := entityType
  entityID := f.providerID
  eventType := .updated
  sourceVersion := f.providerVersion
  occurredAt := now
  provenance := { reconcileFindingID := f.id }
  fields := none

def repair (env : Env) (run : ReconciliationRun) (job : SyncJob) (entityType : String)
    (f : ReconciliationFinding) : Sync Unit := do
  let now ← perform (S := sig) .timeNow
  let _ ← process env (repairEvent run job entityType f now)
  pure ()

/-- The finding `record` hands to the store. -/
def finding (run : ReconciliationRun) (job : SyncJob) (kind : FindingKind) (providerID : String)
    (version : Int) (canonical : Option CanonicalRecord) (providerFields : FieldMap) :
    ReconciliationFinding where
  id := ""
  runID := run.id
  tenantID := job.tenantID
  kind := kind
  providerID := providerID
  canonicalID := (canonical.map (·.entityID)).getD ""
  canonicalFields := (canonical.map (·.fields)).getD (fun _ => none)
  providerFields := providerFields
  providerVersion := version
  direction := .other ""
  status := .pending

/-- What `record` does about a stored finding. -/
def settle (env : Env) (run : ReconciliationRun) (job : SyncJob) (entityType : String)
    (deletePolicy : DeletePolicy) (stored : ReconciliationFinding) : Sync Unit :=
  if run.mode = .auto ∧ stored.status = .pending then
    if repairable stored deletePolicy then do
      let _ ← attempt (repair env run job entityType stored)   -- logged
      pure ()
    else
      -- parked, with the reason why nothing was done
      tryStmt (.setReconciliationFindingStatus job.tenantID stored.id .skipped
        (some (policyGateReason stored.kind deletePolicy)))
  else pure ()

def record (env : Env) (run : ReconciliationRun) (job : SyncJob) (entityType : String) (kind : FindingKind)
    (providerID : String) (version : Int) (canonical : Option CanonicalRecord) (providerFields : FieldMap)
    (deletePolicy : DeletePolicy) : Sync Unit := do
  let stored ← stmt (.insertReconciliationFinding
    (finding run job kind providerID version canonical providerFields))
  settle env run job entityType deletePolicy stored

/-! ## Giving up -/

def abort {α : Type} (job : SyncJob) (cause : GoError) : Sync α := do
  match ← attempt (stmt (.getReconciliationRunByJobID job.id)) with
  | .error _ => pure ()
  | .ok run => tryStmt (.finishReconciliationRun run.id .failed (some cause.error))
  tryStmt (.finishSyncJob job.id job.tenantID .failed (some cause.error))
  .throw cause

/-- `if err != nil { return e.abort(ctx, job, err) }`. -/
def orAbort {α : Type} (job : SyncJob) (p : Sync α) : Sync α := do
  match ← attempt p with
  | .ok a => pure a
  | .error e => abort job e

/-! ## The walk -/

structure Progress where
  seen : List String
  processed : Int
  failed : Int
  total : Int
deriving DecidableEq, Repr

namespace Progress

def fail (s : Progress) : Progress := { s with failed := s.failed + 1 }

def count (s : Progress) : Progress := { s with processed := s.processed + 1 }

def see (s : Progress) (id : String) : Progress := { s with seen := id :: s.seen, total := s.total + 1 }

end Progress

structure Sweep where
  run : ReconciliationRun
  job : SyncJob
  src : Remote
  deletePolicy : DeletePolicy

namespace Sweep

variable (env : Env) (w : Sweep)

def entityType : String := w.src.adapter.canonicalEntityType

def compare (rec : ProviderRecord) (canonical : Option CanonicalRecord) (s : Progress) : Sync Progress :=
  let providerFields := (w.src.adapter.normalize rec).fields
  match classify canonical providerFields with
  | none => pure s.count
  | some kind => do
    match ← attempt (record env w.run w.job w.entityType kind rec.id rec.sourceVersion canonical providerFields
        w.deletePolicy) with
    | .error _ => pure s.fail
    | .ok _ => pure s.count

def sweepRecord (rec : ProviderRecord) (s : Progress) : Sync Progress :=
  if rec.deleted then pure s
  else
    match w.src.adapter.validate rec with
    | .error _ => pure (s.see rec.id).fail
    | .ok _ => do
      match ← attempt (stmt (.getCanonicalByProvider w.job.tenantID w.entityType w.run.source rec.id)) with
      | .ok canonical => w.compare env rec (some canonical) (s.see rec.id)
      | .error .notFound => w.compare env rec none (s.see rec.id)
      | .error e => abort w.job e

def sweepPage : List ProviderRecord → Progress → Sync Progress
  | [], s => pure s
  | rec :: recs, s => do
    let s ← w.sweepRecord env rec s
    sweepPage recs s

def nullablePtr (v : String) : Option String := if v = "" then none else some v

def nextCursor (page : Page) : String := if page.hasMore then page.nextCursor else ""

def walk : Nat → String → Progress → Sync (Option Progress)
  | 0, _, _ => pure none
  | fuel + 1, cursor, s => do
    let page ← orAbort w.job (perform (S := sig) (.list w.src.endpoint cursor w.job.batchSize))
    let s ← w.sweepPage env page.records s
    orAbort w.job (stmt (.updateSyncJobProgress w.job.id w.job.tenantID
      (nullablePtr (nextCursor page)) s.processed s.failed s.total))
    if nextCursor page = "" then pure (some s)
    else walk fuel (nextCursor page) s

def sweepMissing (seen : List String) : List CanonicalRecord → Sync Unit
  | [] => pure ()
  | c :: cs => do
    if c.tombstone ∨ c.providerID w.run.source = "" ∨ c.providerID w.run.source ∈ seen then
      sweepMissing seen cs
    else
      let _ ← attempt (record env w.run w.job w.entityType .missing (c.providerID w.run.source)
        (c.sourceVersions w.run.source) (some c) c.fields w.deletePolicy)   -- logged
      sweepMissing seen cs

def finish (total : Int) : Sync Unit := do
  let counts ← orAbort w.job (stmt (.countReconciliationFindings w.job.tenantID w.run.id))
  orAbort w.job (stmt (.updateReconciliationCounters w.run.id total counts.drift counts.missed
    counts.deleted))
  orAbort w.job (stmt (.finishReconciliationRun w.run.id .completed none))
  stmt (.finishSyncJob w.job.id w.job.tenantID .completed none)

def resume (job : SyncJob) : Progress := ⟨[], job.processed, job.failed, job.total⟩

def sweep (fuel : Nat) : Sync Bool := do
  match ← w.walk env fuel (w.job.cursor.getD "") (resume w.job) with
  | none => pure false
  | some s => do
    let canonicals ← orAbort w.job (stmt (.listCanonicalByProvider w.job.tenantID w.entityType w.run.source))
    w.sweepMissing env s.seen canonicals
    w.finish s.total
    pure true

end Sweep

/-- `Run`, once its run is known to be unfinished. -/
def sweepRun (env : Env) (fuel : Nat) (job : SyncJob) (run : ReconciliationRun) : Sync Bool := do
  let conn ← orAbort job (stmt (.getConnectionByProvider job.tenantID run.source))
  let src ← orAbort job (ofExcept (adapterFor env conn))
  let policies ← orAbort job (stmt (.listPolicies job.tenantID))
  Sweep.sweep env ⟨run, job, src, deletePolicyFor policies run.source⟩ fuel

/-- `Run`: `true` when it returned `nil`, `false` when the fuel did not reach to the end. -/
def run (env : Env) (fuel : Nat) (job : SyncJob) : Sync Bool := do
  match ← attempt (stmt (.getReconciliationRunByJobID job.id)) with
  | .error .notFound => abort job (.plain "reconciliation run not found")
  | .error e => .throw e
  | .ok run =>
    -- a run that is finished already is left alone
    if run.status = .completed ∨ run.status = .failed then pure true
    else sweepRun env fuel job run

end SyncForge.Reconcile
