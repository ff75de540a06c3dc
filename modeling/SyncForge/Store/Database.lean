import SyncForge.Model.Json
import SyncForge.Conflict.Merge
import SyncForge.Relational.Table

/-!
# `Store.Database` — the tables and the statements on them

`internal/store` over the schema of `migrations/`. Each operation is one SQL statement or one `WithTenant`
transaction, and atomic; it fails here only by finding no row. Tables that are only used at one key are
functions of that key, scanned ones `Relational.Table`s or lists in insertion order. An id the database makes
up is one that no row of the tenant has yet.
-/

namespace SyncForge

open Relational
open Function (update)

/-! ## Rows -/

inductive DeletePolicy where
  | propagate | tombstoneOnly | ignore
  | other (name : String)
deriving DecidableEq, Repr

/-- A row of `sync_policies`. -/
structure SyncPolicy where
  tenantID : String
  entity : String
  source : String
  destination : String
  conflictStrategy : Conflict.Strategy := .lastWriteWins
  deletePolicy : DeletePolicy := .propagate
  sourcePriority : Int := 100
  enabled : Bool := true
deriving DecidableEq, Repr

structure PolicyKey where
  tenantID : String
  entity : String
  source : String
  destination : String
deriving DecidableEq, Repr

def SyncPolicy.key (p : SyncPolicy) : PolicyKey := ⟨p.tenantID, p.entity, p.source, p.destination⟩

/-- A row of `tenants`. -/
structure Tenant where
  id : String
  slug : String
deriving DecidableEq, Repr

/-- A row of `connections`. -/
structure Connection where
  tenantID : String
  provider : String
  baseURL : String
  webhookSecret : String := ""
deriving DecidableEq, Repr

inductive SourceEventStatus where
  | received | validated | processed | failed | stale | duplicate | dlq
deriving DecidableEq, Repr

/-- A row of `source_events`, its status apart. -/
structure SourceEvent where
  tenantID : String
  source : String
  eventID : String
  entityType : String
  entityID : String
  eventType : String
  sourceVersion : Int
  occurredAt : Option Time
  provenance : JsonMap
  raw : JsonMap

/-- The key `(tenant_id, source, event_id)`. -/
def SourceEvent.key (se : SourceEvent) : EventKey := ⟨se.tenantID, se.source, se.eventID⟩

structure CanonicalKey where
  tenantID : String
  entityType : String
  entityID : String
deriving DecidableEq, Repr

/-- A row of `canonical_records`. A provider without an entry in `source_versions` reads as version 0. -/
structure CanonicalRecord where
  tenantID : String
  entityType : String
  entityID : String
  fields : FieldMap := fun _ => none
  version : Int := 0
  sourceVersions : String → Int := fun _ => 0
  fieldProvenance : Field → Option Conflict.Provenance := fun _ => none
  tombstone : Bool := false
  originSource : String := ""
  originEventID : String := ""
  providerIDs : String → Option String := fun _ => none

namespace CanonicalRecord

def key (c : CanonicalRecord) : CanonicalKey := ⟨c.tenantID, c.entityType, c.entityID⟩

/-- `canonical.ProviderIDs[provider]`, the empty string when absent. -/
def providerID (c : CanonicalRecord) (provider : String) : String := (c.providerIDs provider).getD ""

/-- `canonical.ProviderIDs[provider] = id`. -/
def setProviderID (c : CanonicalRecord) (provider id : String) : CanonicalRecord :=
  { c with providerIDs := update c.providerIDs provider (some id) }

theorem setProviderID_self (c : CanonicalRecord) (provider id : String) :
    (c.setProviderID provider id).providerIDs provider = some id := Function.update_self ..

theorem setProviderID_ne (c : CanonicalRecord) {provider p : String} (h : p ≠ provider) (id : String) :
    (c.setProviderID provider id).providerIDs p = c.providerIDs p := Function.update_of_ne h ..

/-- `canonical.SourceVersions[source] = v`. -/
def setSourceVersion (c : CanonicalRecord) (source : String) (v : Int) : CanonicalRecord :=
  { c with sourceVersions := update c.sourceVersions source v }

/-- The column expression `fields->>'email'`. -/
def emailText (c : CanonicalRecord) : Option String :=
  match c.fields .email with
  | none => none
  | some .nil => none
  | some v => some v.text

end CanonicalRecord

structure OutboundKey where
  tenantID : String
  entityType : String
  entityID : String
  targetSource : String
deriving DecidableEq, Repr

/-- A row of `outbound_writes`. -/
structure OutboundWrite where
  tenantID : String
  entityType : String
  entityID : String
  targetSource : String
  fingerprint : String
  appliedVersion : Int := 0
deriving DecidableEq, Repr

def OutboundWrite.key (w : OutboundWrite) : OutboundKey :=
  ⟨w.tenantID, w.entityType, w.entityID, w.targetSource⟩

/-- A row of the `sync_operations` ledger. -/
structure SyncOperation where
  tenantID : String
  entityType : String
  entityID : String
  source : String
  targetSource : String
  eventID : String
  appliedVersion : Int
  fingerprint : String
deriving DecidableEq, Repr

inductive ConflictStatus where
  | pending | resolved | autoResolved | dismissed
deriving DecidableEq, Repr

structure ConflictKey where
  tenantID : String
  entityType : String
  entityID : String
  sourceA : String
  sourceB : String
  versionA : Int
  versionB : Int
deriving DecidableEq, Repr

/-- A row of `conflicts`. -/
structure ConflictRecord where
  id : String := ""
  tenantID : String
  entityType : String
  entityID : String
  sourceA : String
  versionA : Int
  payloadA : FieldMap
  sourceB : String
  versionB : Int
  payloadB : FieldMap
  status : ConflictStatus
  resolutionStrategy : Conflict.Strategy
  resolvedBy : Option String := none

def ConflictRecord.key (c : ConflictRecord) : ConflictKey :=
  ⟨c.tenantID, c.entityType, c.entityID, c.sourceA, c.sourceB, c.versionA, c.versionB⟩

/-- A row of `retry_queue`. -/
structure RetryEntry where
  tenantID : String
  eventID : String
  attempt : Int := 0
  maxAttempts : Int
  nextAttemptAt : Time := 0
  lastError : String
  errorClass : String
  state : Bytes
deriving DecidableEq

def RetryEntry.key (e : RetryEntry) : RowKey := ⟨e.tenantID, e.eventID⟩

inductive DeadLetterStatus where
  | open | retrying | discarded | resolved
deriving DecidableEq, Repr

/-- A row of `dead_letter`. -/
structure DeadLetter where
  tenantID : String
  eventID : String
  reason : String
  errorClass : String
  payload : Bytes
  status : DeadLetterStatus := .open
deriving DecidableEq

def DeadLetter.key (d : DeadLetter) : RowKey := ⟨d.tenantID, d.eventID⟩

inductive FindingKind where
  | missed | drift | deleted | missing
deriving DecidableEq, Repr

inductive FindingStatus where
  | pending | applied | skipped | dismissed | failed
deriving DecidableEq, Repr

inductive Direction where
  | pushCanonical | adoptProvider | delete
  | other (name : String)
deriving DecidableEq, Repr

/-- A row of `reconciliation_findings`. -/
structure ReconciliationFinding where
  id : String
  runID : String
  tenantID : String
  kind : FindingKind
  providerID : String
  canonicalID : String
  canonicalFields : FieldMap := fun _ => none
  providerFields : FieldMap
  providerVersion : Int
  direction : Direction
  status : FindingStatus
  error : Option String := none

inductive RunMode where
  | auto | manual
deriving DecidableEq, Repr

inductive RunStatus where
  | running | completed | failed
deriving DecidableEq, Repr

/-- A row of `reconciliation_runs`. -/
structure ReconciliationRun where
  id : String
  tenantID : String
  source : String
  entity : String := ""
  mode : RunMode := .auto
  status : RunStatus := .running
  jobID : Option String := none
  total : Int := 0
  drift : Int := 0
  missed : Int := 0
  deleted : Int := 0
  error : Option String := none
deriving DecidableEq, Repr

inductive JobType where
  | initial | reconcile
deriving DecidableEq, Repr

inductive JobStatus where
  | pending | running | paused | completed | failed | cancelled
deriving DecidableEq, Repr

/-- A row of `sync_jobs`. -/
structure SyncJob where
  id : String
  tenantID : String
  source : String
  destination : String
  type : JobType
  status : JobStatus := .pending
  cursor : Option String := none
  processed : Int := 0
  failed : Int := 0
  total : Int := 0
  batchSize : Int := 1000
  startedAt : Option Time := none
  lastError : Option String := none
deriving DecidableEq, Repr

/-! ## The database -/

structure Database where
  tenants : List Tenant := []
  policies : Table SyncPolicy PolicyKey SyncPolicy.key := .empty
  connections : List Connection := []
  processed : EventKey → Bool := fun _ => false
  sourceEvents : EventKey → Option SourceEventStatus := fun _ => none
  ingested : List SourceEvent := []
  canonical : Table CanonicalRecord CanonicalKey CanonicalRecord.key := .empty
  outbound : OutboundKey → Option OutboundWrite := fun _ => none
  syncOps : List SyncOperation := []
  conflicts : Table ConflictRecord ConflictKey ConflictRecord.key := .empty
  retryQueue : Table RetryEntry RowKey RetryEntry.key := .empty
  deadLetters : RowKey → Option DeadLetter := fun _ => none
  findings : List ReconciliationFinding := []
  runs : List ReconciliationRun := []
  jobs : List SyncJob := []

/-! ## Statements -/

/-- The statements of the modelled components, under the names of `internal/store`. `ClaimNextSyncJob` is two
    of them, a query (`nextSyncJob`) and an update (`startSyncJob`), because it is no transaction. -/
inductive StoreOp where
  | claimProcessedEvent (key : EventKey)
  | releaseProcessedEvent (key : EventKey)
  | listPolicies (tenantID : String)
  | getConnectionByProvider (tenantID provider : String)
  | getCanonical (key : CanonicalKey)
  | getCanonicalByProvider (tenantID entityType provider providerID : String)
  | getCanonicalByEmail (tenantID entityType email : String)
  | addProviderID (key : CanonicalKey) (provider providerID : String)
  | upsertCanonical (c : CanonicalRecord)
  | persistApplyState (c : CanonicalRecord) (outbound : List OutboundWrite) (ops : List SyncOperation)
  | getOutboundWrite (key : OutboundKey)
  | upsertOutboundWrite (w : OutboundWrite)
  | insertSyncOperation (op : SyncOperation)
  | insertConflict (c : ConflictRecord)
  | setConflictStatus (tenantID id : String) (status : ConflictStatus) (strategy : Conflict.Strategy)
      (by_ : String)
  | setSourceEventStatus (tenantID eventID : String) (old new : SourceEventStatus)
  | setSourceEventStatusTo (tenantID eventID : String) (new : SourceEventStatus)
  | enqueueRetry (e : RetryEntry) (delay : Duration)
  | claimDueRetries (limit : Int)
  | deleteRetry (key : RowKey)
  | insertDeadLetter (d : DeadLetter)
  | resolveDeadLetterForEvent (key : RowKey)
  | getDeadLetter (key : RowKey)
  | setDeadLetterStatus (key : RowKey) (status : DeadLetterStatus)
  | getReconciliationFinding (tenantID id : String)
  | getReconciliationRun (tenantID id : String)
  | setReconciliationFindingStatus (tenantID id : String) (status : FindingStatus) (error : Option String)
  | getTenantBySlug (slug : String)
  | insertSourceEvent (se : SourceEvent)
  | pendingSourceEvents (limit : Int)
  | getConflict (tenantID id : String)
  | getReconciliationRunByJobID (jobID : String)
  | insertReconciliationFinding (f : ReconciliationFinding)
  | setReconciliationFindingDirection (tenantID id : String) (direction : Direction)
  | countReconciliationFindings (tenantID runID : String)
  | updateReconciliationCounters (runID : String) (total drift missed deleted : Int)
  | finishReconciliationRun (runID : String) (status : RunStatus) (error : Option String)
  | listCanonicalByProvider (tenantID entityType provider : String)
  | nextSyncJob
  | startSyncJob (id tenantID : String)
  | updateSyncJobProgress (id tenantID : String) (cursor : Option String) (processed failed total : Int)
  | finishSyncJob (id tenantID : String) (status : JobStatus) (error : Option String)

/-- What `CountReconciliationFindings` answers. -/
structure FindingCounts where
  drift : Int
  missed : Int
  deleted : Int
deriving DecidableEq, Repr

@[reducible] def StoreOp.Res : StoreOp → Type
  | .claimProcessedEvent _ => Bool
  | .listPolicies _ => List SyncPolicy
  | .getConnectionByProvider _ _ => Connection
  | .getCanonical _ => CanonicalRecord
  | .getCanonicalByProvider _ _ _ _ => CanonicalRecord
  | .getCanonicalByEmail _ _ _ => CanonicalRecord
  | .getOutboundWrite _ => OutboundWrite
  | .claimDueRetries _ => List RetryEntry
  | .getDeadLetter _ => DeadLetter
  | .getReconciliationFinding _ _ => ReconciliationFinding
  | .getReconciliationRun _ _ => ReconciliationRun
  | .getTenantBySlug _ => Tenant
  | .insertSourceEvent _ => Bool
  | .pendingSourceEvents _ => List SourceEvent
  | .getConflict _ _ => ConflictRecord
  | .getReconciliationRunByJobID _ => ReconciliationRun
  | .insertReconciliationFinding _ => ReconciliationFinding
  | .countReconciliationFindings _ _ => FindingCounts
  | .listCanonicalByProvider _ _ _ => List CanonicalRecord
  | .nextSyncJob => SyncJob
  | _ => Unit

namespace Database

/-- `sql.ErrNoRows` becomes `ErrNotFound`. -/
def rowOrNotFound {α : Type} : Option α → Except GoError α
  | some a => .ok a
  | none => .error .notFound

/-- One of the matching rows: a query without `ORDER BY` may return any of them. -/
def anyRow {α : Type} (pick : Nat) (matching : List α) : Option α := matching[pick % matching.length]?

/-- The matching rows in some order: a query without `ORDER BY` may return them in any. -/
def anyOrder {α : Type} : Nat → List α → List α
  | _, [] => []
  | pick, a :: as => (anyOrder (pick / (as.length + 1)) as).insertIdx (pick % (as.length + 1)) a

def newID (ids : List String) : String := String.ofList (List.replicate ((ids.map String.length).sum + 1) 'u')

/-- The number of rows a statement with `LIMIT` returns at most. -/
def rowLimit (limit : Int) : Nat := if limit ≤ 0 ∨ 1000 < limit then 100 else limit.toNat

/-- `ListPolicies`: the tenant's enabled policies, in creation order. -/
def policiesOf (db : Database) (tenantID : String) : List SyncPolicy :=
  db.policies.rows.filter (fun p => p.tenantID = tenantID ∧ p.enabled = true)

def connectionsOf (db : Database) (tenantID provider : String) : List Connection :=
  db.connections.filter (fun c => c.tenantID = tenantID ∧ c.provider = provider)

/-- The rows `GetCanonicalByProvider` matches. -/
def canonicalsWithProvider (db : Database) (tenantID entityType provider providerID : String) :
    List CanonicalRecord :=
  db.canonical.rows.filter (fun c =>
    c.tenantID = tenantID ∧ c.entityType = entityType ∧ c.providerIDs provider = some providerID)

/-- The rows `GetCanonicalByEmail` matches, oldest first. -/
def canonicalsWithEmail (db : Database) (tenantID entityType email : String) : List CanonicalRecord :=
  db.canonical.rows.filter (fun c =>
    c.tenantID = tenantID ∧ c.entityType = entityType ∧ c.tombstone = false ∧ c.emailText = some email)

def writeOutbound (outbound : OutboundKey → Option OutboundWrite) (w : OutboundWrite) :
    OutboundKey → Option OutboundWrite := update outbound w.key (some w)

/-- `PersistApplyState`: the fingerprints, the ledger rows and the canonical record, in one transaction. -/
def applyState (db : Database) (c : CanonicalRecord) (outbound : List OutboundWrite)
    (ops : List SyncOperation) : Database :=
  { db with
    outbound := outbound.foldl writeOutbound db.outbound
    syncOps := db.syncOps ++ ops
    canonical := db.canonical.upsert c }

/-- The row `EnqueueRetry` leaves: attempt 1 when it is new; an existing row counts one more attempt and
    keeps its `max_attempts`. -/
def retryRow (db : Database) (now : Time) (e : RetryEntry) (delay : Duration) : RetryEntry :=
  match db.retryQueue.get? e.key with
  | none => { e with attempt := 1, nextAttemptAt := now + delay }
  | some old => { e with attempt := old.attempt + 1, maxAttempts := old.maxAttempts, nextAttemptAt := now + delay }

/-- `ClaimDueRetries`: the due rows in order of their due time. The row locks last until the statement
    ends, so a second engine can be given the same rows. -/
def dueRetries (db : Database) (now : Time) (limit : Int) : List RetryEntry :=
  let limit := if limit ≤ 0 ∨ 1000 < limit then 100 else limit
  ((db.retryQueue.rows.filter (fun e => e.nextAttemptAt ≤ now)).insertionSort
    (fun e e' => e.nextAttemptAt ≤ e'.nextAttemptAt)).take limit.toNat

/-- `InsertConflict`: a row with the same key is left alone. -/
def recordConflict (db : Database) (c : ConflictRecord) : Database :=
  { db with conflicts :=
      match db.conflicts.get? c.key with
      | some _ => db.conflicts
      | none =>
        db.conflicts.upsert { c with
          id := newID ((db.conflicts.rows.filter (fun c' => c'.tenantID = c.tenantID)).map ConflictRecord.id) } }

/-- `SetConflictStatus`: a dismissed conflict keeps its status. -/
def setConflict (db : Database) (tenantID id : String) (status : ConflictStatus)
    (strategy : Conflict.Strategy) (by_ : String) : Database :=
  { db with conflicts :=
      match db.conflicts.rows.find? (fun c => c.tenantID = tenantID ∧ c.id = id ∧ c.status ≠ .dismissed) with
      | none => db.conflicts
      | some c =>
        db.conflicts.upsert
          { c with status := status, resolutionStrategy := strategy, resolvedBy := some by_ } }

/-- `SetSourceEventStatus`: every row of the tenant with this event id, whatever its source. -/
def setStatus (db : Database) (tenantID eventID : String) (guard : SourceEventStatus → Bool)
    (new : SourceEventStatus) : Database :=
  { db with sourceEvents := fun k =>
      if k.tenantID = tenantID ∧ k.eventID = eventID then
        (db.sourceEvents k).map (fun s => if guard s then new else s)
      else db.sourceEvents k }

/-- `InsertDeadLetter`: an existing entry is reopened. -/
def insertDead (db : Database) (d : DeadLetter) : Database :=
  { db with deadLetters := update db.deadLetters d.key (some { d with status := .open }) }

/-- `ResolveDeadLetterForEvent`: a discarded entry stays discarded. -/
def resolveDead (db : Database) (key : RowKey) : Database :=
  { db with deadLetters := update db.deadLetters key ((db.deadLetters key).map
      (fun d => if d.status = .discarded then d else { d with status := .resolved })) }

/-- `SetDeadLetterStatus`: whatever the status was. -/
def setDead (db : Database) (key : RowKey) (status : DeadLetterStatus) : Database :=
  { db with deadLetters := update db.deadLetters key ((db.deadLetters key).map
      (fun d => { d with status := status })) }

/-- `SetReconciliationFindingStatus`: only a pending finding moves, or a failed one back to pending. -/
def setFinding (db : Database) (tenantID id : String) (status : FindingStatus) (error : Option String) :
    Database :=
  { db with findings := db.findings.map (fun f =>
      if f.tenantID = tenantID ∧ f.id = id ∧ (f.status = .pending ∨ f.status = .failed ∧ status = .pending)
      then { f with status := status, error := error } else f) }

/-- `AddProviderID`. -/
def linkProvider (db : Database) (key : CanonicalKey) (provider providerID : String) : Database :=
  { db with canonical :=
      match db.canonical.get? key with
      | none => db.canonical
      | some c => db.canonical.upsert (c.setProviderID provider providerID) }

/-- `InsertSourceEvent`: an event that is there already (`ErrDuplicate`) is left alone. -/
def insertSource (db : Database) (se : SourceEvent) : Database :=
  { db with
    ingested :=
      match db.sourceEvents se.key with
      | some _ => db.ingested
      | none => db.ingested ++ [se]
    sourceEvents :=
      match db.sourceEvents se.key with
      | some _ => db.sourceEvents
      | none => update db.sourceEvents se.key (some .received) }

/-- `PendingSourceEvents`: the oldest events nobody has published, of all tenants. -/
def pendingSources (db : Database) (limit : Int) : List SourceEvent :=
  (db.ingested.filter (fun se => db.sourceEvents se.key = some .received)).take (rowLimit limit)

def reconcileDirection : FindingKind → Direction
  | .deleted => .delete
  | .missed => .adoptProvider
  | .drift => .pushCanonical
  | .missing => .pushCanonical

/-- The row `InsertReconciliationFinding` inserts. -/
def newFinding (db : Database) (f : ReconciliationFinding) : ReconciliationFinding :=
  { f with
    id := newID ((db.findings.filter (fun f' => f'.tenantID = f.tenantID)).map ReconciliationFinding.id)
    direction := if f.direction = .other "" then reconcileDirection f.kind else f.direction }

/-- The row that keeps `f` from being inserted: one of the same run, kind and provider id, whoever's it is. -/
def sameFinding (db : Database) (f : ReconciliationFinding) : Option ReconciliationFinding :=
  db.findings.find? (fun f' => f'.runID = f.runID ∧ f'.kind = f.kind ∧ f'.providerID = f.providerID)

/-- `InsertReconciliationFinding`: an existing row is left alone. -/
def insertFinding (db : Database) (f : ReconciliationFinding) : Database :=
  { db with findings :=
      match db.sameFinding f with
      | some _ => db.findings
      | none => db.findings ++ [db.newFinding f] }

/-- What `InsertReconciliationFinding` answers: an existing row is returned as it is, but only to its own
    tenant. -/
def insertedFinding (db : Database) (f : ReconciliationFinding) : Except GoError ReconciliationFinding :=
  match db.sameFinding f with
  | some old => if old.tenantID = f.tenantID then .ok old else .error (.plain "no rows in result set")
  | none => .ok (db.newFinding f)

/-- `SetReconciliationFindingDirection`: whatever the finding's status is. -/
def setDirection (db : Database) (tenantID id : String) (direction : Direction) : Database :=
  { db with findings := db.findings.map (fun f =>
      if f.tenantID = tenantID ∧ f.id = id then { f with direction := direction } else f) }

def findingsOf (db : Database) (tenantID runID : String) (kinds : List FindingKind) :
    List ReconciliationFinding :=
  db.findings.filter (fun f => f.tenantID = tenantID ∧ f.runID = runID ∧ f.kind ∈ kinds)

/-- `CountReconciliationFindings`: `missing` counts as `missed`. -/
def countFindings (db : Database) (tenantID runID : String) : FindingCounts where
  drift := (db.findingsOf tenantID runID [.drift]).length
  missed := (db.findingsOf tenantID runID [.missed, .missing]).length
  deleted := (db.findingsOf tenantID runID [.deleted]).length

def updateRun (db : Database) (runID : String) (f : ReconciliationRun → ReconciliationRun) : Database :=
  { db with runs := db.runs.map (fun r => if r.id = runID then f r else r) }

/-- The rows `ListCanonicalByProvider` matches. -/
def canonicalsAt (db : Database) (tenantID entityType provider : String) : List CanonicalRecord :=
  db.canonical.rows.filter (fun c =>
    c.tenantID = tenantID ∧ c.entityType = entityType ∧ (c.providerIDs provider).isSome = true)

def runnable (now : Time) (j : SyncJob) : Bool :=
  match j.status with
  | .pending => true
  | .paused => true
  | .running => j.startedAt.any (fun t => t < now - 60000000000)
  | _ => false

def updateJob (db : Database) (id tenantID : String) (f : SyncJob → SyncJob) : Database :=
  { db with jobs := db.jobs.map (fun j => if j.id = id ∧ j.tenantID = tenantID then f j else j) }

/-- One statement. `now` is the database's clock and `pick` chooses among unordered rows. -/
def exec (now : Time) (pick : Nat) : (o : StoreOp) → Database → Except GoError o.Res × Database
  | .claimProcessedEvent key, db =>
    (.ok (!db.processed key), { db with processed := update db.processed key true })
  | .releaseProcessedEvent key, db =>
    (.ok (), { db with processed := update db.processed key false })
  | .listPolicies tenantID, db => (.ok (db.policiesOf tenantID), db)
  | .getConnectionByProvider tenantID provider, db =>
    (rowOrNotFound (anyRow pick (db.connectionsOf tenantID provider)), db)
  | .getCanonical key, db => (rowOrNotFound (db.canonical.get? key), db)
  | .getCanonicalByProvider tenantID entityType provider providerID, db =>
    (rowOrNotFound (anyRow pick (db.canonicalsWithProvider tenantID entityType provider providerID)), db)
  | .getCanonicalByEmail tenantID entityType email, db =>
    (rowOrNotFound (db.canonicalsWithEmail tenantID entityType email).head?, db)
  | .addProviderID key provider providerID, db => (.ok (), db.linkProvider key provider providerID)
  | .upsertCanonical c, db => (.ok (), { db with canonical := db.canonical.upsert c })
  | .persistApplyState c outbound ops, db => (.ok (), db.applyState c outbound ops)
  | .getOutboundWrite key, db => (rowOrNotFound (db.outbound key), db)
  | .upsertOutboundWrite w, db => (.ok (), { db with outbound := writeOutbound db.outbound w })
  | .insertSyncOperation op, db => (.ok (), { db with syncOps := db.syncOps ++ [op] })
  | .insertConflict c, db => (.ok (), db.recordConflict c)
  | .setConflictStatus tenantID id status strategy by_, db =>
    (.ok (), db.setConflict tenantID id status strategy by_)
  | .setSourceEventStatus tenantID eventID old new, db =>
    (.ok (), db.setStatus tenantID eventID (fun s => s = old) new)
  | .setSourceEventStatusTo tenantID eventID new, db =>
    (.ok (), db.setStatus tenantID eventID (fun _ => true) new)
  | .enqueueRetry e delay, db =>
    (.ok (), { db with retryQueue := db.retryQueue.upsert (db.retryRow now e delay) })
  | .claimDueRetries limit, db => (.ok (db.dueRetries now limit), db)
  | .deleteRetry key, db => (.ok (), { db with retryQueue := db.retryQueue.delete key })
  | .insertDeadLetter d, db => (.ok (), db.insertDead d)
  | .resolveDeadLetterForEvent key, db => (.ok (), db.resolveDead key)
  | .getDeadLetter key, db => (rowOrNotFound (db.deadLetters key), db)
  | .setDeadLetterStatus key status, db => (.ok (), db.setDead key status)
  | .getReconciliationFinding tenantID id, db =>
    (rowOrNotFound (db.findings.find? (fun f => f.tenantID = tenantID ∧ f.id = id)), db)
  | .getReconciliationRun tenantID id, db =>
    (rowOrNotFound (db.runs.find? (fun r => r.tenantID = tenantID ∧ r.id = id)), db)
  | .setReconciliationFindingStatus tenantID id status error, db =>
    (.ok (), db.setFinding tenantID id status error)
  | .getTenantBySlug slug, db => (rowOrNotFound (db.tenants.find? (fun t => t.slug = slug)), db)
  | .insertSourceEvent se, db => (.ok (db.sourceEvents se.key).isNone, db.insertSource se)   -- `false`: `ErrDuplicate`
  | .pendingSourceEvents limit, db => (.ok (db.pendingSources limit), db)
  | .getConflict tenantID id, db =>
    (rowOrNotFound (db.conflicts.rows.find? (fun c => c.tenantID = tenantID ∧ c.id = id)), db)
  | .getReconciliationRunByJobID jobID, db =>
    (rowOrNotFound (anyRow pick (db.runs.filter (fun r => r.jobID = some jobID))), db)
  | .insertReconciliationFinding f, db => (db.insertedFinding f, db.insertFinding f)
  | .setReconciliationFindingDirection tenantID id direction, db =>
    (.ok (), db.setDirection tenantID id direction)
  | .countReconciliationFindings tenantID runID, db => (.ok (db.countFindings tenantID runID), db)
  | .updateReconciliationCounters runID total drift missed deleted, db =>
    (.ok (), db.updateRun runID (fun r => { r with total, drift, missed, deleted }))
  | .finishReconciliationRun runID status error, db =>
    (.ok (), db.updateRun runID (fun r => { r with status, error }))
  | .listCanonicalByProvider tenantID entityType provider, db =>
    (.ok (anyOrder pick (db.canonicalsAt tenantID entityType provider)), db)
  | .nextSyncJob, db => (rowOrNotFound (db.jobs.find? (runnable now)), db)
  | .startSyncJob id tenantID, db =>
    (.ok (), db.updateJob id tenantID (fun j =>
      { j with status := .running, startedAt := some (j.startedAt.getD now) }))
  | .updateSyncJobProgress id tenantID cursor processed failed total, db =>
    (.ok (), db.updateJob id tenantID (fun j => { j with cursor, processed, failed, total }))
  | .finishSyncJob id tenantID status error, db =>
    (.ok (), db.updateJob id tenantID (fun j => { j with status, lastError := error }))

end Database

end SyncForge
