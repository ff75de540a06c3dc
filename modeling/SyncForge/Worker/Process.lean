import SyncForge.World

/-!
# `Worker.Process` — the synchronization worker

`internal/syncworker/worker.go`, function by function, as programs over the calls of `World`: an early `return
err` is the program's throw, and a call whose error is ignored is made through `attempt`. Metrics, spans and
log lines are left out. An `Outcome` remembers which
`return nil` was taken.
-/

namespace SyncForge

open Effect
open Effect.Prog (attempt ofExcept perform)

/-! ## Store statements as programs -/

namespace Store

abbrev stmt (o : StoreOp) : Sync o.Res := perform (S := sig) (.store o)

def tryStmt (o : StoreOp) : Sync Unit := do
  let _ ← attempt (stmt o)
  pure ()

end Store

open Store

/-! ## Reaching a provider -/

structure Remote where
  adapter : Adapter
  endpoint : Endpoint

/-- `adapterFor`, through `registry.New`. -/
def adapterFor (env : Env) (conn : Connection) : Except GoError Remote :=
  match env.registry conn.provider with
  | some adapter => .ok ⟨adapter, ⟨conn.provider, conn.baseURL⟩⟩
  | none => .error (.plain ("unsupported provider: " ++ conn.provider))

/-- `GetConnectionByProvider` followed by `adapterFor`. -/
def connect (env : Env) (tenant provider : String) : Sync Remote := do
  let conn ← stmt (.getConnectionByProvider tenant provider)
  ofExcept (adapterFor env conn)

def canonicalEntityType (env : Env) (ev : Event) : Sync String := do
  let src ← connect env ev.tenantID ev.source
  pure src.adapter.canonicalEntityType

def writeDestination (env : Env) (tenant destination : String) (cust : Customer)
    (canonical : CanonicalRecord) : Sync CanonicalRecord := do
  let dst ← connect env tenant destination
  let dstRec := dst.adapter.denormalize cust
  -- no id known there, or an empty one: the record is created, and the new id is remembered
  if canonical.providerID destination = "" then
    let created ← perform (S := sig) (.create dst.endpoint dstRec.data)
    pure (canonical.setProviderID destination created.id)
  else
    let _ ← perform (S := sig) (.update dst.endpoint (canonical.providerID destination) dstRec.data)
    pure canonical

/-- `recordSyncOperation`: a ledger row, best effort. -/
def recordSyncOperation (tenant entityType entityID source target : String) (version : Int)
    (eventID fingerprint : String) : Sync Unit :=
  tryStmt (.insertSyncOperation
    { tenantID := tenant, entityType, entityID, source, targetSource := target, eventID,
      appliedVersion := version, fingerprint })

/-! ## Upserts -/

def missingFields : GoError := .newError .schema "event payload missing fields"

/-- `resolveCanonical`: by provider id, then by e-mail, else a new record. -/
def resolveCanonical (ev : Event) (entityType : String) (cust : Customer) : Sync CanonicalRecord := do
  let fresh : CanonicalRecord :=
    { tenantID := ev.tenantID, entityType, entityID := ev.entityID
      providerIDs := Function.update (fun _ => none) ev.source (some ev.entityID) }
  match ← attempt (stmt (.getCanonicalByProvider ev.tenantID entityType ev.source ev.entityID)) with
  | .ok canonical => pure canonical
  | .error .notFound =>
    if cust.email ≠ "" then
      match ← attempt (stmt (.getCanonicalByEmail ev.tenantID entityType cust.email)) with
      | .ok canonical => do
        -- stored at once, whatever becomes of the event
        stmt (.addProviderID canonical.key ev.source ev.entityID)
        pure (canonical.setProviderID ev.source ev.entityID)
      | .error .notFound => pure fresh
      | .error e => .throw e
    else pure fresh
  | .error e => .throw e

/-- `isEcho`: the fingerprint last written to this source is the event's own. -/
def isEcho (env : Env) (tenant entityType entityID source : String) (cust : Customer) : Sync Bool := do
  match ← attempt (stmt (.getOutboundWrite ⟨tenant, entityType, entityID, source⟩)) with
  | .ok outbound => pure (outbound.fingerprint = cust.fingerprint env.hash)
  | .error .notFound => pure false
  | .error e => .throw e

def strategyOf : List SyncPolicy → Conflict.Strategy
  | [] => .lastWriteWins
  | p :: _ => if p.conflictStrategy = .other "" then .lastWriteWins else p.conflictStrategy

def priorityOf : List SyncPolicy → Int
  | [] => 100
  | p :: _ => p.sourcePriority

/-- `recordConflict`: one row for the first detected field; its error is ignored by both callers. -/
def recordConflict (ev : Event) (entityType : String) (canonical : CanonicalRecord) (incoming : FieldMap)
    (detected : List (Conflict.FieldConflict Field Any)) (status : ConflictStatus)
    (strategy : Conflict.Strategy) : Sync Unit :=
  match detected with
  | [] => pure ()
  | c :: _ =>
    tryStmt (.insertConflict
      { tenantID := ev.tenantID, entityType, entityID := canonical.entityID
        sourceA := c.a.source, versionA := c.a.version, payloadA := canonical.fields
        sourceB := c.b.source, versionB := c.b.version, payloadB := incoming
        status, resolutionStrategy := strategy })

/-- Step 5 of `applyUpsert`: write the customer to every destination, collecting the fingerprints and
    ledger rows to persist. -/
def propagate (env : Env) (ev : Event) (entityType : String) (cust : Customer) :
    List SyncPolicy → CanonicalRecord → List OutboundWrite → List SyncOperation →
      Sync (CanonicalRecord × List OutboundWrite × List SyncOperation)
  | [], canonical, outbound, ops => pure (canonical, outbound, ops)
  | policy :: policies, canonical, outbound, ops => do
    let canonical ← writeDestination env ev.tenantID policy.destination cust canonical
    let write : OutboundWrite :=
      { tenantID := ev.tenantID, entityType, entityID := canonical.entityID
        targetSource := policy.destination, fingerprint := cust.fingerprint env.hash
        appliedVersion := ev.sourceVersion }
    let op : SyncOperation :=
      { tenantID := ev.tenantID, entityType, entityID := canonical.entityID, source := ev.source
        targetSource := policy.destination, eventID := ev.eventID, appliedVersion := ev.sourceVersion
        fingerprint := cust.fingerprint env.hash }
    propagate env ev entityType cust policies canonical (outbound ++ [write]) (ops ++ [op])

def appliedRecord (ev : Event) (cust : Customer) (canonical : CanonicalRecord) : CanonicalRecord :=
  { canonical.setSourceVersion ev.source ev.sourceVersion with
    fields := cust.fields
    version := canonical.version + 1
    originSource := ev.source
    originEventID := ev.eventID
    tombstone := false }

/-- Steps 5 and 6 of `applyUpsert`: propagate the merged customer and persist everything at once. -/
def applyMerged (env : Env) (ev : Event) (entityType : String) (policies : List SyncPolicy)
    (cust : Customer) (canonical : CanonicalRecord) : Sync Unit := do
  let (canonical, outbound, ops) ← propagate env ev entityType cust policies canonical [] []
  stmt (.persistApplyState (appliedRecord ev cust canonical) outbound ops)

/-- Step 4 of `applyUpsert` and what follows it: detect and resolve conflicts, then apply or park. -/
def mergeAndApply (env : Env) (ev : Event) (entityType : String) (policies : List SyncPolicy)
    (cust : Customer) (canonical : CanonicalRecord) : Sync Unit := do
  let strategy := strategyOf policies
  let merged := Conflict.merge strategy canonical.fields canonical.fieldProvenance cust.fieldEntries
    ⟨ev.source, ev.sourceVersion, ev.occurredAt, priorityOf policies⟩
  -- parked for an operator: the event counts as handled, and nothing is applied
  if merged.manual then
    recordConflict ev entityType canonical cust.fields merged.detected .pending strategy
  else
    recordConflict ev entityType canonical cust.fields merged.detected .autoResolved strategy
    applyMerged env ev entityType policies (cust.fromFields merged.fields)
      { canonical with fieldProvenance := merged.provenance }

/-- The propagation loop of `applyResolution` and `applyAdoptProvider`: each destination's fingerprint is
    recorded as soon as the destination is written. -/
def propagateNow (env : Env) (tenant entityType eventID source : String) (version : Int) (cust : Customer) :
    List SyncPolicy → CanonicalRecord → Sync CanonicalRecord
  | [], canonical => pure canonical
  | policy :: policies, canonical => do
    let canonical ← writeDestination env tenant policy.destination cust canonical
    stmt (.upsertOutboundWrite
      { tenantID := tenant, entityType, entityID := canonical.entityID
        targetSource := policy.destination, fingerprint := cust.fingerprint env.hash })
    recordSyncOperation tenant entityType canonical.entityID source policy.destination version eventID
      (cust.fingerprint env.hash)
    propagateNow env tenant entityType eventID source version cust policies canonical

def resolutionProvenance (ev : Event) (fp : Field → Option Conflict.Provenance) (fields : FieldMap) :
    Field → Option Conflict.Provenance := fun f =>
  match fields f with
  | none => fp f
  | some _ => some ⟨ev.source, ev.sourceVersion, ev.occurredAt, ((fp f).map (·.priority)).getD 100⟩

/-- `applyResolution`: an operator's choice, written everywhere without any check. -/
def applyResolution (env : Env) (ev : Event) (entityType : String) (policies : List SyncPolicy)
    (fields : FieldMap) : Sync Unit := do
  match ← attempt (stmt (.getCanonical ⟨ev.tenantID, entityType, ev.entityID⟩)) with
  | .error .notFound => pure ()
  | .error e => .throw e
  | .ok canonical => do
    -- fields the payload does not carry are written as empty strings
    let cust := ({ entityID := canonical.entityID } : Customer).fromFields fields
    let canonical ← propagateNow env ev.tenantID entityType ev.eventID ev.source ev.sourceVersion cust
      policies canonical
    stmt (.upsertCanonical
      { appliedRecord ev cust canonical with
        fieldProvenance := resolutionProvenance ev canonical.fieldProvenance fields })
    tryStmt (.setConflictStatus ev.tenantID ev.provenance.resolvedConflictID .resolved .manual "operator")

def canonicalFields (data : Data) : FieldMap := fun f => data.lookup f.name

/-- `applyUpsert` for a provider's own event: identity, ordering, echo, then merge. -/
def applySourceEvent (env : Env) (ev : Event) (entityType : String) (policies : List SyncPolicy)
    (fields : Data) : Sync Unit := do
  let src ← connect env ev.tenantID ev.source
  let srcRec : ProviderRecord := { id := ev.entityID, sourceVersion := ev.sourceVersion, data := fields }
  ofExcept (src.adapter.validate srcRec)
  let cust := src.adapter.normalize srcRec
  let canonical ← resolveCanonical ev entityType cust
  if ev.sourceVersion ≤ canonical.sourceVersions ev.source then
    pure ()   -- stale
  else
    let echo ← isEcho env ev.tenantID entityType canonical.entityID ev.source cust
    if echo then
      pure ()   -- our own write coming back
    else
      mergeAndApply env ev entityType policies cust canonical

def applyUpsert (env : Env) (ev : Event) (entityType : String) (policies : List SyncPolicy) : Sync Unit :=
  match ev.fields with
  | none => .throw missingFields
  | some fields =>
    if fields.entries = [] then .throw missingFields
    else if ev.provenance.resolvedConflictID ≠ "" then
      applyResolution env ev entityType policies (canonicalFields fields)
    else
      applySourceEvent env ev entityType policies fields

/-! ## Deletes -/

/-- The propagation loop of `applyDelete`: destinations whose policy propagates deletes and that have the
    record. -/
def propagateDelete (env : Env) (ev : Event) (entityType : String) (canonical : CanonicalRecord) :
    List SyncPolicy → Sync Unit
  | [] => pure ()
  | policy :: policies => do
    if policy.deletePolicy = .propagate ∧ canonical.providerID policy.destination ≠ "" then
      let dst ← connect env ev.tenantID policy.destination
      perform (S := sig) (.delete dst.endpoint (canonical.providerID policy.destination))
      recordSyncOperation ev.tenantID entityType canonical.entityID ev.source policy.destination
        ev.sourceVersion ev.eventID ""
      propagateDelete env ev entityType canonical policies
    else
      propagateDelete env ev entityType canonical policies

def tombstoned (ev : Event) (canonical : CanonicalRecord) : CanonicalRecord :=
  { canonical.setSourceVersion ev.source ev.sourceVersion with
    tombstone := true
    version := canonical.version + 1
    originSource := ev.source
    originEventID := ev.eventID }

def applyDelete (env : Env) (ev : Event) (entityType : String) (policies : List SyncPolicy) : Sync Unit := do
  match ← attempt (stmt (.getCanonicalByProvider ev.tenantID entityType ev.source ev.entityID)) with
  | .error .notFound => pure ()
  | .error e => .throw e
  | .ok canonical =>
    if canonical.tombstone then
      pure ()
    else do
      -- no version is compared: a delete older than the record deletes it too
      propagateDelete env ev entityType canonical policies
      stmt (.upsertCanonical (tombstoned ev canonical))

/-! ## Reconciliation repairs -/

def reconcileApplied (finding : ReconciliationFinding) : Sync Unit :=
  tryStmt (.setReconciliationFindingStatus finding.tenantID finding.id .applied none)

def reconcileSkip (finding : ReconciliationFinding) (reason : String) : Sync Unit :=
  tryStmt (.setReconciliationFindingStatus finding.tenantID finding.id .skipped (some reason))

def reconcileFail (finding : ReconciliationFinding) (cause : GoError) : Sync Unit := do
  tryStmt (.setReconciliationFindingStatus finding.tenantID finding.id .failed (some cause.error))
  .throw cause

/-- Direction `delete`: a record the provider no longer has counts as deleted. -/
def repairDelete (ev : Event) (entityType : String) (finding : ReconciliationFinding) (source : String)
    (src : Remote) : Sync Unit := do
  match ← attempt (perform (S := sig) (.delete src.endpoint finding.providerID)) with
  | .ok _ => do
    recordSyncOperation ev.tenantID entityType finding.canonicalID source source finding.providerVersion
      ev.eventID ""
    reconcileApplied finding
  | .error e =>
    if e.isKind .notFound then do
      recordSyncOperation ev.tenantID entityType finding.canonicalID source source finding.providerVersion
        ev.eventID ""
      reconcileApplied finding
    else reconcileFail finding e

/-- The end of direction `push_canonical`, once the provider has the record. -/
def pushed (env : Env) (ev : Event) (entityType : String) (finding : ReconciliationFinding) (source : String)
    (cust : Customer) (canonical : CanonicalRecord) (providerID : String) (version : Int) : Sync Unit := do
  stmt (.upsertCanonical
    { (canonical.setProviderID source providerID).setSourceVersion source version with
      version := canonical.version + 1, tombstone := false })
  stmt (.upsertOutboundWrite
    { tenantID := ev.tenantID, entityType, entityID := canonical.entityID, targetSource := source
      fingerprint := cust.fingerprint env.hash, appliedVersion := version })
  recordSyncOperation ev.tenantID entityType canonical.entityID source source finding.providerVersion
    ev.eventID (cust.fingerprint env.hash)
  reconcileApplied finding

/-- Direction `push_canonical` for a record the provider does not have. -/
def repairCreate (env : Env) (ev : Event) (entityType : String) (finding : ReconciliationFinding)
    (source : String) (src : Remote) (cust : Customer) (canonical : CanonicalRecord) : Sync Unit := do
  match ← attempt (perform (S := sig) (.create src.endpoint (src.adapter.denormalize cust).data)) with
  | .error e => reconcileFail finding e
  | .ok created => pushed env ev entityType finding source cust canonical created.id created.sourceVersion

/-- Direction `push_canonical`: update the provider's record, or create it anew when it is gone. -/
def repairPush (env : Env) (ev : Event) (entityType : String) (finding : ReconciliationFinding)
    (source : String) (src : Remote) : Sync Unit := do
  match ← attempt (stmt (.getCanonical ⟨ev.tenantID, entityType, finding.canonicalID⟩)) with
  | .error .notFound => reconcileSkip finding "canonical record gone"
  | .error e => .throw e
  | .ok canonical => do
    let cust := ({ entityID := canonical.entityID } : Customer).fromFields canonical.fields
    if finding.kind = .missing ∨ finding.providerID = "" then
      repairCreate env ev entityType finding source src cust canonical
    else
      match ← attempt (perform (S := sig)
          (.update src.endpoint finding.providerID (src.adapter.denormalize cust).data)) with
      | .ok updated =>
        pushed env ev entityType finding source cust canonical finding.providerID updated.sourceVersion
      | .error e =>
        if e.isKind .notFound then repairCreate env ev entityType finding source src cust canonical
        else reconcileFail finding e

/-- The identity resolution of `applyAdoptProvider`. -/
def adoptCanonical (ev : Event) (entityType : String) (finding : ReconciliationFinding) (source : String)
    (cust : Customer) : Sync CanonicalRecord := do
  match ← attempt (stmt (.getCanonicalByProvider ev.tenantID entityType source finding.providerID)) with
  | .ok canonical => pure canonical
  | .error .notFound =>
    match ← attempt (stmt (.getCanonicalByEmail ev.tenantID entityType cust.email)) with
    | .ok canonical => do
      stmt (.addProviderID canonical.key source finding.providerID)
      pure (canonical.setProviderID source finding.providerID)
    | .error .notFound =>
      pure { tenantID := ev.tenantID, entityType, entityID := finding.providerID
             providerIDs := Function.update (fun _ => none) source (some finding.providerID) }
    | .error e => .throw e
  | .error e => .throw e

/-- `applyAdoptProvider`: the provider's fields become canonical and go to every destination of its. -/
def applyAdoptProvider (env : Env) (ev : Event) (entityType : String) (policies : List SyncPolicy)
    (finding : ReconciliationFinding) (source : String) : Sync Unit := do
  let cust := ({ entityID := finding.providerID } : Customer).fromFields finding.providerFields
  let found ← adoptCanonical ev entityType finding source cust
  let canonical := if found.entityID = "" then { found with entityID := finding.providerID } else found
  let cust := { cust with entityID := canonical.entityID }
  let canonical ← propagateNow env ev.tenantID entityType ev.eventID source finding.providerVersion cust
    (policies.filter (fun p => p.source = source)) canonical
  stmt (.upsertCanonical
    { canonical.setSourceVersion source finding.providerVersion with
      fields := cust.fields
      fieldProvenance := fun _ => some ⟨source, finding.providerVersion, ev.occurredAt, 100⟩
      version := canonical.version + 1
      originSource := source
      originEventID := ev.eventID
      tombstone := false })
  reconcileApplied finding

def applyReconcileFinding (env : Env) (ev : Event) (entityType : String) (policies : List SyncPolicy) :
    Sync Unit := do
  match ← attempt (stmt (.getReconciliationFinding ev.tenantID ev.provenance.reconcileFindingID)) with
  | .error .notFound => pure ()
  | .error e => .throw e
  | .ok finding =>
    -- an earlier attempt marked it, be it as failed
    if finding.status ≠ .pending then
      pure ()
    else do
      let run ← stmt (.getReconciliationRun ev.tenantID finding.runID)
      let src ← connect env ev.tenantID run.source
      match finding.direction with
      | .delete => repairDelete ev entityType finding run.source src
      | .pushCanonical => repairPush env ev entityType finding run.source src
      | .adoptProvider => applyAdoptProvider env ev entityType policies finding run.source
      | .other name => reconcileFail finding (.plain ("unknown reconcile direction \"" ++ name ++ "\""))

/-! ## One event -/

/-- Which `return nil` of `Process` was taken. -/
inductive Outcome where
  | duplicate | reconciled | noPolicy | applied
deriving DecidableEq, Repr

/-- How the middle of `Process` went. -/
inductive Dispatched where
  | reconciled | noPolicy | applied
deriving DecidableEq, Repr

def targets (ev : Event) (entityType : String) (policies : List SyncPolicy) : List SyncPolicy :=
  policies.filter (fun p => p.source = ev.source ∧ p.entity = entityType)

/-- The middle of `Process`: everything between the claim and what is done about its outcome. -/
def dispatch (env : Env) (ev : Event) : Sync Dispatched := do
  let policies ← stmt (.listPolicies ev.tenantID)
  let entityType ← canonicalEntityType env ev
  if ev.provenance.reconcileFindingID ≠ "" then
    applyReconcileFinding env ev entityType policies
    pure .reconciled
  else if targets ev entityType policies = [] then
    pure .noPolicy
  else if ev.eventType = .deleted then
    applyDelete env ev entityType (targets ev entityType policies)
    pure .applied
  else
    applyUpsert env ev entityType (targets ev entityType policies)
    pure .applied

def mark (ev : Event) (status : SourceEventStatus) : Sync Unit :=
  tryStmt (.setSourceEventStatus ev.tenantID ev.eventID .validated status)

def release (ev : Event) (status : SourceEventStatus) : Sync Unit := do
  tryStmt (.releaseProcessedEvent ev.key)
  mark ev status

def fail (ev : Event) : Sync Unit := release ev .failed

/-- What `Process` does once the event is claimed. -/
def processClaimed (env : Env) (ev : Event) : Sync Outcome := do
  match ← attempt (dispatch env ev) with
  | .error e => do
    fail ev
    .throw e
  | .ok .noPolicy => do
    -- the claim goes, so that the event can be sent again once there is a policy
    release ev .processed
    pure .noPolicy
  | .ok .reconciled => do
    mark ev .processed
    pure .reconciled
  | .ok .applied => do
    mark ev .processed
    pure .applied

def process (env : Env) (ev : Event) : Sync Outcome := do
  let claimed ← stmt (.claimProcessedEvent ev.key)
  if claimed then processClaimed env ev else pure .duplicate

/-! ## Failure hand-off -/

def int64 (n : Int) : Int := n.bmod (2 ^ 64)

/-- `backoff.ComputeDelay`, its random factor `0.7 + 0.6 * r` given as `r = jitter / 2^53`. -/
def computeDelay (failures : Int) (base max : Duration) (jitter : Nat) : Duration :=
  let failures := if failures < 1 then 1 else failures
  let base := if base ≤ 0 then 1000000000 else base
  let max := if max ≤ 0 then 60000000000 else max
  -- the shift and the product wrap around; a result that is not positive counts as too large
  let exp := int64 (base * int64 (2 ^ (failures - 1).toNat))
  let exp := if exp > max ∨ exp ≤ 0 then max else exp
  let delay := exp * (7 * 2 ^ 53 + 6 * (jitter % 2 ^ 53 : Nat)) / (10 * 2 ^ 53)
  if delay > max then max else delay

/-- The delay of a retry: a provider's `Retry-After` shortens it, the configured maximum caps it. -/
def retryDelay (options : Options) (failures : Int) (retryAfter : Duration) (jitter : Nat) : Duration :=
  let delay := computeDelay failures options.retryBaseDelay options.retryMaxDelay jitter
  let delay := if retryAfter > 0 ∧ retryAfter < delay then retryAfter else delay
  if delay > options.retryMaxDelay then options.retryMaxDelay else delay

def deadLetter (ev : Event) (reason errorClass : String) : Sync Unit := do
  stmt (.insertDeadLetter
    { tenantID := ev.tenantID, eventID := ev.eventID, reason, errorClass, payload := .marshal ev })
  tryStmt (.setSourceEventStatusTo ev.tenantID ev.eventID .dlq)

def dispatchFailure (env : Env) (ev : Event) (cause : GoError) : Sync Unit := do
  let kind := cause.classify.1
  let retryAfter := cause.classify.2
  if kind.shouldRetry then
    let jitter ← perform (S := sig) .random
    stmt (.enqueueRetry
      { tenantID := ev.tenantID, eventID := ev.eventID, maxAttempts := env.options.retryMaxAttempts
        lastError := cause.error, errorClass := kind.string, state := .marshal ev }
      (retryDelay env.options 1 retryAfter jitter))
  else
    deadLetter ev cause.error kind.string

/-- `Handle`. A failed event is acknowledged only once it is durable. -/
def handle (env : Env) (value : Bytes) : Sync Unit := do
  let ev ← ofExcept value.unmarshal
  match ← attempt (process env ev) with
  | .ok _ => pure ()
  | .error e => dispatchFailure env ev e

end SyncForge
