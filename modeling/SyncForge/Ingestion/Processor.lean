import SyncForge.Worker.Process

/-!
# `Ingestion.Processor` — from stored webhooks to the topic

`internal/ingestion/processor.go`. The gateway stores a webhook and answers; `drain` takes the oldest stored
events nobody has published, puts each on the topic and marks it. An event whose message fails stays
`received` and is taken again by the next `drain`. The mark names the event by tenant and event id; which
source it came from is not asked.
-/

namespace SyncForge.Ingestion

open Effect
open Effect.Prog (attempt perform)
open Store

def provenanceText (se : SourceEvent) (key : String) : String :=
  ((JsonMap.get? se.provenance key).bind Json.asString).getD ""

/-- `Raw["webhook"]["payload"]`, when both are maps. -/
def payload (se : SourceEvent) : Option JsonMap := do
  let webhook ← (JsonMap.get? se.raw "webhook").bind Json.asMap
  (JsonMap.get? webhook "payload").bind Json.asMap

/-- `fromSourceEvent`: of the stored provenance, three fields are copied. A missing time is the zero time. -/
def fromSourceEvent (se : SourceEvent) : Event where
  eventID := se.eventID
  tenantID := se.tenantID
  source := se.source
  entityType := se.entityType
  entityID := se.entityID
  eventType := .ofString se.eventType
  sourceVersion := se.sourceVersion
  occurredAt := se.occurredAt.getD 0
  provenance :=
    { originSource := provenanceText se "origin_source"
      originEventID := provenanceText se "origin_event_id"
      syncOperationID := provenanceText se "sync_operation_id" }
  fields := ((payload se).bind (fun p => JsonMap.get? p "fields")).bind (fun f => f.asMap.map JsonMap.toData)

def message (se : SourceEvent) : String × Bytes :=
    ((fromSourceEvent se).partitionKey, .marshal (fromSourceEvent se))

/-- The loop of `drain`. -/
def drainRows : List SourceEvent → Sync Unit
  | [] => pure ()
  | se :: rest => do
    match ← attempt (perform (S := sig) (.publish (message se).1 (message se).2)) with
    | .error _ => drainRows rest   -- stays 'received', so the next poll retries
    | .ok _ => do
      tryStmt (.setSourceEventStatus se.tenantID se.eventID .received .validated)
      drainRows rest

def batchSize : Int := 100

def drain : Sync Unit := do
  match ← attempt (stmt (.pendingSourceEvents batchSize)) with
  | .error _ => pure ()
  | .ok pending => drainRows pending

end SyncForge.Ingestion
