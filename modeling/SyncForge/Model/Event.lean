import SyncForge.Connector.Adapter

/-!
# `Model.Event` — synchronization events and their serialized form

`internal/events/events.go`. An event is what a provider's webhook became after ingestion, or a synthetic
event of an operator's conflict resolution or of the reconciliation engine; the worker's retry rows and dead
letters carry one in serialized form.
-/

namespace SyncForge

inductive EventType where
  | created | updated | deleted
  | other (name : String)
deriving DecidableEq, Repr

/-- `events.EventType(name)`. -/
def EventType.ofString (name : String) : EventType :=
  if name = "created" then .created
  else if name = "updated" then .updated
  else if name = "deleted" then .deleted
  else .other name

/-- `events.Provenance`. The worker reads the last two, the marks of an operator's conflict resolution and of
    a reconciliation repair. The empty string is "not marked". -/
structure EventProvenance where
  originSource : String := ""
  originEventID : String := ""
  syncOperationID : String := ""
  resolvedConflictID : String := ""
  reconcileFindingID : String := ""
deriving DecidableEq, Repr

/-- `events.Event`. `fields` is `payload["fields"]` when that is a map. -/
structure Event where
  eventID : String
  tenantID : String
  source : String
  entityType : String
  entityID : String
  eventType : EventType
  sourceVersion : Int
  occurredAt : Time
  provenance : EventProvenance := {}
  fields : Option Data
deriving DecidableEq

/-- The idempotency key `(tenant_id, source, event_id)`. -/
structure EventKey where
  tenantID : String
  source : String
  eventID : String
deriving DecidableEq, Repr

/-- The key `(tenant_id, event_id)` of retry rows and dead letters: the source is not part of it. -/
structure RowKey where
  tenantID : String
  eventID : String
deriving DecidableEq, Repr

namespace Event

def key (ev : Event) : EventKey := ⟨ev.tenantID, ev.source, ev.eventID⟩

def rowKey (ev : Event) : RowKey := ⟨ev.tenantID, ev.eventID⟩

/-- `PartitionKey`: the provider's own entity id, so two providers' events of one customer differ. -/
def partitionKey (ev : Event) : String := ev.tenantID ++ ":" ++ ev.entityType ++ ":" ++ ev.entityID

end Event

/-- Serialized bytes: the text of an event, or something `json.Unmarshal` rejects. -/
inductive Bytes where
  | event (ev : Event)
  | garbage (text : String)
deriving DecidableEq

namespace Bytes

/-- `json.Marshal(ev)`. -/
def marshal (ev : Event) : Bytes := .event ev

/-- `json.Unmarshal(b, &ev)`. -/
def unmarshal : Bytes → Except GoError Event
  | .event ev => .ok ev
  | .garbage text => .error (.plain ("invalid character in " ++ text))

@[simp] theorem unmarshal_marshal (ev : Event) : (marshal ev).unmarshal = .ok ev := rfl

end Bytes

end SyncForge
