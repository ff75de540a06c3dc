import SyncForge.Api.DeadLetter

/-!
# `Api.Webhook` — the webhook gateway

`internal/api/webhooks.go`. A delivery names its provider and its tenant in the URL and is authenticated by an
HMAC of the body under the secret of that connection. What is stored is read from the body: the body's own
`source` wins over the URL's. Every decoding step of `encoding/json` that can reject a body is here; the
grammar of JSON, the time format and the HMAC are parameters.
-/

namespace SyncForge.Api

open Effect
open Effect.Prog (attempt)
open Store

structure Gateway where
  /-- The document a text is, if it is one. -/
  parse : String → Option Json
  parseTime : String → Option Time
  hmac : (secret body : String) → List UInt8

/-- A delivery. `body` is what was read of it (`none` when reading failed), `fresh` what `uuid.NewString`
    would return. -/
structure WebhookRequest where
  provider : String
  tenantSlug : String
  body : Option String
  signature : String
  fresh : String

/-! ## Signatures -/

def hexDigit (c : Char) : Option Nat :=
  if '0' ≤ c ∧ c ≤ '9' then some (c.toNat - '0'.toNat)
  else if 'a' ≤ c ∧ c ≤ 'f' then some (c.toNat - 'a'.toNat + 10)
  else if 'A' ≤ c ∧ c ≤ 'F' then some (c.toNat - 'A'.toNat + 10)
  else none

/-- `hex.DecodeString`. -/
def decodeHex : List Char → Option (List UInt8)
  | [] => some []
  | [_] => none
  | a :: b :: rest => do
    let high ← hexDigit a
    let low ← hexDigit b
    let bytes ← decodeHex rest
    pure (UInt8.ofNat (16 * high + low) :: bytes)

def scheme : List Char := "sha256=".toList

def verifySignature (g : Gateway) (body secret header : String) : Bool :=
  if secret = "" then false
  else if scheme.isPrefixOf header.toList then
    match decodeHex (header.toList.drop scheme.length) with
    | none => false
    | some want => g.hmac secret body = want
  else false

/-! ## Decoding -/

structure ProviderWebhook where
  eventID : String := ""
  source : String := ""
  entityType : String := ""
  entityID : String := ""
  eventType : String := ""
  sourceVersion : Int := 0
  occurredAt : Time := 0
  correlationID : String := ""
  provenance : Option JsonMap := none
  payload : Option JsonMap := none

def ProviderWebhook.set (g : Gateway) (wh : ProviderWebhook) (member : String × Json) :
    Option ProviderWebhook :=
  let v := member.2
  if Json.names member.1 "event_id" then (v.intoString wh.eventID).map (fun x => { wh with eventID := x })
  else if Json.names member.1 "source" then (v.intoString wh.source).map (fun x => { wh with source := x })
  else if Json.names member.1 "entity_type" then (v.intoString wh.entityType).map (fun x => { wh with entityType := x })
  else if Json.names member.1 "entity_id" then (v.intoString wh.entityID).map (fun x => { wh with entityID := x })
  else if Json.names member.1 "event_type" then (v.intoString wh.eventType).map (fun x => { wh with eventType := x })
  else if Json.names member.1 "source_version" then
    (v.intoInt wh.sourceVersion).map (fun x => { wh with sourceVersion := x })
  else if Json.names member.1 "occurred_at" then
    (v.intoTime g.parseTime wh.occurredAt).map (fun x => { wh with occurredAt := x })
  else if Json.names member.1 "correlation_id" then
    (v.intoString wh.correlationID).map (fun x => { wh with correlationID := x })
  else if Json.names member.1 "provenance" then (v.intoMap wh.provenance).map (fun x => { wh with provenance := x })
  else if Json.names member.1 "payload" then (v.intoMap wh.payload).map (fun x => { wh with payload := x })
  else some wh

/-- `json.Unmarshal(body, &wh)`; the document `null` leaves everything empty. -/
def decodeWebhook (g : Gateway) (body : String) : Option ProviderWebhook :=
  match g.parse body with
  | some .null => some {}
  | some (.obj members _ _) => members.foldlM (ProviderWebhook.set g) {}
  | _ => none

/-- `unmarshalToMap`, as the value stored under `webhook`. -/
def unmarshalToMap (g : Gateway) (body : String) : Json :=
  match g.parse body with
  | some (.obj members sprint json) => .obj members sprint json
  | _ => .null

/-! ## The handler -/

def webhookRow (g : Gateway) (r : WebhookRequest) (tenant : Tenant) (body : String) (wh : ProviderWebhook) :
    SourceEvent where
  tenantID := tenant.id
  source := if wh.source = "" then r.provider else wh.source
  eventID := if wh.eventID = "" then r.fresh else wh.eventID
  entityType := wh.entityType
  entityID := wh.entityID
  eventType := wh.eventType
  sourceVersion := wh.sourceVersion
  occurredAt := some wh.occurredAt
  provenance := wh.provenance.getD []
  raw := [("webhook", unmarshalToMap g body)]

/-- The end of `handleWebhook`: store the row, and say whether it is new. -/
def storeWebhook (row : SourceEvent) : Sync Response := do
  match ← attempt (stmt (.insertSourceEvent row)) with
  | .error _ => pure ⟨500, "failed to persist event"⟩
  | .ok false => pure ⟨200, "duplicate"⟩
  | .ok true => pure ⟨202, "received"⟩

/-- What `handleWebhook` does with the body, once it knows the connection. -/
def receive (g : Gateway) (r : WebhookRequest) (tenant : Tenant) (conn : Connection) : Sync Response :=
  match r.body with
  | none => pure ⟨400, "failed to read body"⟩
  | some body =>
    if verifySignature g body conn.webhookSecret r.signature = false then pure ⟨401, "invalid signature"⟩
    else
      match decodeWebhook g body with
      | none => pure ⟨400, "malformed webhook payload"⟩
      | some wh =>
        if wh.entityType = "" ∨ wh.entityID = "" then pure ⟨400, "missing entity_type/entity_id"⟩
        else storeWebhook (webhookRow g r tenant body wh)

def handleWebhook (g : Gateway) (r : WebhookRequest) : Sync Response := do
  match ← attempt (stmt (.getTenantBySlug r.tenantSlug)) with
  | .error .notFound => pure ⟨404, "unknown tenant"⟩
  | .error _ => pure ⟨500, "internal error"⟩
  | .ok tenant =>
    match ← attempt (stmt (.getConnectionByProvider tenant.id r.provider)) with
    | .error .notFound => pure ⟨404, "no connection for provider"⟩
    | .error _ => pure ⟨500, "internal error"⟩
    | .ok conn => receive g r tenant conn

end SyncForge.Api
