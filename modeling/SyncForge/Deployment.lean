import SyncForge.Bridge.Refinement

/-!
# `Deployment` — a small concrete installation

One tenant with a Salesforce and a HubSpot connection, as `docs/` describes it: the registry of the source,
two empty simulators and the policies one asks for. Concrete runs are evaluated here; the fingerprint hash is
the identity, so two fingerprints are equal exactly when the hashed texts are.
-/

namespace SyncForge.Deployment

open Relational

def env : Env where
  registry := registry
  hash := id
  uuid := fun n => String.ofList (List.replicate n 'u')
  uuid_injective := by
    intro m n h
    simpa using congrArg String.length h

def tenant : String := "t1"

def sf : Endpoint := ⟨"salesforce", "http://sf"⟩

def hub : Endpoint := ⟨"hubspot", "http://hub"⟩

def sims (ep : Endpoint) : SimServer :=
  if ep = sf then { spec := ⟨"salesforce", "customer", "id", "sf-", tenant⟩ }
  else { spec := ⟨"hubspot", "contact", "contact_id", "hub-", tenant⟩ }

def policy (source destination : String) : SyncPolicy :=
  { tenantID := tenant, entity := "customer", source, destination }

def world (policies : List SyncPolicy) : World where
  db :=
    { policies := policies.foldl Table.upsert .empty
      connections := [⟨tenant, "salesforce", "http://sf", ""⟩, ⟨tenant, "hubspot", "http://hub", ""⟩] }
  sims := sims

def record (a : Adapter) (first last email : String) : Data :=
  (((∅ : Data).insert (a.native .firstName) (.str first)).insert (a.native .lastName) (.str last)).insert
    (a.native .email) (.str email)

def sweepJob : SyncJob :=
  { id := "j1", tenantID := tenant, source := "salesforce", destination := "salesforce", type := .reconcile,
    status := .running }

def sweepOf (mode : RunMode) : ReconciliationRun :=
  { id := "r1", tenantID := tenant, source := "salesforce", entity := "customer", mode, jobID := some "j1" }

/-- A webhook event of Salesforce for its record `sf-1`. -/
def sfEvent (id : String) (type : EventType) (version : Int) (at_ : Time) (data : Data) : Event where
  eventID := id
  tenantID := tenant
  source := "salesforce"
  entityType := "customer"
  entityID := "sf-1"
  eventType := type
  sourceVersion := version
  occurredAt := at_
  fields := some data

def annCreated : Event := sfEvent "e1" .created 1 1 (record salesforce "Ann" "Lee" "ann@x")

/-! ## A customer linked in both systems -/

open Bridge
open Relay (Side)

def ann : Values
  | .firstName => "Ann"
  | .lastName => "Lee"
  | .email => "ann@x"
  | .phone => ""
  | .company => ""

def direction (byField : Bool) (x : Side) : SyncPolicy :=
  let strategy := if byField then Conflict.Strategy.fieldMerge else .lastWriteWins
  match x with
  | .a => { policy "salesforce" "hubspot" with conflictStrategy := strategy }
  | .b => { policy "hubspot" "salesforce" with conflictStrategy := strategy }

/-- Ann is `sf-1` in Salesforce and `hub-1` in HubSpot. -/
def link (byField : Bool) : Link env where
  tenant := tenant
  entityType := "customer"
  entityID := "sf-1"
  name | .a => "salesforce" | .b => "hubspot"
  baseURL | .a => "http://sf" | .b => "http://hub"
  recordID | .a => "sf-1" | .b => "hub-1"
  idKey | .a => "id" | .b => "contact_id"
  adapter | .a => salesforce | .b => hubspot
  policy := direction byField
  name_ne := by decide
  registered x := by cases x <;> rfl
  entityType_eq x := by cases x <;> rfl
  recordID_ne x := by cases x <;> decide
  idKey_ne x f := by cases x <;> cases f <;> decide
  destination_eq x := by cases x <;> rfl
  laterWins x := by cases byField <;> cases x <;> first | exact Or.inl rfl | exact Or.inr rfl

def annRow : CanonicalRecord where
  tenantID := tenant
  entityType := "customer"
  entityID := "sf-1"
  fields f := some (.str (ann f))
  version := 1
  sourceVersions source := if source = "salesforce" then 1 else 0
  fieldProvenance _ := some ⟨"salesforce", 1, 1, 100⟩
  originSource := "salesforce"
  originEventID := "e1"
  providerIDs provider :=
    if provider = "salesforce" then some "sf-1" else if provider = "hubspot" then some "hub-1" else none

def holding (spec : SimSpec) (a : Adapter) (id : String) : SimServer where
  spec := spec
  records := Table.empty.upsert
    { id, version := 1, updatedAt := 1, deleted := false, data := (a.denormalize (customerOf ann)).data }
  nextID := 1
  clock := 1

def linked (byField : Bool) : World where
  db :=
    { policies := [direction byField .a, direction byField .b].foldl Table.upsert .empty
      connections := (world []).db.connections
      canonical := Table.empty.upsert annRow
      outbound := Function.update (fun _ => none) ⟨tenant, "customer", "sf-1", "hubspot"⟩
        (some { tenantID := tenant, entityType := "customer", entityID := "sf-1", targetSource := "hubspot"
                fingerprint := fingerprintOf env.hash ann, appliedVersion := 1 }) }
  sims ep := if ep = sf then holding (sims sf).spec salesforce "sf-1" else holding (sims hub).spec hubspot "hub-1"

def inSync : State where
  canonical := ann
  provenance _ := some ⟨"salesforce", 1, 1, 100⟩
  sourceVersion | .a => 1 | .b => 0
  lastWritten | .a => none | .b => some (fingerprintOf env.hash ann)
  held _ := ⟨1, ann⟩
  clock _ := 1
  pending := []
  writes := []

theorem holding_holds (byField : Bool) (x : Side) {spec : SimSpec} (hname : spec.name = (link byField).name x)
    (htenant : spec.tenantID = tenant) (hid : spec.idKey = (link byField).idKey x) :
    (link byField).Holds x (holding spec ((link byField).adapter x) ((link byField).recordID x))
    ⟨1, ann⟩ 1 where
  name := hname
  tenantID := htenant
  idKey := hid
  clock := rfl
  record := by
    refine ⟨_, Table.get?_upsert_self, rfl, fun f => ?_⟩
    show Adapter.s (Data.get _ _) = ann f
    rw [Data.get, Adapter.get_denormalize, get_customerOf]
    rfl

theorem linked_shows (byField : Bool) : Shows (link byField) (linked byField) inSync where
  fair := ⟨fun _ => ⟨0, rfl⟩, fun _ => rfl⟩
  policies x := by cases byField <;> cases x <;> decide
  connections x := ⟨"", by cases x <;> rfl⟩
  canonical := by
    refine ⟨annRow, Table.get?_upsert_self, rfl, rfl, fun x => ?_, fun x => ?_⟩
    · cases x <;> rfl
    · cases x <;> rfl
  linked c hc x _ _ _ := by
    rw [show c = annRow from List.mem_singleton.mp hc]
    rfl
  outbound x := by cases x <;> rfl
  providers x := by
    cases x with
    | a => exact holding_holds byField .a rfl rfl rfl
    | b => exact holding_holds byField .b rfl rfl rfl
  pending := .nil
  fresh := by
    refine ⟨fun ev hev => ?_, List.nodup_nil, fun i _ ev hev => ?_, fun _ _ _ _ => rfl⟩
    · cases hev
    · cases hev
  mutations := rfl

end SyncForge.Deployment
