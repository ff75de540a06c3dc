import SyncForge.Model.Event
import SyncForge.Relational.Table
import Mathlib.Data.List.Sort
import Mathlib.Data.String.Basic

/-!
# `Simulator.Server` — a provider's record store and its webhooks

`internal/simulator`: the external systems SyncForge talks to. Every write bumps the record's version, stamps
the provider's own clock and is announced by one webhook that carries the whole record. The webhook reaches
the worker as an `Event` (gateway and ingestion copy it field by field under the receiving tenant).
-/

namespace SyncForge

open Relational

/-- `simulator.Spec`, with the tenant its webhook URL points to. -/
structure SimSpec where
  name : String
  entityType : String
  idKey : String
  idPrefix : String
  tenantID : String
deriving DecidableEq, Repr

structure SimRecord where
  id : String
  version : Int
  updatedAt : Time
  deleted : Bool
  data : Data
deriving DecidableEq

/-- `simulator.Store` behind its server; `clock` is the provider's current time. -/
structure SimServer where
  spec : SimSpec
  records : Table SimRecord String SimRecord.id := .empty
  nextID : Nat := 0
  clock : Time := 0

namespace SimServer

/-- `pad`: at least six digits. -/
def pad (n : Nat) : String :=
  let s := toString n
  String.ofList (List.replicate (6 - s.length) '0') ++ s

def genID (s : SimServer) : String := s.spec.idPrefix ++ pad (s.nextID + 1)

def insert (s : SimServer) (data : Data) : SimRecord × SimServer :=
  let rec_ : SimRecord := { id := s.genID, version := 1, updatedAt := s.clock, deleted := false, data := data }
  (rec_, { s with records := s.records.upsert rec_, nextID := s.nextID + 1 })

/-- `Update`: the given keys overwrite the record's, the others stay; a deleted record is updated too. -/
def update (s : SimServer) (id : String) (data : Data) : Option (SimRecord × SimServer) :=
  match s.records.get? id with
  | none => none
  | some old =>
    let rec_ : SimRecord :=
      { old with version := old.version + 1, updatedAt := s.clock, data := data ∪ old.data }
    some (rec_, { s with records := s.records.upsert rec_ })

def softDelete (s : SimServer) (id : String) : Option (SimRecord × SimServer) :=
  match s.records.get? id with
  | none => none
  | some old =>
    let rec_ : SimRecord :=
      { old with
        version := old.version + 1, updatedAt := s.clock, deleted := true
        data := old.data.insert "deleted" (.bool true) }
    some (rec_, { s with records := s.records.upsert rec_ })

def sorted (s : SimServer) : List SimRecord := s.records.rows.insertionSort (fun r r' => r.id ≤ r'.id)

def after (cursor : String) (recs : List SimRecord) : List SimRecord :=
  if cursor = "" then recs
  else
    match recs.dropWhile (fun r => r.id ≠ cursor) with
    | [] => recs
    | _ :: rest => rest

/-- The page size `List` uses. -/
def pageSize (limit : Int) : Nat := if limit ≤ 0 ∨ 1000 < limit then 100 else limit.toNat

/-- `List` without a time filter: one page, and the cursor of the next one. A full page names its last id,
    also when nothing follows it; a page that is not full is the last one. -/
def list (s : SimServer) (cursor : String) (limit : Int) : List SimRecord × String :=
  let rest := after cursor s.sorted
  let page := rest.take (pageSize limit)
  (page, if page.length < pageSize limit then "" else (page.getLast?.map SimRecord.id).getD "")

/-- `WebhookDispatcher.Emit`: the event a write announces itself by. -/
def webhook (s : SimServer) (eventID : String) (eventType : EventType) (rec_ : SimRecord) : Event where
  eventID := eventID
  tenantID := s.spec.tenantID
  source := s.spec.name
  entityType := s.spec.entityType
  entityID := rec_.id
  eventType := eventType
  sourceVersion := rec_.version
  occurredAt := rec_.updatedAt
  fields := some (if rec_.id ≠ "" then rec_.data.insert s.spec.idKey (.str rec_.id) else rec_.data)

/-- What the connector makes of the record the server answers with (`toProviderRecord`). -/
def providerRecord (rec_ : SimRecord) : ProviderRecord where
  id := rec_.id
  sourceVersion := rec_.version
  deleted := rec_.deleted
  data := rec_.data

theorem six_le_length_pad (n : Nat) : 6 ≤ (pad n).length := by
  simp only [pad, String.length_append, String.length_ofList, List.length_replicate]
  omega

theorem pad_ne_empty (n : Nat) : pad n ≠ "" := by
  intro h
  have hlen := six_le_length_pad n
  rw [h, String.length_empty] at hlen
  omega

theorem genID_ne_empty (s : SimServer) : s.genID ≠ "" := by
  intro h
  have hlen := congrArg String.length h
  have hpos : 0 < (pad (s.nextID + 1)).length := by
    rw [Nat.pos_iff_ne_zero]
    intro h0
    exact pad_ne_empty _ (String.length_eq_zero_iff.mp h0)
  simp only [genID, String.length_append, String.length_empty] at hlen
  omega

variable {s s' : SimServer} {id : String} {data : Data} {rec_ : SimRecord}

theorem update_eq_some (h : s.update id data = some (rec_, s')) :
    ∃ old, s.records.get? id = some old ∧
      rec_ = { old with version := old.version + 1, updatedAt := s.clock, data := data ∪ old.data } ∧
      s' = { s with records := s.records.upsert rec_ } := by
  unfold update at h
  split at h
  · cases h
  · rename_i old hold
    cases Option.some.inj h
    exact ⟨old, hold, rfl, rfl⟩

theorem exists_update {old : SimRecord} (h : s.records.get? id = some old) (data : Data) :
    ∃ r, s.update id data = some r := by
  unfold update
  rw [h]
  exact ⟨_, rfl⟩

theorem softDelete_eq_some (h : s.softDelete id = some (rec_, s')) :
    ∃ old, s.records.get? id = some old ∧
      rec_ = { old with
        version := old.version + 1, updatedAt := s.clock, deleted := true
        data := old.data.insert "deleted" (.bool true) } ∧
      s' = { s with records := s.records.upsert rec_ } := by
  unfold softDelete at h
  split at h
  · cases h
  · rename_i old hold
    cases Option.some.inj h
    exact ⟨old, hold, rfl, rfl⟩

end SimServer

end SyncForge
