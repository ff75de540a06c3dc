import SyncForge.Effect.Scope
import SyncForge.Tenancy.Rows
import SyncForge.Worker.Calls
import SyncForge.Worker.Sequential

/-!
# `Worker.Rewrites` — every row the worker writes

`Process` writes a canonical record on five paths: an upsert, a resolution, a delete, a pushed record and an
adopted one. `Rewrites` lists them, each with the row it starts from and the guards that were passed, so an
invariant of the rows is proved by the five cases (`process_keeps`).
-/

namespace SyncForge.Rewrite

open Effect
open Effect.Prog (attempt ofExcept perform run)
open Effect.Scope Store

structure Known where
  row : CanonicalRecord → Prop
  policy : SyncPolicy → Prop := fun _ => True
  finding : ReconciliationFinding → Prop := fun _ => True
  run : ReconciliationRun → Prop := fun _ => True

structure Known.Holds (K : Known) (db : Database) : Prop where
  row : ∀ c ∈ db.canonical.rows, K.row c
  policy : ∀ p ∈ db.policies.rows, K.policy p
  finding : ∀ f ∈ db.findings, K.finding f
  run : ∀ r ∈ db.runs, K.run r

def anything : Known := { row := fun _ => True }

theorem anything_holds (db : Database) : anything.Holds db :=
  ⟨fun _ _ => trivial, fun _ _ => trivial, fun _ _ => trivial, fun _ _ => trivial⟩

def Relinked (c c' : CanonicalRecord) : Prop := c' = { c with providerIDs := c'.providerIDs }

theorem Relinked.refl (c : CanonicalRecord) : Relinked c c := rfl

variable {c c' : CanonicalRecord} {ev : Event} {f : Field} {now : Time} {pick : Nat} {s : StoreOp}
  {db : Database}

theorem Relinked.set (h : Relinked c c') (provider id : String) :
    Relinked c (c'.setProviderID provider id) := by
  rw [h]
  rfl

/-- How `resolveCanonical` and `adoptCanonical` come to the row of a provider's record. -/
inductive Found (K : Known) (tenantID entityType source id email : String) : CanonicalRecord → Prop where
  | mapped {c : CanonicalRecord} : K.row c → c.tenantID = tenantID → c.entityType = entityType →
      c.providerIDs source = some id → Found K tenantID entityType source id email c
  | sharing {c : CanonicalRecord} : K.row c → c.tenantID = tenantID → c.entityType = entityType → c.tombstone = false →
      c.emailText = some email → Found K tenantID entityType source id email (c.setProviderID source id)
  | fresh : Found K tenantID entityType source id email
      { tenantID, entityType, entityID := id, providerIDs := Function.update (fun _ => none) source (some id) }

structure Repairs (K : Known) (ev : Event) (finding : ReconciliationFinding) (run : ReconciliationRun) :
    Prop where
  marked : ev.provenance.reconcileFindingID ≠ ""
  known : K.finding finding
  knownRun : K.run run
  id : finding.tenantID = ev.tenantID ∧ finding.id = ev.provenance.reconcileFindingID
  runID : run.tenantID = ev.tenantID ∧ run.id = finding.runID
  pending : finding.status = .pending

variable {fp : Field → Option Conflict.Provenance}

theorem resolutionProvenance_carried {fields : FieldMap}
    (hf : fields f ≠ none) : resolutionProvenance ev fp fields f
      = some ⟨ev.source, ev.sourceVersion, ev.occurredAt, ((fp f).map (·.priority)).getD 100⟩ := by
  obtain ⟨v, hv⟩ := Option.ne_none_iff_exists'.mp hf
  unfold resolutionProvenance
  rw [hv]

theorem resolutionProvenance_absent {fields : FieldMap} (hf : fields f = none) :
    resolutionProvenance ev fp fields f = fp f := by
  unfold resolutionProvenance
  rw [hf]

def pushedRecord (source providerID : String) (version : Int) (canonical : CanonicalRecord) :
    CanonicalRecord :=
  { (canonical.setProviderID source providerID).setSourceVersion source version with
    version := canonical.version + 1, tombstone := false }

def adoptedRecord (ev : Event) (finding : ReconciliationFinding) (source : String)
    (canonical : CanonicalRecord) : CanonicalRecord :=
  { canonical.setSourceVersion source finding.providerVersion with
    fields := (({ entityID := finding.providerID } : Customer).fromFields finding.providerFields).fields
    fieldProvenance := fun _ => some ⟨source, finding.providerVersion, ev.occurredAt, 100⟩
    version := canonical.version + 1
    originSource := source
    originEventID := ev.eventID
    tombstone := false }

def named (finding : ReconciliationFinding) (c : CanonicalRecord) : CanonicalRecord :=
  if c.entityID = "" then { c with entityID := finding.providerID } else c

/-- The rows `Process` writes for an event. -/
inductive Rewrites (K : Known) (ev : Event) : CanonicalRecord → Prop where
  /-- an upsert that is newer than what the row has of its source, merged without leaving anything to an
    operator -/
  | applied {entityType : String} {ps : List SyncPolicy} {cust : Customer} {c c' : CanonicalRecord} :
      ev.provenance.reconcileFindingID = "" → ev.eventType ≠ .deleted → ev.provenance.resolvedConflictID = "" →
      (∀ p ∈ ps, K.policy p ∧ p.tenantID = ev.tenantID) → targets ev entityType ps ≠ [] →
      Found K ev.tenantID entityType ev.source ev.entityID cust.email c → c.sourceVersions ev.source < ev.sourceVersion →
      (mergedWith ev (targets ev entityType ps) cust c).manual = false →
      Relinked { c with fieldProvenance := (mergedWith ev (targets ev entityType ps) cust c).provenance } c' →
      Rewrites K ev (appliedRecord ev (cust.fromFields (mergedWith ev (targets ev entityType ps) cust c).fields) c')
  /-- an operator's choice -/
  | resolved {entityType : String} {data : Data} {c c' : CanonicalRecord} :
      ev.provenance.reconcileFindingID = "" → ev.eventType ≠ .deleted → ev.provenance.resolvedConflictID ≠ "" →
      ev.fields = some data → K.row c → c.key = ⟨ev.tenantID, entityType, ev.entityID⟩ → Relinked c c' →
      Rewrites K ev
        { appliedRecord ev (({ entityID := c.entityID } : Customer).fromFields (canonicalFields data)) c' with
          fieldProvenance := resolutionProvenance ev c'.fieldProvenance (canonicalFields data) }
  /-- a delete of a record that is still there -/
  | deleted {c : CanonicalRecord} :
      ev.provenance.reconcileFindingID = "" → ev.eventType = .deleted → K.row c → c.tenantID = ev.tenantID →
      c.providerIDs ev.source = some ev.entityID → c.tombstone = false → Rewrites K ev (tombstoned ev c)
  /-- the canonical record pushed to the provider -/
  | pushed {finding : ReconciliationFinding} {run : ReconciliationRun} {entityType providerID : String}
      {version : Int} {c : CanonicalRecord} :
      Repairs K ev finding run → finding.direction = .pushCanonical → K.row c →
      c.key = ⟨ev.tenantID, entityType, finding.canonicalID⟩ → Rewrites K ev (pushedRecord run.source providerID version c)
  /-- the provider's record made canonical -/
  | adopted {finding : ReconciliationFinding} {run : ReconciliationRun} {entityType email : String}
      {c c' : CanonicalRecord} : Repairs K ev finding run → finding.direction = .adoptProvider →
      Found K ev.tenantID entityType run.source finding.providerID email c → Relinked (named finding c) c' →
      Rewrites K ev (adoptedRecord ev finding run.source c')

/-- The calls of `Process` for an event, when the rows read are as known. -/
def scope (K : Known) (ev : Event) : Scope sig where
  may
    | .store (.upsertCanonical c) | .store (.persistApplyState c _ _) => Rewrites K ev c
    | .store (.addProviderID key _ _) => ∃ c, K.row c ∧ c.key = key ∧ c.tombstone = false
    | .store (.setReconciliationFindingStatus _ _ status _) => status ≠ .pending
    | .store (.setConflictStatus tenantID id status _ _) =>
      tenantID = ev.tenantID ∧ id = ev.provenance.resolvedConflictID ∧ status = .resolved
    | .store (.claimProcessedEvent key) | .store (.releaseProcessedEvent key) => key = ev.key
    | o => o.isProcess = true
  gives
    | .store (.listPolicies tenantID), ps => ∀ p ∈ ps, K.policy p ∧ p.tenantID = tenantID
    | .store (.getCanonical key), c => K.row c ∧ c.key = key
    | .store (.getCanonicalByProvider tenantID entityType provider providerID), c =>
      K.row c ∧ c.tenantID = tenantID ∧ c.entityType = entityType ∧ c.providerIDs provider = some providerID
    | .store (.getCanonicalByEmail tenantID entityType email), c =>
      K.row c ∧ c.tenantID = tenantID ∧ c.entityType = entityType ∧ c.tombstone = false ∧ c.emailText = some email
    | .store (.getReconciliationFinding tenantID id), f => K.finding f ∧ f.tenantID = tenantID ∧ f.id = id
    | .store (.getReconciliationRun tenantID id), r => K.run r ∧ r.tenantID = tenantID ∧ r.id = id
    | _, _ => True

variable {env : Env} {K : Known} {ev : Event} {w : World}

/-! ## The database answers as known -/

theorem exec_gives (hdb : K.Holds db) {a : s.Res} (ha : (Database.exec now pick s db).1 = .ok a) :
    (scope K ev).gives (.store s) a := by
  cases s with
  | listPolicies tenantID =>
    cases ha
    intro p hp
    obtain ⟨hmem, hmatch⟩ := List.mem_filter.mp hp
    exact ⟨hdb.policy p hmem, (of_decide_eq_true hmatch).1⟩
  | getCanonical key =>
    have hrow : db.canonical.get? key = some a := Database.rowOrNotFound_ok ha
    exact ⟨hdb.row a (Relational.Table.mem_of_get? hrow), Relational.Table.get?_key hrow⟩
  | getCanonicalByProvider tenantID entityType provider providerID =>
    obtain ⟨hmem, hmatch⟩ := List.mem_filter.mp (Database.anyRow_mem (Database.rowOrNotFound_ok ha))
    exact ⟨hdb.row a hmem, of_decide_eq_true hmatch⟩
  | getCanonicalByEmail tenantID entityType email =>
    obtain ⟨hmem, hmatch⟩ := List.mem_filter.mp (List.mem_of_mem_head? (Database.rowOrNotFound_ok ha))
    exact ⟨hdb.row a hmem, of_decide_eq_true hmatch⟩
  | getReconciliationFinding tenantID id =>
    have hfind := Database.rowOrNotFound_ok ha
    have hmatch := List.find?_some hfind
    exact ⟨hdb.finding a (List.mem_of_find?_eq_some hfind), of_decide_eq_true hmatch⟩
  | getReconciliationRun tenantID id =>
    have hfind := Database.rowOrNotFound_ok ha
    have hmatch := List.find?_some hfind
    exact ⟨hdb.run a (List.mem_of_find?_eq_some hfind), of_decide_eq_true hmatch⟩
  | _ => trivial

theorem handle_gives {o : Call} (hw : K.Holds w.db) {a : sig.Res o} (ha : (World.handle env o w).1 = .ok a) :
    (scope K ev).gives o a := by
  cases o with
  | store s =>
    rcases World.handle_store env w s with ⟨text, _, h⟩ | ⟨pick, _, h⟩
    · rw [h] at ha
      cases ha
    · rw [h] at ha
      exact exec_gives hw ha
  | _ => trivial

/-! ## The worker's programs -/

def own (K : Known) (ev : Event) : Scope sig :=
  { scope K ev with may := fun o => (scope K ev).may o ∧ ∀ s, o = .store s → s.ofTenant ev.tenantID }

theorem Relinked.tenantID (h : Relinked c c') : c'.tenantID = c.tenantID := by
  rw [h]

theorem Found.tenantID {tenantID entityType source id email : String}
    (h : Found K tenantID entityType source id email c) : c.tenantID = tenantID := by
  cases h with
  | mapped _ htenant => exact htenant
  | sharing _ htenant => exact htenant
  | fresh => rfl

section

variable {entityType source : String} {cust : Customer} {canonical : CanonicalRecord}
  {policies : List SyncPolicy} {s : StoreOp} {entityID eventID : String} {version : Int} {c : CanonicalRecord}

theorem within_stmt {good : s.Res → Prop} (hs : (scope K ev).may (.store s))
    (htenant : s.ofTenant ev.tenantID) (hgood : ∀ a, (scope K ev).gives (.store s) a → good a) :
    (own K ev).within (stmt s) good := by
  refine within_perform ⟨hs, fun s' h => ?_⟩ hgood
  obtain rfl := Call.store.inj h
  exact htenant

theorem within_tryStmt (hs : (scope K ev).may (.store s)) (htenant : s.ofTenant ev.tenantID) :
    (own K ev).within (tryStmt s) (fun _ => True) :=
  within_attempt (within_stmt hs htenant (fun _ _ => trivial)) (fun _ _ => trivial) (fun _ => trivial)

theorem within_request {o : Call} (ho : o.isProvider = true) (hmay : (scope K ev).may o) :
    (own K ev).within (perform (S := sig) o : Sync (sig.Res o)) (fun _ => True) := by
  refine within_perform ⟨hmay, fun s h => ?_⟩ (fun _ _ => trivial)
  rw [h] at ho
  cases ho

theorem connect_within {provider : String} : (own K ev).within (connect env ev.tenantID provider)
    (fun _ => True) :=
  within_bind (within_stmt rfl rfl (fun _ _ => trivial)) (fun _ _ => within_ofExcept (fun _ _ => trivial))

theorem recordSyncOperation_within {target fingerprint : String} :
    (own K ev).within (recordSyncOperation ev.tenantID entityType entityID source target version eventID
      fingerprint) (fun _ => True) :=
  within_tryStmt rfl rfl

theorem writeDestination_within {destination : String} (hc : Relinked c canonical) :
    (own K ev).within (writeDestination env ev.tenantID destination cust canonical) (Relinked c) := by
  refine within_bind connect_within (fun dst _ => ?_)
  show (own K ev).within (ite _ _ _) _
  split_ifs
  · exact within_bind (within_request rfl rfl) (fun created _ => hc.set destination created.id)
  · exact within_bind (within_request rfl rfl) (fun _ _ => hc)

theorem propagate_within {outbound : List OutboundWrite} {ops : List SyncOperation}
    (hc : Relinked c canonical) (hout : ∀ w ∈ outbound, w.tenantID = ev.tenantID)
    (hops : ∀ op ∈ ops, op.tenantID = ev.tenantID) : (own K ev).within
      (propagate env ev entityType cust policies canonical outbound ops) (fun r =>
      Relinked c r.1 ∧ (∀ w ∈ r.2.1, w.tenantID = ev.tenantID) ∧ ∀ op ∈ r.2.2, op.tenantID = ev.tenantID) := by
  induction policies generalizing canonical outbound ops with
  | nil => exact ⟨hc, hout, hops⟩
  | cons p ps ih =>
    refine within_bind (writeDestination_within hc) (fun _ hc => ih hc ?_ ?_)
    · exact List.forall_mem_append.mpr ⟨hout, List.forall_mem_singleton.mpr rfl⟩
    · exact List.forall_mem_append.mpr ⟨hops, List.forall_mem_singleton.mpr rfl⟩

theorem propagateNow_within (hc : Relinked c canonical) :
    (own K ev).within (propagateNow env ev.tenantID entityType eventID source version cust policies canonical)
    (Relinked c) := by
  induction policies generalizing canonical with
  | nil => exact hc
  | cons p ps ih =>
    refine within_bind (writeDestination_within hc) (fun c hc => ?_)
    refine within_bind (within_stmt rfl rfl (fun _ _ => trivial)) (fun _ _ => ?_)
    exact within_bind recordSyncOperation_within (fun _ _ => ih hc)

theorem link_within {id email : String}
    (hc : (scope K ev).gives (.store (.getCanonicalByEmail ev.tenantID entityType email)) c) :
      (own K ev).within (do stmt (.addProviderID c.key source id); pure (c.setProviderID source id))
      (Found K ev.tenantID entityType source id email) := by
  obtain ⟨hrow, htenant, htype, hlive, hemail⟩ := hc
  exact within_bind (within_stmt ⟨c, hrow, rfl, hlive⟩ htenant (fun _ _ => trivial))
    (fun _ _ => .sharing hrow htenant htype hlive hemail)

theorem resolveCanonical_within : (own K ev).within (resolveCanonical ev entityType cust)
    (Found K ev.tenantID entityType ev.source ev.entityID cust.email) := by
  refine within_attempt (within_stmt rfl rfl (fun _ h => h)) (fun c hc => ?_) (fun e => ?_)
  · exact .mapped hc.1 hc.2.1 hc.2.2.1 hc.2.2.2
  · cases e with
    | notFound =>
      show (own K ev).within (ite _ _ _) _
      split_ifs
      · refine within_attempt (within_stmt rfl rfl (fun _ h => h)) (fun c hc => link_within hc) (fun e => ?_)
        cases e with
        | notFound => exact .fresh
        | _ => trivial
      · exact .fresh
    | _ => trivial

theorem adoptCanonical_within {finding : ReconciliationFinding} :
    (own K ev).within (adoptCanonical ev entityType finding source cust)
      (Found K ev.tenantID entityType source finding.providerID cust.email) := by
  refine within_attempt (within_stmt rfl rfl (fun _ h => h)) (fun c hc => ?_) (fun e => ?_)
  · exact .mapped hc.1 hc.2.1 hc.2.2.1 hc.2.2.2
  · cases e with
    | notFound =>
      refine within_attempt (within_stmt rfl rfl (fun _ h => h)) (fun c hc => link_within hc) (fun e => ?_)
      cases e with
      | notFound => exact .fresh
      | _ => trivial
    | _ => trivial

theorem isEcho_within : (own K ev).within (isEcho env ev.tenantID entityType entityID source cust)
    (fun _ => True) := by
  refine within_attempt (within_stmt rfl rfl (fun _ _ => trivial)) (fun _ _ => trivial) (fun e => ?_)
  cases e <;> trivial

theorem recordConflict_within {incoming : FieldMap} {detected : List (Conflict.FieldConflict Field Any)}
    {status : ConflictStatus} {strategy : Conflict.Strategy} :
    (own K ev).within (recordConflict ev entityType canonical incoming detected status strategy)
    (fun _ => True) := by
  cases detected with
  | nil => trivial
  | cons c cs => exact within_tryStmt rfl rfl

section

variable (hreconcile : ev.provenance.reconcileFindingID = "") (htype : ev.eventType ≠ .deleted)
  {ps : List SyncPolicy}

include hreconcile htype

theorem applySourceEvent_within {fields : Data}
    (hps : ∀ p ∈ ps, K.policy p ∧ p.tenantID = ev.tenantID)
    (hresolution : ev.provenance.resolvedConflictID = "") (htargets : targets ev entityType ps ≠ []) :
    (own K ev).within (applySourceEvent env ev entityType (targets ev entityType ps) fields)
    (fun _ => True) := by
  refine within_bind connect_within (fun src _ => ?_)
  refine within_bind (within_ofExcept (fun _ _ => trivial)) (fun _ _ => ?_)
  refine within_bind resolveCanonical_within (fun c hc => ?_)
  split_ifs with hstale
  · trivial
  · refine within_bind isEcho_within (fun echo _ => ?_)
    split_ifs
    · trivial
    · -- the merge
      show (own K ev).within (ite _ _ _) _
      split_ifs with hmanual
      · exact recordConflict_within
      · refine within_bind recordConflict_within (fun _ _ => ?_)
        refine within_bind (propagate_within (Relinked.refl _) nofun nofun) (fun r hr => ?_)
        exact within_stmt
          (Rewrites.applied hreconcile htype hresolution hps htargets hc (not_le.mp hstale) (Bool.eq_false_of_not_eq_true hmanual) hr.1)
          ⟨hr.1.tenantID.trans hc.tenantID, hr.2⟩ (fun _ _ => trivial)

theorem applyResolution_within {data : Data} (hresolution : ev.provenance.resolvedConflictID ≠ "")
    (hdata : ev.fields = some data) : (own K ev).within
    (applyResolution env ev entityType policies (canonicalFields data)) (fun _ => True) := by
  refine within_attempt (within_stmt rfl rfl (fun _ h => h)) (fun c hc => ?_) (fun e => ?_)
  · refine within_bind (propagateNow_within (Relinked.refl _)) (fun c' hc' => ?_)
    have htenant : c'.tenantID = ev.tenantID := hc'.tenantID.trans (congrArg CanonicalKey.tenantID hc.2)
    refine within_bind (within_stmt (Rewrites.resolved hreconcile htype hresolution hdata hc.1 hc.2 hc')
      htenant (fun _ _ => trivial)) (fun _ _ => ?_)
    exact within_tryStmt ⟨rfl, rfl, rfl⟩ rfl
  · cases e <;> trivial

theorem applyUpsert_within (hps : ∀ p ∈ ps, K.policy p ∧ p.tenantID = ev.tenantID)
    (htargets : targets ev entityType ps ≠ []) :
    (own K ev).within (applyUpsert env ev entityType (targets ev entityType ps)) (fun _ => True) := by
  unfold applyUpsert
  split
  · trivial
  · rename_i data hdata
    split_ifs with hempty hresolution
    · trivial
    · exact applyResolution_within hreconcile htype hresolution hdata
    · exact applySourceEvent_within hreconcile htype hps (not_ne_iff.mp hresolution) htargets

end

theorem propagateDelete_within : (own K ev).within (propagateDelete env ev entityType canonical policies)
    (fun _ => True) := by
  induction policies with
  | nil => trivial
  | cons p ps ih =>
    unfold propagateDelete
    split_ifs
    · refine within_bind connect_within (fun dst _ => ?_)
      refine within_bind (within_request rfl rfl) (fun _ _ => ?_)
      exact within_bind recordSyncOperation_within (fun _ _ => ih)
    · exact ih

theorem applyDelete_within (hreconcile : ev.provenance.reconcileFindingID = "")
    (htype : ev.eventType = .deleted) : (own K ev).within (applyDelete env ev entityType policies)
    (fun _ => True) := by
  refine within_attempt (within_stmt rfl rfl (fun _ h => h)) (fun c hc => ?_) (fun e => ?_)
  · show (own K ev).within (ite _ _ _) _
    split_ifs with hdead
    · trivial
    · refine within_bind propagateDelete_within (fun _ _ => ?_)
      exact within_stmt
        (Rewrites.deleted hreconcile htype hc.1 hc.2.1 hc.2.2.2 (Bool.eq_false_of_not_eq_true hdead)) hc.2.1 (fun _ _ => trivial)
  · cases e <;> trivial

/-! ### Repairs -/

section

variable {finding : ReconciliationFinding} {run : ReconciliationRun} {src : Remote}
  (hfinding : finding.tenantID = ev.tenantID)

include hfinding

theorem reconcileFail_within {cause : GoError} : (own K ev).within (reconcileFail finding cause)
    (fun _ => True) :=
  within_bind (within_tryStmt (nofun : FindingStatus.failed ≠ .pending) hfinding) (fun _ _ => trivial)

theorem reconcileApplied_within : (own K ev).within (reconcileApplied finding) (fun _ => True) :=
  within_tryStmt (nofun : FindingStatus.applied ≠ .pending) hfinding

theorem recordApplied_within {target entityID eventID fingerprint : String} {version : Int} :
    (own K ev).within (do
      recordSyncOperation ev.tenantID entityType entityID source target version eventID fingerprint
      reconcileApplied finding) (fun _ => True) :=
  within_bind recordSyncOperation_within (fun _ _ => reconcileApplied_within hfinding)

theorem repairDelete_within : (own K ev).within (repairDelete ev entityType finding source src)
    (fun _ => True) := by
  refine within_attempt (within_request rfl rfl) (fun _ _ => recordApplied_within hfinding)
    (fun e => ?_)
  show (own K ev).within (ite _ _ _) _
  split_ifs
  · exact recordApplied_within hfinding
  · exact reconcileFail_within hfinding

end

section

variable {finding : ReconciliationFinding} {run : ReconciliationRun} {src : Remote}
  (hrepairs : Repairs K ev finding run)

include hrepairs

section

variable (hdirection : finding.direction = .pushCanonical) (hrow : K.row canonical)
  (hkey : canonical.key = ⟨ev.tenantID, entityType, finding.canonicalID⟩)
include hdirection hrow hkey

theorem pushed_within {providerID : String} {version : Int} :
    (own K ev).within (pushed env ev entityType finding run.source cust canonical providerID version)
    (fun _ => True) := by
  refine within_bind (within_stmt (Rewrites.pushed hrepairs hdirection hrow hkey)
    (congrArg CanonicalKey.tenantID hkey) (fun _ _ => trivial)) (fun _ _ => ?_)
  exact within_bind (within_stmt rfl rfl (fun _ _ => trivial)) (fun _ _ => recordApplied_within hrepairs.id.1)

theorem repairCreate_within : (own K ev).within
    (repairCreate env ev entityType finding run.source src cust canonical) (fun _ => True) :=
  within_attempt (within_request rfl rfl) (fun _ _ => pushed_within hrepairs hdirection hrow hkey)
    (fun _ => reconcileFail_within hrepairs.id.1)

end

theorem repairPush_within (hdirection : finding.direction = .pushCanonical) :
    (own K ev).within (repairPush env ev entityType finding run.source src) (fun _ => True) := by
  refine within_attempt (within_stmt rfl rfl (fun _ h => h)) (fun c hc => ?_) (fun e => ?_)
  · show (own K ev).within (ite _ _ _) _
    split_ifs
    · exact repairCreate_within hrepairs hdirection hc.1 hc.2
    · refine within_attempt (within_request rfl rfl)
        (fun _ _ => pushed_within hrepairs hdirection hc.1 hc.2) (fun e => ?_)
      show (own K ev).within (ite _ _ _) _
      split_ifs
      · exact repairCreate_within hrepairs hdirection hc.1 hc.2
      · exact reconcileFail_within hrepairs.id.1
  · cases e with
    | notFound => exact within_tryStmt (nofun : FindingStatus.skipped ≠ .pending) hrepairs.id.1
    | _ => trivial

theorem applyAdoptProvider_within (hdirection : finding.direction = .adoptProvider) :
    (own K ev).within (applyAdoptProvider env ev entityType policies finding run.source) (fun _ => True) := by
  refine within_bind adoptCanonical_within (fun found hfound => ?_)
  refine within_bind (propagateNow_within (Relinked.refl (named finding found))) (fun c hc => ?_)
  have htenant : (named finding found).tenantID = ev.tenantID := by
    unfold named
    split_ifs <;> exact hfound.tenantID
  exact within_bind (within_stmt (Rewrites.adopted hrepairs hdirection hfound hc) (hc.tenantID.trans htenant)
    (fun _ _ => trivial)) (fun _ _ => reconcileApplied_within hrepairs.id.1)

end

theorem applyReconcileFinding_within (hmarked : ev.provenance.reconcileFindingID ≠ "") :
    (own K ev).within (applyReconcileFinding env ev entityType policies) (fun _ => True) := by
  refine within_attempt (within_stmt rfl rfl (fun _ h => h)) (fun f hf => ?_) (fun e => ?_)
  · show (own K ev).within (ite _ _ _) _
    split_ifs with hpending
    · trivial
    · refine within_bind (within_stmt rfl rfl (fun _ h => h)) (fun run hrun => ?_)
      have hrepairs : Repairs K ev f run := ⟨hmarked, hf.1, hrun.1, hf.2, hrun.2, not_ne_iff.mp hpending⟩
      refine within_bind connect_within (fun src _ => ?_)
      split
      · exact repairDelete_within hf.2.1
      · exact repairPush_within hrepairs ‹_›
      · exact applyAdoptProvider_within hrepairs ‹_›
      · exact reconcileFail_within hf.2.1
  · cases e <;> trivial

theorem dispatch_within : (own K ev).within (dispatch env ev) (fun _ => True) := by
  refine within_bind (within_stmt rfl rfl (fun _ h => h)) (fun policies hpolicies => ?_)
  have hentityType : (own K ev).within (canonicalEntityType env ev) (fun _ => True) :=
    within_bind connect_within (fun _ _ => trivial)
  refine within_bind hentityType (fun entityType _ => ?_)
  split_ifs with hreconcile htargets htype
  · exact within_bind (applyReconcileFinding_within hreconcile) (fun _ _ => trivial)
  · trivial
  · exact within_bind (applyDelete_within (not_ne_iff.mp hreconcile) htype) (fun _ _ => trivial)
  · exact within_bind (applyUpsert_within (not_ne_iff.mp hreconcile) htype hpolicies htargets)
      (fun _ _ => trivial)

/-- **What `Process` writes**, all of it for the event's tenant. -/
theorem process_own : (own K ev).within (process env ev) (fun _ => True) :=
  process_within_of ⟨rfl, fun _ h => by cases h; rfl⟩ ⟨rfl, fun _ h => by cases h; rfl⟩
    (fun _ => ⟨rfl, fun _ h => by cases h; rfl⟩) dispatch_within

theorem process_within : (scope K ev).within (process env ev) (fun _ => True) :=
    within_may (P := own K ev) (fun _ h => h.1) process_own

end

/-! ## Invariants of the stored rows -/

structure Kept (K : Known) (ev : Event) : Prop where
  rewrites : ∀ c, Rewrites K ev c → K.row c
  /-- a provider id is added to a row whose key belongs to a live one -/
  links : ∀ c c' source id, K.row c → c.tombstone = false → K.row c' → c'.key = c.key →
    K.row (c'.setProviderID source id)
  /-- a finding is never made pending again -/
  findings : ∀ f status error, K.finding f → status ≠ .pending → K.finding { f with status, error }

theorem exec_holds (hK : Kept K ev) (hs : (scope K ev).may (.store s)) (hdb : K.Holds db) :
    K.Holds (Database.exec now pick s db).2 := by
  have hupsert : ∀ c, K.row c → ∀ c' ∈ (db.canonical.upsert c).rows, K.row c' := by
    intro c hc c' hc'
    rcases Relational.Table.mem_upsert.mp hc' with rfl | ⟨hold, _⟩
    · exact hc
    · exact hdb.row c' hold
  cases s with
  | upsertCanonical c => exact ⟨hupsert c (hK.rewrites c hs), hdb.policy, hdb.finding, hdb.run⟩
  | persistApplyState c outbound ops => exact ⟨hupsert c (hK.rewrites c hs), hdb.policy, hdb.finding, hdb.run⟩
  | addProviderID key source id =>
    refine ⟨?_, hdb.policy, hdb.finding, hdb.run⟩
    show ∀ c ∈ (db.linkProvider key source id).canonical.rows, K.row c
    unfold Database.linkProvider
    cases hget : db.canonical.get? key with
    | none => exact hdb.row
    | some c' =>
      obtain ⟨c, hc, rfl, hlive⟩ := hs
      exact hupsert _ (hK.links c c' source id hc hlive (hdb.row c' (Relational.Table.mem_of_get? hget))
        (Relational.Table.get?_key hget))
  | setReconciliationFindingStatus tenantID id status error =>
    refine ⟨hdb.row, hdb.policy, fun f hf => ?_, hdb.run⟩
    obtain ⟨f0, hf0, rfl⟩ := List.mem_map.mp hf
    split_ifs
    · exact hK.findings f0 status error (hdb.finding f0 hf0) hs
    · exact hdb.finding f0 hf0
  | insertReconciliationFinding | setReconciliationFindingDirection | updateReconciliationCounters
  | finishReconciliationRun => exact absurd hs Bool.false_ne_true
  | _ => exact ⟨hdb.row, hdb.policy, hdb.finding, hdb.run⟩

theorem handle_holds {o : Call} (hK : Kept K ev) (ho : (scope K ev).may o) (hw : K.Holds w.db) :
    K.Holds (World.handle env o w).2.db := by
  rcases @World.handle_db env w o with h | ⟨s, pick, rfl, _, h⟩
  · rwa [h]
  · rw [h]
    exact exec_holds hK ho hw

/-- **Invariant rule**: what the five rewrites keep, `Process` keeps. -/
theorem process_keeps (hK : Kept K ev) (hw : K.Holds w.db) :
    K.Holds (run (World.handle env) (process env ev) w).2.db :=
  keeps_of_within (I := fun u : World => K.Holds u.db)
    (fun _ _ ho hu => ⟨fun _ ha => handle_gives hu ha, handle_holds hK ho hu⟩) process_within hw

/-! ## Sequential runs -/

/-- The worker is given an event; or something happens that is no business of the worker: a request of an
    operator, a sweep that stores findings, a change at a provider, time. -/
inductive Act where
  | event (ev : Event)
  | change (w : World)

def step (env : Env) (w : World) : Act → Option World
  | .event ev => some (run (World.handle env) (process env ev) w).2
  | .change w' => some w'

end SyncForge.Rewrite
