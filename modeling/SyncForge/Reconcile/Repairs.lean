import SyncForge.Reconcile.Exact

/-!
# `Reconcile.Repairs` — what a repair does when its calls succeed

Deleting a record and pushing the canonical record: which record of the source is replaced, deleted or
created, and which canonical record is written. `process_repairs` carries such a fact through `Process` of the
finding's event.
-/

namespace SyncForge.Reconcile

open Effect Effect.Prog Store Relational

variable {env : Env} {ev : Event} {f : ReconciliationFinding} {entityType source : String} {src : Remote}
  {w : World} {c : CanonicalRecord}

def repairOf (env : Env) (ev : Event) (entityType : String) (policies : List SyncPolicy)
    (g : ReconciliationFinding) (source : String) (src : Remote) : Sync Unit :=
  match g.direction with
  | .delete => repairDelete ev entityType g source src
  | .pushCanonical => repairPush env ev entityType g source src
  | .adoptProvider => applyAdoptProvider env ev entityType policies g source
  | .other name => reconcileFail g (.plain ("unknown reconcile direction \"" ++ name ++ "\""))

structure Repaired (f : ReconciliationFinding) (ep : Endpoint) (m : Mutation) (sim : SimServer)
    (canonical : Table CanonicalRecord CanonicalKey CanonicalRecord.key) (w w' : World) : Prop where
  sims : w'.sims = Function.update w.sims ep sim
  mutations : w'.mutations = w.mutations ++ [(ep, m)]
  findings : w'.db.findings = (w.db.setFinding f.tenantID f.id .applied none).findings
  canonical : w'.db.canonical = canonical

/-! ## Deleting -/

theorem repairDelete_returns : Returns env (repairDelete ev entityType f source src) w (fun _ w' => ∃ x,
      (w.sims src.endpoint).softDelete f.providerID = some x ∧
      Repaired f src.endpoint .delete x.2 w.db.canonical w w') := by
  refine yields_attempt returns_delete ?_
  rintro _ _ ⟨x, hx, rfl⟩
  refine returns_tryStmt_bind rfl (fun _ => ?_)
  exact returns_tryStmt rfl (fun _ => ⟨x, hx, rfl, rfl, rfl, rfl⟩)

/-! ## Pushing the canonical record -/

def pushedRow (source id : String) (version : Int) (c : CanonicalRecord) : CanonicalRecord :=
  { (c.setProviderID source id).setSourceVersion source version with version := c.version + 1, tombstone := false }

def pushedCustomer (c : CanonicalRecord) : Customer := ({ entityID := c.entityID } : Customer).fromFields c.fields

theorem pushed_returns {cust : Customer} {id : String} {version : Int} {m : Mutation} {type : EventType}
    {x : SimRecord × SimServer} :
    Returns env (pushed env ev entityType f source cust c id version) (w.called.called.wrote env src.endpoint m type x)
      (fun _ w' => Repaired f src.endpoint m x.2 (w.db.canonical.upsert (pushedRow source id version c)) w w') := by
  refine returns_stmt_bind rfl (fun _ _ _ => ?_)
  refine returns_stmt_bind rfl (fun _ _ _ => ?_)
  refine returns_tryStmt_bind rfl (fun _ => ?_)
  exact returns_tryStmt rfl (fun _ => ⟨rfl, rfl, rfl, rfl⟩)

theorem repairPush_returns (hrow : w.db.canonical.get? ⟨ev.tenantID, entityType, f.canonicalID⟩ = some c) :
    Returns env (repairPush env ev entityType f source src) w (fun _ w' => ∃ m id x,
      (m = .create ∧ (f.kind = .missing ∨ f.providerID = "") ∧ id = x.1.id ∧
          (w.sims src.endpoint).insert (src.adapter.denormalize (pushedCustomer c)).data = x ∨
        m = .update ∧ ¬ (f.kind = .missing ∨ f.providerID = "") ∧ id = f.providerID ∧
          (w.sims src.endpoint).update f.providerID (src.adapter.denormalize (pushedCustomer c)).data = some x) ∧
      Repaired f src.endpoint m x.2 (w.db.canonical.upsert (pushedRow source id x.1.version c)) w w') := by
  refine returns_lookup (fun pick c' hc' => ?_) (fun pick hnone => ?_)
  · obtain rfl : c = c' := Option.some.inj (hrow.symm.trans (Database.rowOrNotFound_ok hc'))
    show Returns env (ite _ _ _) _ _
    split_ifs with hmissing
    · refine yields_attempt returns_create ?_
      rintro _ _ ⟨x, hx, rfl, rfl⟩
      exact yields_mono pushed_returns (fun _ _ h => ⟨.create, x.1.id, x, .inl ⟨rfl, hmissing, rfl, hx⟩, h⟩)
    · refine yields_attempt returns_update ?_
      rintro _ _ ⟨x, hx, rfl, rfl⟩
      exact yields_mono pushed_returns (fun _ _ h => ⟨.update, f.providerID, x, .inr ⟨rfl, hmissing, rfl, hx⟩, h⟩)
  · have hnone : Database.rowOrNotFound (w.db.canonical.get? ⟨ev.tenantID, entityType, f.canonicalID⟩)
      = .error .notFound := hnone
    rw [hrow] at hnone
    cases hnone

/-! ## A repair through the worker -/

section Worker

variable {a : Adapter} {Q : World → Prop}

theorem applyReconcileFinding_returns {policies : List SyncPolicy}
    (hfound : w.db.findings.find? (fun g => g.tenantID = ev.tenantID ∧
      g.id = ev.provenance.reconcileFindingID) = some f) (hpending : f.status = .pending)
    (hrun : ∀ r, w.db.runs.find? (fun r => r.tenantID = ev.tenantID ∧ r.id = f.runID) = some r →
      r.source = source) (hregistered : env.registry source = some a)
      (hrepair : ∀ src, Reached env w.db ev.tenantID source src →
        Returns env (repairOf env ev entityType policies f source src) w.called.called.called
      (fun _ w' => Q w')) :
    Returns env (applyReconcileFinding env ev entityType policies) w (fun _ w' => Q w') := by
  have hknown : (env.registry source).isSome = true := by rw [hregistered]; rfl
  have hread : Returns env (stmt (.getReconciliationFinding ev.tenantID ev.provenance.reconcileFindingID)) w
      (fun g w' => g = f ∧ w' = w.called) :=
    returns_stmt rfl (fun _ g hg => ⟨Option.some.inj ((Database.rowOrNotFound_ok hg).symm.trans hfound), rfl⟩)
  refine yields_attempt hread ?_
  rintro _ _ ⟨rfl, rfl⟩
  show Returns env (ite _ _ _) _ _
  rw [if_neg (not_not.mpr hpending)]
  refine returns_stmt_bind rfl (fun _ r hr => ?_)
  rw [hrun r (Database.rowOrNotFound_ok hr)]
  refine yields_bind (returns_connect hknown) ?_
  rintro src _ ⟨hsrc, rfl⟩
  exact hrepair src hsrc

theorem process_repairs (hunclaimed : w.db.processed ev.key = false) (hsource : ev.source = source)
    (hmarked : ev.provenance.reconcileFindingID ≠ "")
    (hfound : w.db.findings.find? (fun g => g.tenantID = ev.tenantID ∧
      g.id = ev.provenance.reconcileFindingID) = some f) (hpending : f.status = .pending)
    (hrun : ∀ r, w.db.runs.find? (fun r => r.tenantID = ev.tenantID ∧ r.id = f.runID) = some r →
      r.source = source) (hregistered : env.registry source = some a)
    (hrepair : ∀ src pick w1, Reached env w.db ev.tenantID source src → w1.sims = w.sims →
      w1.mutations = w.mutations → w1.db = (w.executed pick (.claimProcessedEvent ev.key)).db →
      Returns env (repairOf env ev a.canonicalEntityType (w.db.policiesOf ev.tenantID) f source src) w1
      (fun _ w' => Q w')) :
    Returns env (process env ev) w (fun _ w' => ∃ w2 pick, Q w2 ∧
      w' = w2.executed pick (.setSourceEventStatus ev.tenantID ev.eventID .validated .processed)) := by
  have hknown : (env.registry ev.source).isSome = true := by rw [hsource, hregistered]; rfl
  refine returns_stmt_bind rfl (fun pick claimed hclaimed => ?_)
  have hfree : claimed = true := by
    have hclaimed : (Except.ok (!w.db.processed ev.key) : Except GoError Bool) = .ok claimed := hclaimed
    rw [hunclaimed] at hclaimed
    exact (Except.ok.inj hclaimed).symm
  rw [if_pos hfree]
  have hdispatch : Returns env (dispatch env ev) (w.executed pick (.claimProcessedEvent ev.key))
      (fun d w' => d = .reconciled ∧ Q w') := by
    refine returns_stmt_bind rfl (fun _ policies hpolicies => ?_)
    obtain rfl : w.db.policiesOf ev.tenantID = policies := Except.ok.inj hpolicies
    have htype : ∀ w1, Returns env (canonicalEntityType env ev) w1
        (fun type w' => type = a.canonicalEntityType ∧ w' = w1.called) := by
      intro w1
      refine yields_bind (returns_connect hknown) ?_
      rintro dst _ ⟨hdst, rfl⟩
      have hadapter := Option.some.inj (hdst.adapter.symm.trans (hsource ▸ hregistered))
      exact yields_return ⟨by rw [hadapter], rfl⟩
    refine yields_bind (htype _) ?_
    rintro _ _ ⟨rfl, rfl⟩
    rw [if_pos hmarked]
    exact yields_bind (applyReconcileFinding_returns hfound hpending hrun hregistered (fun src hsrc =>
      hrepair src pick _ ⟨hsrc.adapter, hsrc.endpoint, hsrc.connected⟩ rfl rfl rfl)) (fun _ _ h => yields_return ⟨rfl, h⟩)
  refine yields_attempt hdispatch ?_
  rintro _ w2 ⟨rfl, h2⟩
  exact returns_tryStmt_bind rfl (fun pick' => yields_return ⟨w2, pick', h2, rfl⟩)

end Worker

end SyncForge.Reconcile
