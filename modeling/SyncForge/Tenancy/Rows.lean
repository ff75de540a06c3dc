import SyncForge.Store.Frame

/-!
# `Tenancy.Rows` — one tenant's part of the database

Row-level security as `migrations/` declares it: with `app.tenant_id` set, a statement sees and writes the
rows of that tenant. `db.part T` is what the tenant `T` has of the database. A statement of `T` is answered
from that part and writes only it (`exec_part`), and leaves what other tenants have alone (`exec_part_other`).
-/

namespace SyncForge

open Relational
open Function (update update_of_ne)

/-! ## Parts -/

namespace Database

def ofKeys {K α : Type} (tenantID : K → String) (T : String) (f : K → Option α) : K → Option α := fun k =>
  if tenantID k = T then f k else none

def part (db : Database) (T : String) : Database where
  tenants := db.tenants.filter (fun t => t.id = T)
  policies := db.policies.restrict (fun p => p.tenantID = T)
  connections := db.connections.filter (fun c => c.tenantID = T)
  processed := fun k => k.tenantID = T ∧ db.processed k = true
  sourceEvents := ofKeys EventKey.tenantID T db.sourceEvents
  ingested := db.ingested.filter (fun se => se.tenantID = T)
  canonical := db.canonical.restrict (fun c => c.tenantID = T)
  outbound := ofKeys OutboundKey.tenantID T db.outbound
  syncOps := db.syncOps.filter (fun op => op.tenantID = T)
  conflicts := db.conflicts.restrict (fun c => c.tenantID = T)
  retryQueue := db.retryQueue.restrict (fun r => r.tenantID = T)
  deadLetters := ofKeys RowKey.tenantID T db.deadLetters
  findings := db.findings.filter (fun f => f.tenantID = T)
  runs := db.runs.filter (fun r => r.tenantID = T)
  jobs := db.jobs.filter (fun j => j.tenantID = T)

variable {K α : Type} {tenantID : K → String} {T T' : String} {f : K → Option α} {k : K}

@[simp] theorem ofKeys_self (h : tenantID k = T) : ofKeys tenantID T f k = f k := if_pos h

theorem ofKeys_update [DecidableEq K] (a : Option α) : ofKeys tenantID T (update f k a)
    = if tenantID k = T then update (ofKeys tenantID T f) k a else ofKeys tenantID T f := by
  funext k'
  by_cases hk : k' = k
  · subst hk
    split_ifs with h <;> simp [ofKeys, h]
  · split_ifs <;> simp [ofKeys, update_of_ne hk]

end Database

/-! ## Statements of one tenant -/

/-- The statements of `Process`, for one tenant. -/
def StoreOp.ofTenant (T : String) : StoreOp → Prop
  | .claimProcessedEvent key => key.tenantID = T
  | .releaseProcessedEvent key => key.tenantID = T
  | .listPolicies tenantID => tenantID = T
  | .getConnectionByProvider tenantID _ => tenantID = T
  | .getCanonical key => key.tenantID = T
  | .getCanonicalByProvider tenantID _ _ _ => tenantID = T
  | .getCanonicalByEmail tenantID _ _ => tenantID = T
  | .addProviderID key _ _ => key.tenantID = T
  | .upsertCanonical c => c.tenantID = T
  | .persistApplyState c outbound ops =>
    c.tenantID = T ∧ (∀ w ∈ outbound, w.tenantID = T) ∧ ∀ op ∈ ops, op.tenantID = T
  | .getOutboundWrite key => key.tenantID = T
  | .upsertOutboundWrite w => w.tenantID = T
  | .insertSyncOperation op => op.tenantID = T
  | .insertConflict c => c.tenantID = T
  | .setConflictStatus tenantID _ _ _ _ => tenantID = T
  | .setSourceEventStatus tenantID _ _ _ => tenantID = T
  | .getReconciliationFinding tenantID _ => tenantID = T
  | .getReconciliationRun tenantID _ => tenantID = T
  | .setReconciliationFindingStatus tenantID _ _ _ => tenantID = T
  | _ => False

def StoreOp.answersOf (T : String) : (o : StoreOp) → o.Res → Prop
  | .getCanonical _, c => c.tenantID = T
  | .getCanonicalByProvider _ _ _ _, c => c.tenantID = T
  | .getCanonicalByEmail _ _ _, c => c.tenantID = T
  | .getReconciliationFinding _ _, f => f.tenantID = T
  | .getReconciliationRun _ _, r => r.tenantID = T
  | _, _ => True

namespace Database

variable {db : Database} {now : Time} {pick : Nat} {o : StoreOp} {T T' : String}
  {outbound : List OutboundWrite} {providerID id : String}
  {eventID entityType by_ : String} {new : SourceEventStatus} {strategy : Conflict.Strategy}
    {error : Option String}
  {ops : List SyncOperation}

/-! ### What each kind of write does to a part -/

section

variable {R : Type} {tenantID : R → String} {rows : List R}

theorem filter_part {q : R → Bool} (hq : ∀ x, q x = true → tenantID x = T) :
    (rows.filter (fun x => tenantID x = T)).filter q = rows.filter q := by
  rw [List.filter_filter]
  refine List.filter_congr (fun x _ => ?_)
  cases hx : q x with
  | false => rfl
  | true => simp [hq x hx]

theorem find_part {q : R → Bool} (hq : ∀ x, q x = true → tenantID x = T) :
    (rows.filter (fun x => tenantID x = T)).find? q = rows.find? q := by
  rw [← List.head?_filter, filter_part hq, List.head?_filter]

theorem map_part {g : R → R} (hg : ∀ x, tenantID (g x) = tenantID x) :
    (rows.map g).filter (fun x => tenantID x = T) = (rows.filter (fun x => tenantID x = T)).map g := by
  rw [List.filter_map]
  congr 1
  refine List.filter_congr (fun x _ => ?_)
  simp [hg x]

end

theorem canonical_part (c : CanonicalRecord) : (db.canonical.upsert c).restrict (fun c => c.tenantID = T)
    = if c.tenantID = T then (db.part T).canonical.upsert c else (db.part T).canonical := by
  have hkey : ∀ x : CanonicalRecord, x.key = c.key → x.tenantID = c.tenantID :=
    fun _ hx => congrArg CanonicalKey.tenantID hx
  split_ifs with h
  · exact Table.restrict_upsert (fun x hx => decide_eq_true ((hkey x hx).trans h))
  · exact Table.restrict_upsert_outside (fun x hx =>
      decide_eq_false (fun hT => h ((hkey x hx).symm.trans hT)))

theorem get_canonical_part {key : CanonicalKey} (h : key.tenantID = T) :
    (db.part T).canonical.get? key = db.canonical.get? key :=
  Table.get?_restrict (fun _ hx => decide_eq_true ((congrArg CanonicalKey.tenantID hx).trans h))

theorem conflicts_part (c : ConflictRecord) : (db.conflicts.upsert c).restrict (fun c => c.tenantID = T)
    = if c.tenantID = T then (db.part T).conflicts.upsert c else (db.part T).conflicts := by
  have hkey : ∀ x : ConflictRecord, x.key = c.key → x.tenantID = c.tenantID :=
    fun _ hx => congrArg ConflictKey.tenantID hx
  split_ifs with h
  · exact Table.restrict_upsert (fun x hx => decide_eq_true ((hkey x hx).trans h))
  · exact Table.restrict_upsert_outside (fun x hx =>
      decide_eq_false (fun hT => h ((hkey x hx).symm.trans hT)))

theorem outbound_part (h : ∀ w ∈ outbound, w.tenantID = T) :
    ofKeys OutboundKey.tenantID T' (outbound.foldl writeOutbound db.outbound)
    = if T = T' then outbound.foldl writeOutbound (ofKeys OutboundKey.tenantID T' db.outbound)
      else ofKeys OutboundKey.tenantID T' db.outbound := by
  generalize db.outbound = f
  induction outbound generalizing f with
  | nil => rw [List.foldl_nil, List.foldl_nil, ite_self]
  | cons w ws ih =>
    obtain ⟨hw, hws⟩ := List.forall_mem_cons.mp h
    have hkey : OutboundKey.tenantID w.key = T := hw
    rw [List.foldl_cons, List.foldl_cons, ih hws, writeOutbound, ofKeys_update, hkey]
    split_ifs <;> rfl

theorem processed_part {key : EventKey} (h : key.tenantID = T) :
    (db.part T).processed key = db.processed key := by
  simp [part, h]

theorem processed_update {key : EventKey} (b : Bool) :
    (({ db with processed := update db.processed key b } : Database).part T).processed
      = if key.tenantID = T then update (db.part T).processed key b else (db.part T).processed := by
  funext k
  by_cases hk : k = key
  · subst hk
    split_ifs with h <;> simp [part, h]
  · split_ifs <;> simp [part, update_of_ne hk]

theorem setStatus_part {guard : SourceEventStatus → Bool} : (db.setStatus T eventID guard new).part T'
    = if T = T' then (db.part T').setStatus T eventID guard new else db.part T' := by
  have hstatus : ofKeys EventKey.tenantID T' (db.setStatus T eventID guard new).sourceEvents
      = if T = T' then ((db.part T').setStatus T eventID guard new).sourceEvents else (db.part T').sourceEvents := by
    funext k
    by_cases hT : T = T'
    · by_cases hk : k.tenantID = T' <;> simp [setStatus, part, ofKeys, hk, hT]
    · have hT' : ¬ T' = T := fun h => hT h.symm
      by_cases hk : k.tenantID = T' <;> simp [setStatus, part, ofKeys, hk, hT, hT']
  have hrow : (db.setStatus T eventID guard new).part T' = { db.part T' with
      sourceEvents := ofKeys EventKey.tenantID T' (db.setStatus T eventID guard new).sourceEvents } := rfl
  rw [hrow, hstatus]
  split_ifs <;> rfl

theorem canonicalsWithProvider_part {provider : String} :
    (db.part T).canonicalsWithProvider T entityType provider providerID
      = db.canonicalsWithProvider T entityType provider providerID :=
  filter_part (fun _ hx => (of_decide_eq_true hx).1)

theorem canonicalsWithEmail_part {email : String} :
    (db.part T).canonicalsWithEmail T entityType email = db.canonicalsWithEmail T entityType email :=
  filter_part (fun _ hx => (of_decide_eq_true hx).1)

theorem setCanonical_part {c : CanonicalRecord} (h : c.tenantID = T) :
    ({ db with canonical := db.canonical.upsert c } : Database).part T'
      = if T = T' then { db.part T' with canonical := (db.part T').canonical.upsert c } else db.part T' := by
  have hrow : ({ db with canonical := db.canonical.upsert c } : Database).part T'
      = { db.part T' with canonical := (db.canonical.upsert c).restrict (fun c => c.tenantID = T') } := rfl
  rw [hrow, canonical_part, h]
  split_ifs <;> rfl

theorem setConflicts_part {c : ConflictRecord} (h : c.tenantID = T) :
    ({ db with conflicts := db.conflicts.upsert c } : Database).part T'
      = if T = T' then { db.part T' with conflicts := (db.part T').conflicts.upsert c } else db.part T' := by
  have hrow : ({ db with conflicts := db.conflicts.upsert c } : Database).part T'
      = { db.part T' with conflicts := (db.conflicts.upsert c).restrict (fun c => c.tenantID = T') } := rfl
  rw [hrow, conflicts_part, h]
  split_ifs <;> rfl

theorem linkProvider_part {key : CanonicalKey} {provider : String} (h : key.tenantID = T) :
    (db.linkProvider key provider providerID).part T'
      = if T = T' then (db.part T').linkProvider key provider providerID else db.part T' := by
  unfold linkProvider
  cases hrow : db.canonical.get? key with
  | none =>
    split_ifs with hT
    · rw [get_canonical_part (h.trans hT), hrow]
    · rfl
  | some c =>
    have hc : c.tenantID = T := (congrArg CanonicalKey.tenantID (Table.get?_key hrow)).trans h
    rw [setCanonical_part (c := c.setProviderID provider providerID) hc]
    split_ifs with hT
    · rw [get_canonical_part (h.trans hT), hrow]
    · rfl

theorem recordConflict_part {c : ConflictRecord} (h : c.tenantID = T) : (db.recordConflict c).part T'
    = if T = T' then (db.part T').recordConflict c else db.part T' := by
  have hget : T = T' → (db.part T').conflicts.get? c.key = db.conflicts.get? c.key := fun hT =>
    Table.get?_restrict (fun _ hx => decide_eq_true ((congrArg ConflictKey.tenantID hx).trans (h.trans hT)))
  have hids : T = T' → (db.part T').conflicts.rows.filter (fun c' => c'.tenantID = c.tenantID)
      = db.conflicts.rows.filter (fun c' => c'.tenantID = c.tenantID) := fun hT =>
    filter_part (fun _ hx => (of_decide_eq_true hx).trans (h.trans hT))
  unfold recordConflict
  cases hrow : db.conflicts.get? c.key with
  | some old =>
    split_ifs with hT
    · rw [hget hT, hrow]
    · rfl
  | none =>
    refine Eq.trans (setConflicts_part (T := T) ?_) ?_
    · exact h
    split_ifs with hT
    · rw [hget hT, hrow]
      simp only [hids hT]
    · rfl

theorem setConflict_part {status : ConflictStatus} : (db.setConflict T id status strategy by_).part T'
    = if T = T' then (db.part T').setConflict T id status strategy by_ else db.part T' := by
  have hfind : T = T' → (db.part T').conflicts.rows.find? (fun c => c.tenantID = T ∧ c.id = id ∧
    c.status ≠ .dismissed)
      = db.conflicts.rows.find? (fun c => c.tenantID = T ∧ c.id = id ∧ c.status ≠ .dismissed) := fun hT =>
    find_part (fun _ hx => (of_decide_eq_true hx).1.trans hT)
  unfold setConflict
  cases hrow : db.conflicts.rows.find? (fun c => c.tenantID = T ∧ c.id = id ∧ c.status ≠ .dismissed) with
  | none =>
    split_ifs with hT
    · rw [hfind hT, hrow]
    · rfl
  | some c =>
    have hc := List.find?_some hrow
    refine Eq.trans (setConflicts_part (T := T) ?_) ?_
    · exact (of_decide_eq_true hc).1
    split_ifs with hT
    · rw [hfind hT, hrow]
    · rfl

theorem setFinding_part {status : FindingStatus} : (db.setFinding T id status error).part T'
    = if T = T' then (db.part T').setFinding T id status error else db.part T' := by
  have hrow : (db.setFinding T id status error).part T'
      = { db.part T' with findings := (db.setFinding T id status error).findings.filter (fun f => f.tenantID = T') } := rfl
  rw [hrow, setFinding, map_part (fun f => by split_ifs <;> rfl)]
  split_ifs with hT
  · rfl
  · have hother : ∀ f ∈ db.findings.filter (fun f => f.tenantID = T'), f.tenantID ≠ T := fun f hf h =>
      hT (h.symm.trans (of_decide_eq_true (List.mem_filter.mp hf).2))
    rw [List.map_congr_left (fun f hf => if_neg (fun hc => hother f hf hc.1)), List.map_id']
    rfl

theorem applyState_part {c : CanonicalRecord}
    (hc : c.tenantID = T) (hout : ∀ w ∈ outbound, w.tenantID = T) (hops : ∀ op ∈ ops, op.tenantID = T) :
    (db.applyState c outbound ops).part T' = if T = T' then (db.part T').applyState c outbound ops else db.part T' := by
  have hrow : (db.applyState c outbound ops).part T' = { db.part T' with
      canonical := (db.canonical.upsert c).restrict (fun c => c.tenantID = T')
      outbound := ofKeys OutboundKey.tenantID T' (outbound.foldl writeOutbound db.outbound)
      syncOps := (db.syncOps ++ ops).filter (fun op => op.tenantID = T') } := rfl
  rw [hrow, canonical_part, hc, outbound_part hout, List.filter_append]
  split_ifs with hT
  · rw [List.filter_eq_self.mpr (fun op hop => decide_eq_true ((hops op hop).trans hT))]
    rfl
  · rw [List.filter_eq_nil_iff.mpr (fun op hop h => hT ((hops op hop).symm.trans (of_decide_eq_true h))), List.append_nil]
    rfl

/-- **What a statement of a tenant does to a part**: to the tenant's own what it would do to that part alone,
    to another nothing. -/
theorem exec_within (ho : o.ofTenant T) :
    (exec now pick o db).2.part T' = if T = T' then (exec now pick o (db.part T')).2 else db.part T' := by
  cases o with
  | claimProcessedEvent key =>
    obtain rfl : key.tenantID = T := ho
    have hrow := @processed_update db T' key true
    split_ifs at hrow ⊢ <;> (simp only [exec]; unfold part at hrow ⊢; congr 1)
  | releaseProcessedEvent key =>
    obtain rfl : key.tenantID = T := ho
    have hrow := @processed_update db T' key false
    split_ifs at hrow ⊢ <;> (simp only [exec]; unfold part at hrow ⊢; congr 1)
  | addProviderID key provider providerID => exact linkProvider_part ho
  | upsertCanonical c => exact setCanonical_part ho
  | persistApplyState c outbound ops => exact applyState_part ho.1 ho.2.1 ho.2.2
  | upsertOutboundWrite w =>
    have hkey : OutboundKey.tenantID w.key = T := ho
    have hrow : (exec now pick (.upsertOutboundWrite w) db).2.part T' = { db.part T' with
        outbound := ofKeys OutboundKey.tenantID T' (writeOutbound db.outbound w) } := rfl
    rw [hrow, writeOutbound, ofKeys_update, hkey]
    split_ifs <;> rfl
  | insertSyncOperation op =>
    obtain rfl : op.tenantID = T := ho
    have hrow : (exec now pick (.insertSyncOperation op) db).2.part T' = { db.part T' with
        syncOps := (db.syncOps ++ [op]).filter (fun op => op.tenantID = T') } := rfl
    rw [hrow, List.filter_append]
    split_ifs with hT
    · simp [exec, part, hT]
    · simp [part, hT]
  | insertConflict c => exact recordConflict_part ho
  | setConflictStatus tenantID id status strategy by_ =>
    obtain rfl : tenantID = T := ho
    exact setConflict_part
  | setSourceEventStatus tenantID eventID old new =>
    obtain rfl : tenantID = T := ho
    exact setStatus_part
  | setReconciliationFindingStatus tenantID id status error =>
    obtain rfl : tenantID = T := ho
    exact setFinding_part
  | listPolicies | getConnectionByProvider | getCanonical | getCanonicalByProvider | getCanonicalByEmail
  | getOutboundWrite | getReconciliationFinding | getReconciliationRun => exact (ite_self _).symm
  | _ => exact ho.elim

theorem exec_part (ho : o.ofTenant T) :
    exec now pick o (db.part T) = ((exec now pick o db).1, (exec now pick o db).2.part T) := by
  refine Prod.ext ?_ ((exec_within ho).trans (if_pos rfl)).symm
  cases o with
  | claimProcessedEvent key => simp only [exec, processed_part ho]
  | listPolicies tenantID =>
    simp only [exec, policiesOf]
    rw [show (db.part T).policies.rows = db.policies.rows.filter (fun p => p.tenantID = T) from rfl,
      filter_part (fun _ hx => (of_decide_eq_true hx).1.trans ho)]
  | getConnectionByProvider tenantID provider =>
    simp only [exec, connectionsOf]
    rw [show (db.part T).connections = db.connections.filter (fun c => c.tenantID = T) from rfl,
      filter_part (fun _ hx => (of_decide_eq_true hx).1.trans ho)]
  | getCanonical key => simp only [exec, get_canonical_part ho]
  | getCanonicalByProvider tenantID entityType provider providerID =>
    obtain rfl : tenantID = T := ho
    simp only [exec, canonicalsWithProvider_part]
  | getCanonicalByEmail tenantID entityType email =>
    obtain rfl : tenantID = T := ho
    simp only [exec, canonicalsWithEmail_part]
  | getOutboundWrite key =>
    simp only [exec]
    rw [show (db.part T).outbound key = db.outbound key from ofKeys_self ho]
  | getReconciliationFinding tenantID id =>
    simp only [exec]
    rw [show (db.part T).findings = db.findings.filter (fun f => f.tenantID = T) from rfl,
      find_part (fun _ hx => (of_decide_eq_true hx).1.trans ho)]
  | getReconciliationRun tenantID id =>
    simp only [exec]
    rw [show (db.part T).runs = db.runs.filter (fun r => r.tenantID = T) from rfl,
      find_part (fun _ hx => (of_decide_eq_true hx).1.trans ho)]
  | releaseProcessedEvent | addProviderID | upsertCanonical | persistApplyState | upsertOutboundWrite |
      insertSyncOperation
  | insertConflict | setConflictStatus | setSourceEventStatus | setReconciliationFindingStatus => rfl
  | _ => exact ho.elim

theorem exec_part_other (ho : o.ofTenant T) (hne : T' ≠ T) : (exec now pick o db).2.part T' = db.part T' :=
  (exec_within ho).trans (if_neg hne.symm)

end Database

end SyncForge
