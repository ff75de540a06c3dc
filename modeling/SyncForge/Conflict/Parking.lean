import SyncForge.Worker.Calls
import SyncForge.Store.Conflicts
import SyncForge.Deployment

/-!
# `Conflict.Parking` — which conflicts are recorded

`applyUpsert` stores a row of `conflicts` when `Merge` detects some. The row is about the first detected
field, and an error of the insert is ignored. `prepare` is everything `dispatch` does before the merge.
-/

namespace SyncForge.Parking

open Effect
open Effect.Prog hiding pure
open Store
open Deployment (annRow linked policy record tenant world)

/-! ## What happens before the merge -/

/-- What `Merge` is given. -/
structure MergeInput where
  entityType : String
  policies : List SyncPolicy
  cust : Customer
  canonical : CanonicalRecord

/-- `applySourceEvent` up to the merge: nothing is left to merge for a stale event or an echo. -/
def sourceInput (env : Env) (ev : Event) (entityType : String) (policies : List SyncPolicy) (fields : Data) :
    Sync (Option MergeInput) := do
  let src ← connect env ev.tenantID ev.source
  let srcRec : ProviderRecord := { id := ev.entityID, sourceVersion := ev.sourceVersion, data := fields }
  ofExcept (src.adapter.validate srcRec)
  let cust := src.adapter.normalize srcRec
  let canonical ← resolveCanonical ev entityType cust
  if ev.sourceVersion ≤ canonical.sourceVersions ev.source then
    pure none
  else
    let echo ← isEcho env ev.tenantID entityType canonical.entityID ev.source cust
    if echo then pure none else pure (some ⟨entityType, policies, cust, canonical⟩)

/-- What the middle of `Process` comes to: the event is done with, or there is something to merge. -/
inductive Prepared where
  | done (d : Dispatched)
  | merge (i : MergeInput)

/-- `applyUpsert` up to the merge. -/
def prepareUpsert (env : Env) (ev : Event) (entityType : String) (policies : List SyncPolicy) :
    Sync Prepared :=
  match ev.fields with
  | none => .throw missingFields
  | some fields =>
    if fields.entries = [] then .throw missingFields
    else if ev.provenance.resolvedConflictID ≠ "" then do
      applyResolution env ev entityType policies (canonicalFields fields)
      pure (.done .applied)
    else do
      match ← sourceInput env ev entityType policies fields with
      | none => pure (.done .applied)
      | some i => pure (.merge i)

/-- `dispatch` up to the merge. -/
def prepare (env : Env) (ev : Event) : Sync Prepared := do
  let policies ← stmt (.listPolicies ev.tenantID)
  let entityType ← canonicalEntityType env ev
  if ev.provenance.reconcileFindingID ≠ "" then
    applyReconcileFinding env ev entityType policies
    pure (.done .reconciled)
  else if targets ev entityType policies = [] then
    pure (.done .noPolicy)
  else if ev.eventType = .deleted then
    applyDelete env ev entityType (targets ev entityType policies)
    pure (.done .applied)
  else prepareUpsert env ev entityType (targets ev entityType policies)

def merging (env : Env) (ev : Event) (i : MergeInput) : Sync Unit :=
  mergeAndApply env ev i.entityType i.policies i.cust i.canonical

/-- What is left of `dispatch` after `prepare`. -/
def conclude (env : Env) (ev : Event) : Prepared → Sync Dispatched
  | .done d => pure d
  | .merge i => do
    merging env ev i
    pure .applied

variable {env : Env} {ev : Event} {w : World}
  {entityType : String} {policies : List SyncPolicy} {i : MergeInput} {w1 : World}

theorem applySourceEvent_eq {fields : Data} :
    applySourceEvent env ev entityType policies fields = sourceInput env ev entityType policies fields >>= fun
      | none => pure ()
      | some i => merging env ev i := by
  unfold applySourceEvent sourceInput
  simp only [Prog.bind_assoc]
  congr 1
  funext src
  congr 1
  funext _
  congr 1
  funext canonical
  split_ifs with hstale
  · rfl
  · rw [Prog.bind_assoc]
    congr 1
    funext echo
    cases echo <;> rfl

theorem applyUpsert_eq : (applyUpsert env ev entityType policies >>= fun _ => pure .applied)
      = prepareUpsert env ev entityType policies >>= conclude env ev := by
  unfold applyUpsert prepareUpsert
  cases ev.fields with
  | none => rfl
  | some fields =>
    dsimp only
    split_ifs with hempty hresolution
    · rfl
    · rw [Prog.bind_assoc]
      rfl
    · rw [applySourceEvent_eq, Prog.bind_assoc, Prog.bind_assoc]
      congr 1
      funext i
      cases i <;> rfl

theorem dispatch_eq : dispatch env ev = prepare env ev >>= conclude env ev := by
  unfold dispatch prepare
  simp only [Prog.bind_assoc]
  congr 1
  funext policies
  congr 1
  funext entityType
  split_ifs with hfinding htargets hdeleted
  · rw [Prog.bind_assoc]
    rfl
  · rfl
  · rw [Prog.bind_assoc]
    rfl
  · exact applyUpsert_eq

/-- `Process` up to the merge: what the event, once it is claimed, leaves to merge. -/
def toMerge (env : Env) (ev : Event) : Sync (Option MergeInput) := do
  let claimed ← stmt (.claimProcessedEvent ev.key)
  if claimed then
    match ← prepare env ev with
    | .done _ => pure none
    | .merge i => pure (some i)
  else pure none

/-- What is left of `Process` once `Merge` has something to do. -/
def finishMerge (env : Env) (ev : Event) (i : MergeInput) : Sync Outcome := do
  match ← attempt (merging env ev i) with
  | .error e => do
    fail ev
    .throw e
  | .ok _ => do
    mark ev .processed
    pure .applied

theorem toMerge_eq_some (h : Prog.run (World.handle env) (toMerge env ev) w = (.ok (some i), w1)) :
    ∃ w', Prog.run (World.handle env) (stmt (.claimProcessedEvent ev.key)) w = (.ok true, w') ∧
      Prog.run (World.handle env) (prepare env ev) w' = (.ok (.merge i), w1) := by
  unfold toMerge at h
  rw [run_bind] at h
  cases hclaim : Prog.run (World.handle env) (stmt (.claimProcessedEvent ev.key)) w with
  | mk claimed w' =>
    rw [hclaim] at h
    cases claimed with
    | error e => cases h
    | ok claimed =>
      cases claimed with
      | false => cases h
      | true =>
        dsimp only at h
        rw [if_pos rfl, run_bind] at h
        refine ⟨w', rfl, ?_⟩
        cases hprepare : Prog.run (World.handle env) (prepare env ev) w' with
        | mk prepared w'' =>
          rw [hprepare] at h
          cases prepared with
          | error e => cases h
          | ok prepared =>
            cases prepared with
            | done d => cases h
            | merge i' =>
              cases h
              rfl

theorem dispatch_of_prepare {w' : World}
    (h : Prog.run (World.handle env) (prepare env ev) w' = (.ok (.merge i), w1)) :
    Prog.run (World.handle env) (dispatch env ev) w'
      = (((Prog.run (World.handle env) (merging env ev i) w1).1.map fun _ => .applied),
          (Prog.run (World.handle env) (merging env ev i) w1).2) := by
  rw [dispatch_eq, run_bind_ok _ h]
  show Prog.run (World.handle env) (merging env ev i >>= fun _ => pure Dispatched.applied) w1 = _
  rw [run_bind]
  cases Prog.run (World.handle env) (merging env ev i) w1 with
  | mk r w2 => cases r <;> rfl

/-- **A run of `Process` that comes to the merge** goes on from there. -/
theorem process_of_toMerge (h : Prog.run (World.handle env) (toMerge env ev) w = (.ok (some i), w1)) :
    Prog.run (World.handle env) (process env ev) w
    = Prog.run (World.handle env) (finishMerge env ev i) w1 := by
  obtain ⟨w', hclaim, hprepare⟩ := toMerge_eq_some h
  unfold process
  rw [run_bind_ok _ hclaim, if_pos rfl]
  unfold processClaimed finishMerge
  rw [run_bind, run_attempt, dispatch_of_prepare hprepare, run_bind, run_attempt]
  cases Prog.run (World.handle env) (merging env ev i) w1 with
  | mk r w2 => cases r <;> rfl

/-! ## The row -/

/-- What `Merge` detects. -/
def detected (ev : Event) (i : MergeInput) : List (Conflict.FieldConflict Field Any) :=
  (mergedWith ev i.policies i.cust i.canonical).detected

def keepsConflicts : Call → Bool
  | .store (.insertConflict _) | .store (.setConflictStatus _ _ _ _ _) => false
  | _ => true

abbrev KeepsConflicts {α : Type} (p : Sync α) : Prop := Only (fun o => keepsConflicts o = true) p

theorem run_conflicts {α : Type} {p : Sync α} (hp : KeepsConflicts p) :
    (Prog.run (World.handle env) p w).2.db.conflicts = w.db.conflicts := by
  induction p generalizing w with
  | pure | throw => rfl
  | call o k ih =>
    have hcall : (World.handle env o w).2.db.conflicts = w.db.conflicts := by
      rcases @World.handle_db env w o with h | ⟨s, pick, rfl, -, h⟩
      · rw [h]
      · rw [h]
        have hs : keepsConflicts (.store s) = true := hp.1
        cases s with
        | insertConflict | setConflictStatus => cases hs
        | _ => rfl
    exact (ih _ (hp.2 _)).trans hcall

theorem writeDestination_keeps {tenant destination : String} {cust : Customer} {canonical : CanonicalRecord} :
    KeepsConflicts (writeDestination env tenant destination cust canonical) := by
  refine only_bind (only_bind (only_stmt rfl) (fun _ => only_ofExcept _)) (fun dst => ?_)
  show KeepsConflicts (ite _ _ _)
  split <;> exact only_bind (only_perform rfl) (fun _ => trivial)

theorem propagate_keeps {cust : Customer} {canonical : CanonicalRecord} {outbound : List OutboundWrite}
    {ops : List SyncOperation} : KeepsConflicts
    (propagate env ev entityType cust policies canonical outbound ops) := by
  induction policies generalizing canonical outbound ops with
  | nil => exact trivial
  | cons p ps ih => exact only_bind writeDestination_keeps (fun c => ih)

/-- After the row, `Merge` has no more to do with conflicts. -/
theorem applyMerged_keeps {cust : Customer} {canonical : CanonicalRecord} :
    KeepsConflicts (applyMerged env ev entityType policies cust canonical) :=
  only_bind propagate_keeps (fun _ => only_stmt rfl)

def conflictKey (ev : Event) (i : MergeInput) (d : Conflict.FieldConflict Field Any) : ConflictKey :=
  ⟨ev.tenantID, i.entityType, i.canonical.entityID, d.a.source, d.b.source, d.a.version, d.b.version⟩

theorem merging_eq {i : MergeInput} {d : Conflict.FieldConflict Field Any}
    {rest : List (Conflict.FieldConflict Field Any)} (hdetected : detected ev i = d :: rest) :
      ∃ row k, row.key = conflictKey ev i d ∧ (∀ r, KeepsConflicts (k r)) ∧
      merging env ev i = attempt (stmt (.insertConflict row)) >>= k := by
  have hthen : ∀ (status : ConflictStatus) (k : Unit → Sync Unit), KeepsConflicts (k ()) → ∃ row k',
      row.key = conflictKey ev i d ∧ (∀ r, KeepsConflicts (k' r)) ∧
      (recordConflict ev i.entityType i.canonical i.cust.fields (detected ev i) status
        (strategyOf i.policies) >>= k) = attempt (stmt (.insertConflict row)) >>= k' := by
    intro status k hk
    rw [hdetected]
    exact ⟨_, fun _ => k (), rfl, fun _ => hk, by rw [recordConflict, tryStmt, Prog.bind_assoc]; rfl⟩
  show ∃ row k, _ ∧ _ ∧ ite _ _ _ = _
  split_ifs
  · show ∃ row k, _ ∧ _ ∧ recordConflict ev i.entityType i.canonical i.cust.fields (detected ev i) .pending _ = _
    rw [hdetected]
    exact ⟨_, fun _ => Pure.pure (), rfl, fun _ => trivial, rfl⟩
  · exact hthen .autoResolved _ applyMerged_keeps

theorem recorded_insert {row : ConflictRecord} {key : ConflictKey} :
    World.Recorded key (World.handle env (.store (.insertConflict row)) w).2 ↔
      World.Recorded key w ∨ (w.storeTape w.calls).isOk = true ∧ key = row.key := by
  rcases World.handle_store env w (.insertConflict row) with ⟨text, htape, hfail⟩ | ⟨pick, htape, hdone⟩
  · rw [hfail, htape]
    exact ⟨.inl, fun h => h.resolve_right (fun h => nomatch h.1)⟩
  · rw [hdone, htape]
    constructor
    · rintro ⟨c, hc, hkey⟩
      have hc : c ∈ (w.db.recordConflict row).conflicts.rows := hc
      unfold Database.recordConflict at hc
      cases hget : w.db.conflicts.get? row.key with
      | some _ =>
        rw [hget] at hc
        exact .inl ⟨c, hc, hkey⟩
      | none =>
        rw [hget] at hc
        rcases Relational.Table.mem_upsert.mp hc with rfl | ⟨hc, -⟩
        · exact .inr ⟨rfl, hkey.symm⟩
        · exact .inl ⟨c, hc, hkey⟩
    · rintro (⟨c, hc, hkey⟩ | ⟨-, rfl⟩)
      · exact ⟨c, Database.mem_recordConflict hc, hkey⟩
      · exact Database.exists_recordConflict

theorem mem_detected {d : Conflict.FieldConflict Field Any} (h : d ∈ detected ev i) :
    d.b = ⟨ev.source, ev.sourceVersion, ev.occurredAt, priorityOf i.policies⟩ := by
  rw [detected, mergedWith, Conflict.merge_detected] at h
  obtain ⟨v, _, hfield⟩ := Conflict.mem_detect.mp h
  obtain ⟨_, _, _, _, hd⟩ := Conflict.detectField_eq_some hfield
  rw [hd]

theorem recorded_iff {d : Conflict.FieldConflict Field Any}
    (hmerge : Prog.run (World.handle env) (toMerge env ev) w = (.ok (some i), w1)) (hd : d ∈ detected ev i) :
    World.Recorded (conflictKey ev i d) (Prog.run (World.handle env) (process env ev) w).2 ↔
      World.Recorded (conflictKey ev i d) w1 ∨ (w1.storeTape w1.calls).isOk = true ∧
        (detected ev i).head?.map (fun first => (first.a.source, first.a.version)) = some (d.a.source, d.a.version) := by
  obtain ⟨first, rest, hdetected⟩ := List.exists_cons_of_ne_nil (List.ne_nil_of_mem hd)
  obtain ⟨row, k, hrow, hkeeps, hmerging⟩ := @merging_eq env ev i first rest hdetected
  -- the insert is the only call from here on that concerns conflicts
  have hend : (Prog.run (World.handle env) (process env ev) w).2.db.conflicts
      = (World.handle env (.store (.insertConflict row)) w1).2.db.conflicts := by
    have hmerged : (Prog.run (World.handle env) (merging env ev i) w1).2.db.conflicts
        = (World.handle env (.store (.insertConflict row)) w1).2.db.conflicts := by
      rw [hmerging, run_bind, run_attempt]
      exact (run_conflicts (hkeeps _)).trans (by rw [stmt, run_perform])
    have hrest : ∀ r : Except GoError Unit, KeepsConflicts (match r with
        | .error e => do
          fail ev
          .throw e
        | .ok _ => do
          mark ev .processed
          pure Outcome.applied) := by
      intro r
      cases r with
      | error e => exact only_bind (only_bind (only_tryStmt rfl) (fun _ => only_tryStmt rfl)) (fun _ => only_throw _)
      | ok _ => exact only_bind (only_tryStmt rfl) (fun _ => only_return _)
    rw [process_of_toMerge hmerge, finishMerge, run_bind, run_attempt]
    exact (run_conflicts (hrest _)).trans hmerged
  have hkey : conflictKey ev i d = row.key ↔
      (detected ev i).head?.map (fun first => (first.a.source, first.a.version)) = some (d.a.source, d.a.version) := by
    have hfirst : first ∈ detected ev i := by rw [hdetected]; exact .head _
    rw [hrow, hdetected, List.head?_cons, Option.map_some, Option.some_inj, Prod.mk.injEq]
    unfold conflictKey
    rw [mem_detected hd, mem_detected hfirst]
    simp only [ConflictKey.mk.injEq, true_and, and_true]
    exact ⟨fun h => ⟨h.1.symm, h.2.symm⟩, fun h => ⟨h.1.symm, h.2.symm⟩⟩
  rw [← hkey, ← @recorded_insert env]
  unfold World.Recorded
  rw [hend]

/-- **Detected conflicts are recorded** as far as one row goes. After a run of `Process` that came to the
    merge there is a row for every detected conflict exactly if each of them either had its row before, or has
    the last writer and version of the first one, whose row is stored because the statement that stores it
    succeeds. -/
theorem detected_recorded (hmerge : Prog.run (World.handle env) (toMerge env ev) w = (.ok (some i), w1)) :
    (∀ d ∈ detected ev i, ∃ c ∈ (Prog.run (World.handle env) (process env ev) w).2.db.conflicts.rows,
        c.key = conflictKey ev i d) ↔
      ∀ d ∈ detected ev i, (∃ c ∈ w1.db.conflicts.rows, c.key = conflictKey ev i d) ∨ (w1.storeTape w1.calls).isOk = true ∧
        (detected ev i).head?.map (fun first => (first.a.source, first.a.version)) = some (d.a.source, d.a.version) :=
  forall₂_congr (fun _ hd => recorded_iff hmerge hd)

/-! ## An event of HubSpot for Ann -/

def parking : SyncPolicy := { policy "hubspot" "salesforce" with conflictStrategy := .manual }

def parkingWorld (row : CanonicalRecord) : World :=
  { world [parking] with
    db := { (world [parking]).db with canonical := Relational.Table.empty.upsert row }
    sims := (linked false).sims }

def annRenamed : Event where
  eventID := "h1"
  tenantID := tenant
  source := "hubspot"
  entityType := "contact"
  entityID := "hub-1"
  eventType := .updated
  sourceVersion := 2
  occurredAt := 5
  fields := some (record hubspot "Anna" "Lee" "anna@x")

/-- The keys of what `Merge` detects in a run. -/
def detectedKeys (w : World) : List ConflictKey :=
  match (Prog.run (World.handle Deployment.env) (toMerge Deployment.env annRenamed) w).1 with
  | .ok (some i) => (detected annRenamed i).map (conflictKey annRenamed i)
  | _ => []

theorem exists_of_detectedKeys {k : ConflictKey} {ks : List ConflictKey} (h : detectedKeys w = k :: ks) :
    ∃ i, (Prog.run (World.handle Deployment.env) (toMerge Deployment.env annRenamed) w).1 = .ok (some i) ∧
      (detected annRenamed i).map (conflictKey annRenamed i) = k :: ks := by
  unfold detectedKeys at h
  split at h
  · rename_i i hi
    exact ⟨i, hi, h⟩
  · cases h

theorem detected_recorded_ann : ∃ i,
    (Prog.run (World.handle Deployment.env) (toMerge Deployment.env annRenamed) (parkingWorld annRow)).1
      = .ok (some i) ∧
      (detected annRenamed i).length = 2 ∧ ∀ d ∈ detected annRenamed i, ∃ c ∈ (Prog.run (World.handle Deployment.env)
        (process Deployment.env annRenamed) (parkingWorld annRow)).2.db.conflicts.rows,
          c.key = conflictKey annRenamed i d := by
  have hkeys : detectedKeys (parkingWorld annRow)
      = [⟨"t1", "customer", "sf-1", "salesforce", "hubspot", 1, 2⟩, ⟨"t1", "customer", "sf-1", "salesforce", "hubspot", 1, 2⟩] := by
    decide +kernel
  obtain ⟨i, hi, hmap⟩ := exists_of_detectedKeys hkeys
  refine ⟨i, hi, ?_, ?_⟩
  · have hlength := congrArg List.length hmap
    rwa [List.length_map] at hlength
  · have hwriter : ∀ d ∈ detected annRenamed i, d.a.source = "salesforce" ∧ d.a.version = 1 := by
      intro d hd
      have hkey : conflictKey annRenamed i d ∈ (detected annRenamed i).map (conflictKey annRenamed i) := List.mem_map_of_mem hd
      rw [hmap] at hkey
      have heq : conflictKey annRenamed i d = ⟨"t1", "customer", "sf-1", "salesforce", "hubspot", 1, 2⟩ := by simpa using hkey
      exact ⟨congrArg ConflictKey.sourceA heq, congrArg ConflictKey.versionA heq⟩
    obtain ⟨first, rest, hdetected⟩ : ∃ first rest, detected annRenamed i = first :: rest := by
      cases hlist : detected annRenamed i with
      | nil => rw [hlist] at hmap; cases hmap
      | cons first rest => exact ⟨first, rest, rfl⟩
    have hfirst := hwriter first (by rw [hdetected]; exact .head _)
    refine (detected_recorded (Prod.ext hi rfl)).mpr (fun d hd => .inr ⟨by decide +kernel, ?_⟩)
    rw [hdetected, List.head?_cons, Option.map_some, hfirst.1, hfirst.2, (hwriter d hd).1, (hwriter d hd).2]

def twoWriters : CanonicalRecord :=
  { annRow with
    fieldProvenance := fun f => if f = .email then some ⟨"erp", 7, 3, 100⟩ else some ⟨"salesforce", 1, 1, 100⟩ }

def rowLost : World :=
  { parkingWorld annRow with storeTape := fun n => if n = 6 then .error "connection reset" else .ok 0 }

/-- **Detected conflicts go unrecorded.** With two last writers only the first field's row is stored, though
    no call fails; and if the one insert fails, `Process` returns `nil` all the same: the edit is dropped, and
    nothing tells of it. -/
theorem detected_unrecorded :
    (∃ i, (Prog.run (World.handle Deployment.env) (toMerge Deployment.env annRenamed)
      (parkingWorld twoWriters)).1 = .ok (some i) ∧
      (Prog.run (World.handle Deployment.env) (process Deployment.env annRenamed) (parkingWorld twoWriters)).1 = .ok .applied ∧
      ∃ d ∈ detected annRenamed i, ∀ c ∈ (Prog.run (World.handle Deployment.env) (process Deployment.env annRenamed)
        (parkingWorld twoWriters)).2.db.conflicts.rows, c.key ≠ conflictKey annRenamed i d) ∧
    (∃ i, (Prog.run (World.handle Deployment.env) (toMerge Deployment.env annRenamed) rowLost).1
      = .ok (some i) ∧
      (Prog.run (World.handle Deployment.env) (process Deployment.env annRenamed) rowLost).1 = .ok .applied ∧
      (detected annRenamed i).length = 2 ∧
      (Prog.run (World.handle Deployment.env) (process Deployment.env annRenamed) rowLost).2.db.conflicts.rows.map
        ConflictRecord.key = []) := by
  constructor
  · have hkeys : detectedKeys (parkingWorld twoWriters)
        = [⟨"t1", "customer", "sf-1", "erp", "hubspot", 7, 2⟩, ⟨"t1", "customer", "sf-1", "salesforce", "hubspot", 1, 2⟩] := by
      decide +kernel
    have hrows : (Prog.run (World.handle Deployment.env) (process Deployment.env annRenamed)
        (parkingWorld twoWriters)).2.db.conflicts.rows.map ConflictRecord.key
          = [⟨"t1", "customer", "sf-1", "erp", "hubspot", 7, 2⟩] := by
      decide +kernel
    obtain ⟨i, hi, hmap⟩ := exists_of_detectedKeys hkeys
    obtain ⟨d, hd, hkey⟩ : ∃ d ∈ detected annRenamed i,
        conflictKey annRenamed i d = ⟨"t1", "customer", "sf-1", "salesforce", "hubspot", 1, 2⟩ := by
      refine List.mem_map.mp ?_
      rw [hmap]
      exact .tail _ (.head _)
    refine ⟨i, hi, by decide +kernel, d, hd, fun c hc heq => ?_⟩
    have hmem := List.mem_map_of_mem (f := ConflictRecord.key) hc
    rw [hrows, heq, hkey] at hmem
    exact absurd hmem (by decide)
  · have hkeys : detectedKeys rowLost
        = [⟨"t1", "customer", "sf-1", "salesforce", "hubspot", 1, 2⟩, ⟨"t1", "customer", "sf-1", "salesforce", "hubspot", 1, 2⟩] := by
      decide +kernel
    obtain ⟨i, hi, hmap⟩ := exists_of_detectedKeys hkeys
    refine ⟨i, hi, by decide +kernel, ?_, by decide +kernel⟩
    have hlength := congrArg List.length hmap
    rwa [List.length_map] at hlength

end SyncForge.Parking
