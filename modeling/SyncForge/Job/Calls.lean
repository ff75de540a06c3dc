import SyncForge.Job.Runner
import SyncForge.Worker.Calls

/-!
# `Job.Calls` — which calls a runner can make

A sweep's own calls read the provider's pages, the policies and canonical records, and write the run, the job
and the findings' counters; whatever else it does, it does for a finding, through `record`. So a property of
all calls of a run follows from its own calls and from `record`. A full synchronization is its own calls and
`Process`.
-/

namespace SyncForge

open Effect Effect.Prog Store

def Call.isSweep : Call → Bool
  | .list _ _ _ => true
  | .store o =>
    match o with
    | .getReconciliationRunByJobID _ | .finishReconciliationRun _ _ _ | .finishSyncJob _ _ _ _
    | .getConnectionByProvider _ _ | .listPolicies _ | .getCanonicalByProvider _ _ _ _
    | .updateSyncJobProgress _ _ _ _ _ _ | .listCanonicalByProvider _ _ _ | .countReconciliationFindings _ _
    | .updateReconciliationCounters _ _ _ _ _ => true
    | _ => false
  | _ => false

def Call.isOwn : Call → Bool
  | .store (.finishSyncJob _ _ status _) => status = .completed ∨ status = .failed
  | o => o.isSweep

theorem Call.isSweep_of_isOwn {o : Call} (h : o.isOwn = true) : o.isSweep = true := by
  cases o with
  | store s => cases s <;> first | rfl | exact h
  | _ => exact h

variable {env : Env} {P : Call → Prop}

namespace Reconcile

section

variable (hown : ∀ o : Call, o.isOwn = true → P o)
include hown

theorem abort_only {α : Type} {job : SyncJob} {cause : GoError} : Only P (abort job cause : Sync α) := by
  refine only_lookup (hown _ rfl) (fun r => ?_)
  split
  · exact only_bind (only_tryStmt (hown _ rfl)) (fun _ => only_throw _)
  · refine only_bind (only_tryStmt (hown _ rfl)) (fun _ => ?_)
    exact only_bind (only_tryStmt (hown _ rfl)) (fun _ => only_throw _)

theorem orAbort_only {α : Type} {job : SyncJob} {p : Sync α} (hp : Only P p) : Only P (orAbort job p) := by
  refine only_bind (only_attempt hp) (fun r => ?_)
  split
  · exact only_return _
  · exact abort_only hown

end

/-- `record` inserts a finding; an automatic run then repairs it or says why not. -/
theorem record_only {run : ReconciliationRun} {job : SyncJob} {entityType : String} {kind : FindingKind}
    {providerID : String} {version : Int} {canonical : Option CanonicalRecord} {providerFields : FieldMap} {deletePolicy : DeletePolicy}
    (hinsert : P (.store (.insertReconciliationFinding (finding run job kind providerID version canonical providerFields))))
    (hskip : ∀ id reason, P (.store (.setReconciliationFindingStatus job.tenantID id .skipped reason))) (htime : P .timeNow)
    (hrepair : ∀ f now, Only P (process env (repairEvent run job entityType f now))) :
    Only P (record env run job entityType kind providerID version canonical providerFields deletePolicy) := by
  refine only_bind (only_stmt hinsert) (fun stored => ?_)
  unfold settle
  split_ifs
  · refine only_bind (only_attempt (only_bind (only_perform htime) (fun now => ?_))) (fun _ => only_return _)
    exact only_bind (hrepair stored now) (fun _ => only_return _)
  · exact only_tryStmt (hskip _ _)
  · exact only_return _

namespace Sweep

variable {w : Sweep} (hown : ∀ o : Call, o.isOwn = true → P o)
  (hrecord : ∀ kind providerID version canonical providerFields,
    Only P (record env w.run w.job w.entityType kind providerID version canonical providerFields
      w.deletePolicy))
include hrecord

theorem compare_only {rec : ProviderRecord} {canonical : Option CanonicalRecord} {s : Progress} :
    Only P (w.compare env rec canonical s) := by
  unfold compare
  dsimp only
  split
  · exact only_return _
  · refine only_bind (only_attempt (hrecord _ _ _ _ _)) (fun r => ?_)
    split <;> exact only_return _

include hown

theorem sweepRecord_only {rec : ProviderRecord} {s : Progress} : Only P (w.sweepRecord env rec s) := by
  unfold sweepRecord
  split_ifs
  · exact only_return _
  · split
    · exact only_return _
    · refine only_lookup (hown _ rfl) (fun r => ?_)
      split
      · exact compare_only hrecord
      · exact compare_only hrecord
      · exact abort_only hown

theorem sweepPage_only {recs : List ProviderRecord} {s : Progress} : Only P (w.sweepPage env recs s) := by
  induction recs generalizing s with
  | nil => exact only_return _
  | cons rec recs ih => exact only_bind (sweepRecord_only hown hrecord) (fun _ => ih)

theorem walk_only {fuel : Nat} {cursor : String} {s : Progress} : Only P (w.walk env fuel cursor s) := by
  induction fuel generalizing cursor s with
  | zero => exact only_return _
  | succ fuel ih =>
    unfold walk
    refine only_bind (orAbort_only hown (only_perform (hown _ rfl))) (fun page => ?_)
    refine only_bind (sweepPage_only hown hrecord) (fun s => ?_)
    refine only_bind (orAbort_only hown (only_stmt (hown _ rfl))) (fun _ => ?_)
    split_ifs
    · exact only_return _
    · exact ih

omit hown in
theorem sweepMissing_only {seen : List String} {cs : List CanonicalRecord} :
    Only P (w.sweepMissing env seen cs) := by
  induction cs with
  | nil => exact only_return _
  | cons c cs ih =>
    unfold sweepMissing
    split_ifs
    · exact ih
    · exact only_bind (only_attempt (hrecord _ _ _ _ _)) (fun _ => ih)

omit hrecord in
theorem finish_only {total : Int} : Only P (w.finish total) := by
  refine only_bind (orAbort_only hown (only_stmt (hown _ rfl))) (fun counts => ?_)
  refine only_bind (orAbort_only hown (only_stmt (hown _ rfl))) (fun _ => ?_)
  refine only_bind (orAbort_only hown (only_stmt (hown _ rfl))) (fun _ => ?_)
  exact only_stmt (hown _ rfl)

theorem sweep_only {fuel : Nat} : Only P (w.sweep env fuel) := by
  refine only_bind (walk_only hown hrecord) (fun r => ?_)
  split
  · exact only_return _
  · refine only_bind (orAbort_only hown (only_stmt (hown _ rfl))) (fun canonicals => ?_)
    refine only_bind (sweepMissing_only hrecord) (fun _ => ?_)
    exact only_bind (finish_only hown) (fun _ => only_return _)

end Sweep

theorem sweepRun_only {fuel : Nat} {job : SyncJob} {run : ReconciliationRun}
    (hown : ∀ o : Call, o.isOwn = true → P o)
    (hrecord : ∀ entityType kind providerID version canonical providerFields deletePolicy,
      Only P (record env run job entityType kind providerID version canonical providerFields deletePolicy)) :
    Only P (sweepRun env fuel job run) := by
  refine only_bind (orAbort_only hown (only_stmt (hown _ rfl))) (fun conn => ?_)
  refine only_bind (orAbort_only hown (only_ofExcept _)) (fun src => ?_)
  refine only_bind (orAbort_only hown (only_stmt (hown _ rfl))) (fun policies => ?_)
  exact Sweep.sweep_only hown (fun _ _ _ _ _ => hrecord _ _ _ _ _ _ _)

theorem run_only {fuel : Nat} {job : SyncJob} (hown : ∀ o : Call, o.isOwn = true → P o)
    (hrecord : ∀ run entityType kind providerID version canonical providerFields deletePolicy,
      Only P (record env run job entityType kind providerID version canonical providerFields deletePolicy)) :
    Only P (run env fuel job) := by
  refine only_lookup (hown _ rfl) (fun r => ?_)
  split
  · exact abort_only hown
  · exact only_throw _
  · split_ifs
    · exact only_return _
    · exact sweepRun_only hown (hrecord _)

end Reconcile

namespace Job

section

variable (hown : ∀ o : Call, o.isOwn = true → P o)
include hown

theorem abort_only {α : Type} {job : SyncJob} {cause : GoError} : Only P (abort job cause : Sync α) :=
  only_bind (only_tryStmt (hown _ rfl)) (fun _ => only_throw _)

theorem orAbort_only {α : Type} {job : SyncJob} {p : Sync α} (hp : Only P p) : Only P (orAbort job p) := by
  refine only_bind (only_attempt hp) (fun r => ?_)
  split
  · exact only_return _
  · exact abort_only hown

end

section

variable {job : SyncJob} {src : Remote}
  (hpark : ∀ rec reason, Only P (Api.parkProviderRecord (malformedEvent job rec) reason)) (htime : P .timeNow)
  (hprocess : ∀ entityType rec now, Only P (process env (recordEvent job entityType rec now)))
include hpark htime hprocess

theorem applyRecord_only {rec : ProviderRecord} {counts : Int × Int} :
    Only P (applyRecord env job src rec counts) := by
  unfold applyRecord
  split_ifs
  · exact only_return _
  · split
    · exact only_bind (hpark _ _) (fun _ => only_return _)
    · refine only_bind (only_perform htime) (fun now => ?_)
      refine only_bind (only_attempt (hprocess _ _ _)) (fun r => ?_)
      split <;> exact only_return _

theorem applyPage_only {recs : List ProviderRecord} {counts : Int × Int} :
    Only P (applyPage env job src recs counts) := by
  induction recs generalizing counts with
  | nil => exact only_return _
  | cons rec recs ih => exact only_bind (applyRecord_only hpark htime hprocess) (fun _ => ih)

variable (hown : ∀ o : Call, o.isOwn = true → P o)
include hown

theorem walk_only {total : Int} {fuel : Nat} {cursor : String} {counts : Int × Int} :
    Only P (walk env job src total fuel cursor counts) := by
  induction fuel generalizing cursor counts with
  | zero => exact only_return _
  | succ fuel ih =>
    unfold walk
    refine only_bind (orAbort_only hown (only_perform (hown _ rfl))) (fun page => ?_)
    refine only_bind (applyPage_only hpark htime hprocess) (fun counts => ?_)
    refine only_bind (orAbort_only hown (only_stmt (hown _ rfl))) (fun _ => ?_)
    split_ifs
    · exact only_bind (only_stmt (hown _ rfl)) (fun _ => only_return _)
    · exact ih

theorem fullSync_only {fuel : Nat} (hhealth : ∀ ep, P (.health ep)) : Only P (fullSync env fuel job) := by
  refine only_bind (orAbort_only hown (only_stmt (hown _ rfl))) (fun srcConn => ?_)
  refine only_bind (orAbort_only hown (only_ofExcept _)) (fun src => ?_)
  refine only_bind (orAbort_only hown (only_stmt (hown _ rfl))) (fun dstConn => ?_)
  refine only_bind (orAbort_only hown (only_ofExcept _)) (fun _ => ?_)
  refine only_bind (only_attempt (only_perform (hhealth _))) (fun r => ?_)
  split <;> exact walk_only hpark htime hprocess hown

end

end Job

end SyncForge
