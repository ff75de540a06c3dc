import SyncForge.Api.DeadLetter
import SyncForge.Reconcile.Engine
import SyncForge.Store.Frame

/-!
# `Api.Decision` — an operator resolves or dismisses a conflict, or approves a repair

`handleResolveConflict` and `handleDismissConflict` of `internal/api/conflicts.go`, and `handleApplyFinding`
of `reconcile.go`. A resolution or an approval queues an event that carries the row's id; the row stays
pending until the worker applies it. A dismissal sets the status at once. The audit row is left out.
-/

namespace SyncForge.Api

open Effect
open Effect.Prog (attempt perform)
open Store

/-- `decodedPayload` of a stored field map. -/
def decodedPayload (fields : FieldMap) : Data :=
  Field.all.foldl (fun d f => match fields f with | none => d | some v => d.insert f.name v) ∅

/-- The event of `handleResolveConflict`: `side` is true for `"a"`. -/
def resolutionEvent (tenant : String) (c : ConflictRecord) (side : Bool) (now : Time) : Event where
  eventID := "resolve:" ++ c.id
  tenantID := tenant
  source := if side then c.sourceA else c.sourceB
  entityType := c.entityType
  entityID := c.entityID
  eventType := .updated
  sourceVersion := if side then c.versionA else c.versionB
  occurredAt := now
  provenance := { resolvedConflictID := c.id }
  fields := some (decodedPayload (if side then c.payloadA else c.payloadB))

def decide (env : Env) (ev : Event) (lastError errorClass failed queued : String) : Sync Response := do
  match ← attempt (enqueueDecision env ev lastError errorClass) with
  | .error _ => pure ⟨500, failed⟩
  | .ok _ => pure ⟨202, queued⟩

section

open Effect.Prog (run run_bind run_attempt run_perform)

variable {env : Env} {w : World} {ev : Event} {lastError errorClass failed queued text : String}

section

variable (h : (run (World.handle env) (decide env ev lastError errorClass failed queued) w).1
  = .ok ⟨202, text⟩)
include h

theorem decide_accepted : ∃ pick, (run (World.handle env)
      (decide env ev lastError errorClass failed queued) w).2 = w.executed pick (.enqueueRetry
          { tenantID := ev.tenantID, eventID := ev.eventID, maxAttempts := env.options.retryMaxAttempts
            lastError, errorClass, state := .marshal ev } 0) := by
  unfold decide enqueueDecision at h ⊢
  rw [run_bind, run_attempt, run_perform] at h ⊢
  rcases World.handle_store env w (.enqueueRetry
      { tenantID := ev.tenantID, eventID := ev.eventID, maxAttempts := env.options.retryMaxAttempts
        lastError, errorClass, state := .marshal ev } 0) with ⟨text, _, hput⟩ | ⟨pick, _, hput⟩
  · rw [hput] at h
    cases h
  · rw [hput]
    exact ⟨pick, rfl⟩

theorem decide_queued :
    ∃ row ∈ (run (World.handle env) (decide env ev lastError errorClass failed queued)
      w).2.db.retryQueue.rows, row.key = ev.rowKey ∧ row.state = .marshal ev := by
  obtain ⟨pick, hput⟩ := decide_accepted h
  rw [hput]
  refine ⟨w.db.retryRow w.now _ 0, Relational.Table.mem_upsert.mpr (.inl rfl), Database.retryRow_key _ _, ?_⟩
  exact Database.retryRow_state _ _

end

end

/-- `handleResolveConflict`; `body` is the decoded `side`, if the body could be decoded. -/
def handleResolveConflict (env : Env) (tenant id : String) (body : Option String) : Sync Response := do
  match ← attempt (stmt (.getConflict tenant id)) with
  | .error .notFound => pure ⟨404, "conflict not found"⟩
  | .error _ => pure ⟨500, "failed to load conflict"⟩
  | .ok c =>
    if c.status ≠ .pending then pure ⟨409, "conflict is not pending resolution"⟩
    else
      match body with
      | none => pure ⟨400, "invalid body"⟩
      | some side =>
        if side ≠ "a" ∧ side ≠ "b" then pure ⟨400, "side must be \"a\" or \"b\""⟩
        else do
          let now ← perform (S := sig) .timeNow
          decide env (resolutionEvent tenant c (side = "a") now) "operator resolution" "RESOLUTION"
            "failed to enqueue resolution" "resolution_queued"

def handleDismissConflict (tenant id : String) : Sync Response := do
  match ← attempt (stmt (.getConflict tenant id)) with
  | .error .notFound => pure ⟨404, "conflict not found"⟩
  | .error _ => pure ⟨500, "failed to load conflict"⟩
  | .ok c =>
    if c.status ≠ .pending then pure ⟨409, "conflict is not pending"⟩
    else
      match ← attempt (stmt (.setConflictStatus tenant id .dismissed c.resolutionStrategy "operator")) with
      | .error _ => pure ⟨500, "failed to dismiss conflict"⟩
      | .ok _ => pure ⟨200, "dismissed"⟩

/-- The event of `handleApplyFinding`. -/
def applyEvent (tenant : String) (run : ReconciliationRun) (f : ReconciliationFinding) (now : Time) :
    Event where
  eventID := Reconcile.eventID f.id
  tenantID := tenant
  source := run.source
  entityType := run.entity
  entityID := f.providerID
  eventType := .updated
  sourceVersion := f.providerVersion
  occurredAt := now
  provenance := { reconcileFindingID := f.id }
  fields := none

def requestedDirection (name : String) : Option Direction :=
  if name = "push_canonical" then some .pushCanonical
  else if name = "adopt_provider" then some .adoptProvider
  else if name = "delete" then some .delete
  else none

/-- The end of `handleApplyFinding`. -/
def queueRepair (env : Env) (tenant : String) (run : ReconciliationRun) (f : ReconciliationFinding) :
    Sync Response := do
  let now ← perform (S := sig) .timeNow
  decide env (applyEvent tenant run f now) "operator reconcile apply" "RECONCILIATION"
    "failed to enqueue repair" "apply_queued"

/-- `handleApplyFinding`; `body` is the direction the body names, empty when it names none or cannot be
    decoded. -/
def handleApplyFinding (env : Env) (tenant id : String) (body : String) : Sync Response := do
  match ← attempt (stmt (.getReconciliationFinding tenant id)) with
  | .error .notFound => pure ⟨404, "finding not found"⟩
  | .error _ => pure ⟨500, "failed to load finding"⟩
  | .ok f =>
    if f.status ≠ .pending then pure ⟨409, "finding is not pending"⟩
    else
      match ← attempt (stmt (.getReconciliationRun tenant f.runID)) with
      | .error _ => pure ⟨500, "failed to load run"⟩
      | .ok run =>
        if body = "" then queueRepair env tenant run f
        else
          match requestedDirection body with
          | none => pure ⟨400, "direction must be push_canonical, adopt_provider, or delete"⟩
          | some direction => do
            match ← attempt (stmt (.setReconciliationFindingDirection tenant f.id direction)) with
            | .error _ => pure ⟨500, "failed to apply direction"⟩
            | .ok _ => queueRepair env tenant run f

end SyncForge.Api
