import SyncForge.Effect.Scope
import SyncForge.Effect.Triple
import SyncForge.Retry.Engine
import SyncForge.Store.Frame

/-!
# `Worker.Calls` — which calls each function can make

Two classes of call. *Work* is what `Process` does between its claim and its verdict: reading policies and
connections, reading and writing canonical state, asking providers. *Bookkeeping* is what surrounds it: event
status, retry rows, dead letters, jitter. Claims and releases are in neither class.
-/

namespace SyncForge

open Effect Effect.Prog Store

namespace Call

/-- The statements of `dispatch`. -/
def isStoreWork : Call → Bool
  | .store o =>
    match o with
    | .listPolicies _ | .getConnectionByProvider _ _ | .getCanonical _ | .getCanonicalByProvider _ _ _ _
    | .getCanonicalByEmail _ _ _ | .addProviderID _ _ _ | .upsertCanonical _ | .persistApplyState _ _ _
    | .getOutboundWrite _ | .upsertOutboundWrite _ | .insertSyncOperation _ | .insertConflict _
    | .setConflictStatus _ _ _ _ _ | .getReconciliationFinding _ _ | .getReconciliationRun _ _
    | .setReconciliationFindingStatus _ _ _ _ => true
    | _ => false
  | _ => false

/-- The calls of `dispatch`. -/
def isWork : Call → Bool
  | .create _ _ | .update _ _ _ | .delete _ _ => true
  | o => o.isStoreWork

/-- The calls around `dispatch`, claims and releases apart. -/
def isBookkeeping : Call → Bool
  | .random => true
  | .store o =>
    match o with
    | .setSourceEventStatus _ _ _ _ | .setSourceEventStatusTo _ _ _ | .enqueueRetry _ _ | .deleteRetry _
    | .insertDeadLetter _ | .resolveDeadLetterForEvent _ => true
    | _ => false
  | _ => false

/-- The calls of `Process`: its work, its claim and release, and the status of the event. -/
def isProcess : Call → Bool
  | .store (.claimProcessedEvent _) | .store (.releaseProcessedEvent _)
  | .store (.setSourceEventStatus _ _ _ _) => true
  | o => o.isWork

end Call

abbrev OnlyWork {α : Type} (p : Sync α) : Prop := Only (fun o : Call => o.isWork = true) p

abbrev OnlyStoreWork {α : Type} (p : Sync α) : Prop := Only (fun o : Call => o.isStoreWork = true) p

abbrev OnlyBookkeeping {α : Type} (p : Sync α) : Prop := Only (fun o : Call => o.isBookkeeping = true) p

theorem only_stmt {P : Call → Prop} {o : StoreOp} (h : P (.store o)) : Only P (stmt o) := only_perform h

theorem only_lookup {α : Type} {P : Call → Prop} {o : StoreOp} {f : Except GoError o.Res → Sync α}
    (h : P (.store o)) (hf : ∀ r, Only P (f r)) : Only P (attempt (stmt o) >>= f) :=
  only_bind (only_attempt (only_stmt h)) hf

theorem only_tryStmt {P : Call → Prop} {o : StoreOp} (h : P (.store o)) : Only P (tryStmt o) :=
  only_lookup h (fun _ => trivial)

variable {γ : Type} {env : Env} {s : StoreOp} {conn : Connection} {dst : Remote}

theorem wp_tryStmt {M : Monitor sig GoError γ} {g : γ} {o : StoreOp} {post : γ → Except GoError Unit → Prop} :
    M.wp (tryStmt o) post g ↔ M.may g (.store o) ∧ ∀ r, M.adm g (.store o) r →
    post (M.next g (.store o) r) (.ok ()) := by
  simp only [tryStmt, Monitor.wp_bind, Monitor.wp_attempt, Monitor.wp_return]
  exact Monitor.wp_perform _

/-! ## Statements against the world -/

/-- **Statement rule**: it fails and changes nothing, or it is executed. -/
theorem triple_stmt {P : World → Prop} {Q : Except GoError s.Res → World → Prop}
    (hfail : ∀ w text, P w → Q (.error (.plain text)) w.called)
    (hok : ∀ w pick, P w → Q (Database.exec w.now pick s w.db).1 (w.executed pick s)) : Triple (World.handle env) P (stmt s) Q := by
  refine triple_perform (fun w hw => ?_)
  rcases World.handle_store env w s with ⟨text, _, h⟩ | ⟨pick, _, h⟩
  · rw [h]
    exact hfail w text hw
  · rw [h]
    exact hok w pick hw

/-- **A statement that may not fail** is executed. -/
theorem wp_executed {A : (o : Call) → Except GoError (sig.Res o) → Bool} {w : World}
    (hA : ∀ e, A (.store s) (.error e) = false) : (answering (World.handle env) A).wp (stmt s)
      (fun w' r => ∃ pick, r = (Database.exec w.now pick s w.db).1 ∧ w' = w.executed pick s) w := by
  refine (Monitor.wp_perform _).mpr ⟨trivial, ?_⟩
  rintro r ⟨hr, hanswer⟩
  show ∃ pick, r = _ ∧ (World.handle env (.store s) w).2 = _
  rcases World.handle_store env w s with ⟨text, _, h⟩ | ⟨pick, _, h⟩
  · rw [hr, h, hA] at hanswer
    cases hanswer
  · rw [h] at hr ⊢
    exact ⟨pick, hr, rfl⟩

/-! ## Work -/

variable {ev : Event} {tenant provider destination entityType entityID source eventID providerID : String}
  {cust : Customer} {canonical : CanonicalRecord} {incoming : FieldMap}
    {detected : List (Conflict.FieldConflict Field Any)}
  {status : ConflictStatus} {strategy : Conflict.Strategy} {policies : List SyncPolicy}
    {outbound : List OutboundWrite}
  {ops : List SyncOperation} {version : Int} {finding : ReconciliationFinding} {cause : GoError}
    {src : Remote}

theorem onlyWork_of_store {α : Type} {p : Sync α} (h : OnlyStoreWork p) : OnlyWork p := by
  refine only_mono h (fun o ho => ?_)
  cases o with
  | store s => exact ho
  | _ => cases ho

theorem wp_connect {M : Monitor sig GoError γ} {g : γ} {post : γ → Except GoError Remote → Prop} :
    M.wp (connect env tenant provider) post g ↔ M.may g (.store (.getConnectionByProvider tenant provider)) ∧
        ∀ r, M.adm g (.store (.getConnectionByProvider tenant provider)) r →
          post (M.next g (.store (.getConnectionByProvider tenant provider)) r) (r >>= adapterFor env) := by
  unfold connect
  rw [Monitor.wp_bind]
  refine (Monitor.wp_perform _).trans (and_congr_right fun _ => forall_congr' fun r =>
    imp_congr_right fun _ => ?_)
  cases r with
  | ok conn => exact Monitor.wp_ofExcept _
  | error e => exact Iff.rfl

theorem adapterFor_ok (h : adapterFor env conn = .ok dst) :
    dst.endpoint.provider = conn.provider ∧ env.registry conn.provider = some dst.adapter := by
  unfold adapterFor at h
  split at h
  · rename_i adapter hreg
    cases h
    exact ⟨rfl, hreg⟩
  · cases h

theorem adapterFor_endpoint (h : adapterFor env conn = .ok dst) :
    dst.endpoint = ⟨conn.provider, conn.baseURL⟩ := by
  unfold adapterFor at h
  split at h
  · cases h
    rfl
  · cases h

theorem connect_only_store : OnlyStoreWork (connect env tenant provider) :=
  only_bind (only_stmt rfl) (fun _ => only_ofExcept _)

theorem connect_only : OnlyWork (connect env tenant provider) :=
  onlyWork_of_store connect_only_store

theorem writeDestination_only : OnlyWork (writeDestination env tenant destination cust canonical) := by
  refine only_bind connect_only (fun dst => ?_)
  show OnlyWork (ite _ _ _)
  split
  · exact only_bind (only_perform rfl) (fun _ => trivial)
  · exact only_bind (only_perform rfl) (fun _ => trivial)

theorem resolveCanonical_only : OnlyStoreWork (resolveCanonical ev entityType cust) := by
  refine only_lookup rfl (fun r => ?_)
  split
  · exact trivial
  · split
    · refine only_lookup rfl (fun r => ?_)
      split
      · exact only_bind (only_stmt rfl) (fun _ => trivial)
      · exact trivial
      · exact trivial
    · exact trivial
  · exact trivial

theorem isEcho_only : OnlyStoreWork (isEcho env tenant entityType entityID source cust) := by
  refine only_lookup rfl (fun r => ?_)
  split <;> exact trivial

/-- **What `isEcho` answers**: whether the row of the last write has the customer's fingerprint. -/
theorem isEcho_answer {w : World} {echo : Bool}
    (h : ((isEcho env tenant entityType entityID source cust).run (World.handle env) w).1 = .ok echo) :
    echo = true ↔ (w.db.outbound ⟨tenant, entityType, entityID, source⟩).map OutboundWrite.fingerprint
      = some (cust.fingerprint env.hash) := by
  rw [isEcho, run_bind, run_attempt, Store.stmt, run_perform] at h
  rcases World.handle_store env w (.getOutboundWrite ⟨tenant, entityType, entityID, source⟩) with ⟨_, _,
    hcall⟩ | ⟨_, _, hcall⟩
  · rw [hcall] at h
    cases h
  · rw [hcall] at h
    simp only [Database.exec] at h
    cases hrow : w.db.outbound ⟨tenant, entityType, entityID, source⟩ with
    | none =>
      rw [hrow] at h
      cases h
      simp
    | some o =>
      rw [hrow] at h
      rw [← Except.ok.inj h, decide_eq_true_eq, Option.map_some, Option.some_inj]

theorem isEcho_true {w : World} (h : ((isEcho env tenant entityType entityID source cust).run
    (World.handle env) w).1 = .ok true) : ∃ o, w.db.outbound ⟨tenant, entityType, entityID, source⟩ = some o ∧
      o.fingerprint = cust.fingerprint env.hash :=
  Option.map_eq_some_iff.mp ((isEcho_answer h).mp rfl)

theorem recordConflict_only : OnlyStoreWork
    (recordConflict ev entityType canonical incoming detected status strategy) := by
  cases detected with
  | nil => exact trivial
  | cons c cs => exact only_tryStmt rfl

theorem propagate_only : OnlyWork (propagate env ev entityType cust policies canonical outbound ops) := by
  induction policies generalizing canonical outbound ops with
  | nil => exact trivial
  | cons p ps ih => exact only_bind writeDestination_only (fun c => ih)

theorem applyMerged_only : OnlyWork (applyMerged env ev entityType policies cust canonical) :=
  only_bind propagate_only (fun _ => only_stmt rfl)

theorem mergeAndApply_only : OnlyWork (mergeAndApply env ev entityType policies cust canonical) := by
  show OnlyWork (ite _ _ _)
  split
  · exact onlyWork_of_store recordConflict_only
  · exact only_bind (onlyWork_of_store recordConflict_only) (fun _ => applyMerged_only)

theorem propagateNow_only : OnlyWork (propagateNow env tenant entityType eventID source version cust policies
    canonical) := by
  induction policies generalizing canonical with
  | nil => exact trivial
  | cons p ps ih =>
    refine only_bind writeDestination_only (fun c => ?_)
    refine only_bind (only_stmt rfl) (fun _ => ?_)
    exact only_bind (only_tryStmt rfl) (fun _ => ih)

theorem applyResolution_only {fields : FieldMap} :
    OnlyWork (applyResolution env ev entityType policies fields) := by
  refine only_lookup rfl (fun r => ?_)
  split
  · exact trivial
  · exact trivial
  · refine only_bind propagateNow_only (fun c => ?_)
    exact only_bind (only_stmt rfl) (fun _ => only_tryStmt rfl)

theorem applySourceEvent_only {fields : Data} :
    OnlyWork (applySourceEvent env ev entityType policies fields) := by
  refine only_bind connect_only (fun src => ?_)
  refine only_bind (only_ofExcept _) (fun _ => ?_)
  refine only_bind (onlyWork_of_store resolveCanonical_only) (fun canonical => ?_)
  split
  · exact trivial
  · refine only_bind (onlyWork_of_store isEcho_only) (fun echo => ?_)
    split
    · exact trivial
    · exact mergeAndApply_only

theorem applyUpsert_only : OnlyWork (applyUpsert env ev entityType policies) := by
  unfold applyUpsert
  split
  · exact trivial
  · split_ifs
    · exact trivial
    · exact applyResolution_only
    · exact applySourceEvent_only

theorem propagateDelete_only : OnlyWork (propagateDelete env ev entityType canonical policies) := by
  induction policies with
  | nil => exact trivial
  | cons p ps ih =>
    unfold propagateDelete
    split
    · refine only_bind connect_only (fun dst => ?_)
      refine only_bind (only_perform rfl) (fun _ => ?_)
      exact only_bind (only_tryStmt rfl) (fun _ => ih)
    · exact ih

theorem applyDelete_only : OnlyWork (applyDelete env ev entityType policies) := by
  refine only_lookup rfl (fun r => ?_)
  split
  · exact trivial
  · exact trivial
  · split
    · exact trivial
    · exact only_bind propagateDelete_only (fun _ => only_stmt rfl)

theorem reconcileFail_only : OnlyStoreWork (reconcileFail finding cause) :=
  only_bind (only_tryStmt rfl) (fun _ => trivial)

theorem repairDelete_only : OnlyWork (repairDelete ev entityType finding source src) := by
  refine only_bind (only_attempt (only_perform rfl)) (fun r => ?_)
  split
  · exact only_bind (only_tryStmt rfl) (fun _ => only_tryStmt rfl)
  · split
    · exact only_bind (only_tryStmt rfl) (fun _ => only_tryStmt rfl)
    · exact onlyWork_of_store reconcileFail_only

theorem pushed_only : OnlyStoreWork (pushed env ev entityType finding source cust canonical providerID
    version) := by
  refine only_bind (only_stmt rfl) (fun _ => ?_)
  refine only_bind (only_stmt rfl) (fun _ => ?_)
  exact only_bind (only_tryStmt rfl) (fun _ => only_tryStmt rfl)

theorem repairCreate_only : OnlyWork (repairCreate env ev entityType finding source src cust canonical) := by
  refine only_bind (only_attempt (only_perform rfl)) (fun r => ?_)
  split
  · exact onlyWork_of_store reconcileFail_only
  · exact onlyWork_of_store pushed_only

theorem repairPush_only : OnlyWork (repairPush env ev entityType finding source src) := by
  refine only_lookup rfl (fun r => ?_)
  split
  · exact only_tryStmt rfl
  · exact trivial
  · split
    · exact repairCreate_only
    · refine only_bind (only_attempt (only_perform rfl)) (fun r => ?_)
      split
      · exact onlyWork_of_store pushed_only
      · split
        · exact repairCreate_only
        · exact onlyWork_of_store reconcileFail_only

theorem adoptCanonical_only : OnlyStoreWork (adoptCanonical ev entityType finding source cust) := by
  refine only_lookup rfl (fun r => ?_)
  split
  · exact trivial
  · refine only_lookup rfl (fun r => ?_)
    split
    · exact only_bind (only_stmt rfl) (fun _ => trivial)
    · exact trivial
    · exact trivial
  · exact trivial

theorem applyAdoptProvider_only : OnlyWork
    (applyAdoptProvider env ev entityType policies finding source) := by
  refine only_bind (onlyWork_of_store adoptCanonical_only) (fun found => ?_)
  refine only_bind propagateNow_only (fun c => ?_)
  exact only_bind (only_stmt rfl) (fun _ => only_tryStmt rfl)

theorem applyReconcileFinding_only : OnlyWork (applyReconcileFinding env ev entityType policies) := by
  refine only_lookup rfl (fun r => ?_)
  split
  · exact trivial
  · exact trivial
  · split
    · exact trivial
    · refine only_bind (only_stmt rfl) (fun run => ?_)
      refine only_bind connect_only (fun src => ?_)
      split
      · exact repairDelete_only
      · exact repairPush_only
      · exact applyAdoptProvider_only
      · exact onlyWork_of_store reconcileFail_only

theorem dispatch_only : OnlyWork (dispatch env ev) := by
  refine only_bind (only_stmt rfl) (fun policies => ?_)
  refine only_bind (only_bind connect_only (fun _ => trivial)) (fun entityType => ?_)
  split_ifs
  · exact only_bind applyReconcileFinding_only (fun _ => trivial)
  · exact trivial
  · exact only_bind applyDelete_only (fun _ => trivial)
  · exact only_bind applyUpsert_only (fun _ => trivial)

theorem isProcess_of_isWork {o : Call} (h : o.isWork = true) : o.isProcess = true := by
  cases o with
  | store s => cases s <;> first | rfl | exact h
  | _ => exact h

theorem process_within_of {P : Scope sig} (hclaim : P.may (.store (.claimProcessedEvent ev.key)))
    (hrelease : P.may (.store (.releaseProcessedEvent ev.key)))
    (hmark : ∀ status, P.may (.store (.setSourceEventStatus ev.tenantID ev.eventID .validated status)))
    (hdispatch : P.within (dispatch env ev) (fun _ => True)) : P.within (process env ev) (fun _ => True) := by
  have hmarks : ∀ status, P.within (mark ev status) (fun _ => True) := fun status =>
    Scope.within_of_only (only_tryStmt (P := P.may) (hmark status)) (fun _ h => h)
  have hgiveUp : ∀ status, P.within (release ev status) (fun _ => True) := fun status =>
    Scope.within_of_only (only_bind (only_tryStmt (P := P.may) hrelease)
      (fun _ => only_tryStmt (hmark status))) (fun _ h => h)
  refine Scope.within_bind (Scope.within_perform hclaim (fun _ _ => trivial)) (fun claimed (_ : True) => ?_)
  split_ifs
  · refine Scope.within_attempt hdispatch (fun d _ => ?_) (fun e => ?_)
    · cases d with
      | noPolicy => exact Scope.within_bind (hgiveUp _) (fun _ _ => trivial)
      | reconciled => exact Scope.within_bind (hmarks _) (fun _ _ => trivial)
      | applied => exact Scope.within_bind (hmarks _) (fun _ _ => trivial)
    · exact Scope.within_bind (hgiveUp _) (fun _ _ => trivial)
  · trivial

theorem process_only_of {P : Call → Prop} (hclaim : P (.store (.claimProcessedEvent ev.key)))
    (hrelease : P (.store (.releaseProcessedEvent ev.key)))
    (hmark : ∀ status, P (.store (.setSourceEventStatus ev.tenantID ev.eventID .validated status)))
    (hdispatch : Only P (dispatch env ev)) : Only P (process env ev) :=
  Scope.only_of_within (process_within_of hclaim hrelease hmark
    (Scope.within_of_only hdispatch (fun _ h => h)))

/-- **`Process` makes no other calls** than its work, its claim and release, and the event's status. -/
theorem process_only : Only (fun o : Call => o.isProcess = true) (process env ev) :=
  process_only_of rfl rfl (fun _ => rfl) (only_mono dispatch_only (fun _ => isProcess_of_isWork))

theorem isWork_claims {o : Call} (h : o.isWork = true) (key : EventKey) : o.writesClaim key = false :=  by
  cases o with
  | store s => cases s <;> first | rfl | cases h
  | _ => rfl

/-- **`Process` claims and releases its own event**, and no other. -/
theorem process_claims : Only (fun o : Call => ∀ key, key ≠ ev.key → o.writesClaim key = false)
    (process env ev) := by
  have hown : ∀ key, key ≠ ev.key → decide (ev.key = key) = false :=
    fun key hkey => decide_eq_false (Ne.symm hkey)
  -- the work between the claim and the verdict touches no claim
  exact process_only_of hown hown (fun _ _ _ => rfl)
    (only_mono dispatch_only (fun _ ho key _ => isWork_claims ho key))

/-! ## Bookkeeping -/

/-- With the calls in `P`, the row `key` can be given the payload `bytes`, in the retry queue or as a dead
    letter. -/
structure HandsOff (P : Call → Prop) (bytes : Bytes) (key : RowKey) : Prop where
  random : P .random
  enqueue : ∀ e delay, e.state = bytes ∧ e.key = key → P (.store (.enqueueRetry e delay))
  park : ∀ d, d.payload = bytes ∧ d.key = key → P (.store (.insertDeadLetter d))
  status : ∀ tenantID eventID, P (.store (.setSourceEventStatusTo tenantID eventID .dlq))

namespace HandsOff

variable {P : Call → Prop} {r : RetryEntry}

theorem dispatchFailure (h : HandsOff P (.marshal ev) ev.rowKey) : Only P (dispatchFailure env ev cause) := by
  show Only _ (ite _ _ _)
  split
  · exact only_bind (only_perform h.random) (fun _ => only_stmt (h.enqueue _ _ ⟨rfl, rfl⟩))
  · exact only_bind (only_stmt (h.park _ ⟨rfl, rfl⟩)) (fun _ => only_tryStmt (h.status _ _))

theorem handle (h : HandsOff P (.marshal ev) ev.rowKey) (hprocess : Only P (process env ev)) :
    Only P (handle env (.marshal ev)) := by
  show Only P ((process env ev).attempt >>= _)
  refine only_bind (only_attempt hprocess) (fun r => ?_)
  cases r with
  | ok outcome => exact trivial
  | error e => exact h.dispatchFailure

variable (h : HandsOff P r.state r.key)
include h

theorem deadLetter {reason errorClass : String} : Only P (Retry.deadLetter r reason errorClass) := by
  refine only_lookup (h.park _ ⟨rfl, rfl⟩) (fun res => ?_)
  split
  · exact trivial
  · exact only_tryStmt (h.status _ _)

variable (hdelete : P (.store (.deleteRetry r.key)))
include hdelete

theorem reschedule : Only P (Retry.reschedule env r cause) := by
  show Only _ (ite _ _ _)
  split
  · exact only_bind h.deadLetter (fun _ => only_tryStmt hdelete)
  · exact only_bind (only_perform h.random) (fun _ => only_tryStmt (h.enqueue _ _ ⟨rfl, rfl⟩))

theorem processRetry (hresolve : P (.store (.resolveDeadLetterForEvent r.key)))
    (hprocess : ∀ ev, r.state.unmarshal = .ok ev → Only P (process env ev)) :
    Only P (Retry.processRetry env r) := by
  unfold Retry.processRetry
  split
  · exact only_bind h.deadLetter (fun _ => only_tryStmt hdelete)
  · refine only_bind (only_attempt (hprocess _ ‹_›)) (fun res => ?_)
    split
    · exact only_bind (only_tryStmt hdelete) (fun _ => only_tryStmt hresolve)
    · exact h.reschedule hdelete

end HandsOff

theorem bookkeeping_handsOff {bytes : Bytes} {key : RowKey} :
    HandsOff (fun o : Call => o.isBookkeeping = true) bytes key :=
  ⟨rfl, fun _ _ _ => rfl, fun _ _ => rfl, fun _ _ => rfl⟩

theorem dispatchFailure_only : OnlyBookkeeping (dispatchFailure env ev cause) :=
    bookkeeping_handsOff.dispatchFailure

namespace Retry

theorem settle_only (r : RetryEntry) : OnlyBookkeeping (settle r) :=
  only_bind (only_tryStmt rfl) (fun _ => only_tryStmt rfl)

theorem reschedule_only (r : RetryEntry) (cause : GoError) : OnlyBookkeeping (reschedule env r cause) :=
  bookkeeping_handsOff.reschedule rfl

end Retry

end SyncForge
