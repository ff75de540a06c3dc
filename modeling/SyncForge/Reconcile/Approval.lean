import SyncForge.Api.Decision
import SyncForge.Reconcile.Repairs
import SyncForge.Retry.Attempts

/-!
# `Reconcile.Approval` — an approved finding and its retries

An operator approves a finding, and the retry engine runs it: `k` attempts fail at a provider, the next one
succeeds.
`reconcileFail` marks the finding as failed at the first failure, and a finding that is not pending is not
repaired; the errors of an adoption are passed on without a mark. `approved_repaired` says exactly which
approvals are repaired.
-/

namespace SyncForge.Approval

open Effect
open Effect.Prog
open Reconcile Relational Store
open Database (exec policiesOf rowOrNotFound)
open Function (update update_self)
open Retry (processRetry)
open Api (applyEvent handleApplyFinding)

variable {env : Env} {tenant : String} {f : ReconciliationFinding} {run_ : ReconciliationRun}
  {row : RetryEntry} {w v : World}
  {db : Database} {ev : Event} {entityType : String} {cust : Customer} {policies : List SyncPolicy}
    {s : StoreOp}
  {α : Type} {now : Time}
  {text source : String} {claimed : Bool}

/-! ## The approval -/

def approved (f : ReconciliationFinding) (body : String) : ReconciliationFinding :=
  { f with direction := (Api.requestedDirection body).getD f.direction }

/-- An approval in the store: the finding, its run, the queue's row for the repair, and whether its event is
    claimed. -/
structure Waiting (tenant : String) (f : ReconciliationFinding) (run_ : ReconciliationRun) (row : RetryEntry)
    (claimed : Bool) (w : World) : Prop where
  finding : w.db.findings.find? (fun g => g.tenantID = tenant ∧ g.id = f.id) = some f
  ofRun : w.db.runs.find? (fun r => r.tenantID = tenant ∧ r.id = f.runID) = some run_
  queued : w.db.retryQueue.get? ⟨tenant, eventID f.id⟩ = some row
  claim : w.db.processed ⟨tenant, run_.source, eventID f.id⟩ = claimed

abbrev Found (tenant : String) (f : ReconciliationFinding) (db : Database) : Prop :=
  db.findings.find? (fun g => g.tenantID = tenant ∧ g.id = f.id) = some f

theorem find?_setDirection {direction : Direction} (h : Found tenant f db) :
    (db.setDirection tenant f.id direction).findings.find? (fun g => g.tenantID = tenant ∧ g.id = f.id)
      = some { f with direction := direction } := by
  have hrow : f.tenantID = tenant ∧ f.id = f.id := by simpa using List.find?_some h
  refine (Database.find?_map h (fun g => ?_)).trans (congrArg some (if_pos hrow))
  split_ifs <;> exact ⟨rfl, rfl⟩

theorem found_setFinding {status : FindingStatus} {error : Option String} (h : Found tenant f db)
    (hpending : f.status = .pending) : Found tenant { f with status, error }
    (db.setFinding f.tenantID f.id status error) := by
  refine (Database.find?_map h (fun g => ?_)).trans (congrArg some (if_pos ⟨rfl, rfl, .inl hpending⟩))
  split_ifs <;> exact ⟨rfl, rfl⟩

theorem queueRepair_waits {g : ReconciliationFinding} (hid : g.id = f.id) (hfound : Found tenant f w.db)
    (hrun : w.db.runs.find? (fun r => r.tenantID = tenant ∧ r.id = f.runID) = some run_)
    (hclaim : w.db.processed ⟨tenant, run_.source, eventID f.id⟩ = claimed)
    (h : (run (World.handle env) (Api.queueRepair env tenant run_ g) w).1 = .ok ⟨202, text⟩) :
    ∃ row now, Waiting tenant f run_ row claimed
      (run (World.handle env) (Api.queueRepair env tenant run_ g) w).2 ∧
      row.state = .marshal (applyEvent tenant run_ g now) := by
  unfold Api.queueRepair at h ⊢
  have htime : run (World.handle env) (perform (S := sig) .timeNow) w = (.ok w.now, w.called) :=
    run_perform ..
  rw [run_bind_ok _ htime] at h ⊢
  obtain ⟨pick, hput⟩ := Api.decide_accepted h
  have hkey : ∀ e : RetryEntry, e.tenantID = tenant → e.eventID = eventID f.id →
      (w.db.retryQueue.upsert (w.db.retryRow w.now e 0)).get? ⟨tenant, eventID f.id⟩ = some (w.db.retryRow w.now e 0) := by
    intro e htenant heventID
    rw [Table.get?_upsert, if_pos]
    rw [Database.retryRow_key, RetryEntry.key, htenant, heventID]
  rw [hput]
  exact ⟨_, w.now, ⟨hfound, hrun, hkey _ rfl (congrArg eventID hid), hclaim⟩, Database.retryRow_state _ _⟩

/-- **An accepted request** leaves the finding with the direction it names, and queues the repair. -/
theorem request_waits {body : String} (hfound : Found tenant f w.db)
    (hrun : w.db.runs.find? (fun r => r.tenantID = tenant ∧ r.id = f.runID) = some run_)
    (hclaim : w.db.processed ⟨tenant, run_.source, eventID f.id⟩ = claimed)
    (h : (run (World.handle env) (handleApplyFinding env tenant f.id body) w).1 = .ok ⟨202, text⟩) :
    ∃ row now, Waiting tenant (approved f body) run_ row claimed
        (run (World.handle env) (handleApplyFinding env tenant f.id body) w).2 ∧
      row.state = .marshal (applyEvent tenant run_ f now) := by
  unfold handleApplyFinding at h ⊢
  rw [run_bind_ok _ (run_attempt ..), run_perform] at h ⊢
  rcases World.handle_store env w (.getReconciliationFinding tenant f.id) with ⟨_, _, hread⟩ |
    ⟨pick, _, hread⟩
  · rw [hread] at h
    cases h
  rw [hread] at h ⊢
  simp only [exec, hfound, rowOrNotFound] at h ⊢
  by_cases hpending : f.status = .pending
  swap
  · rw [if_pos hpending] at h
    cases h
  rw [if_neg (not_not.mpr hpending)] at h ⊢
  rw [run_bind_ok _ (run_attempt ..), run_perform] at h ⊢
  rcases World.handle_store env (w.executed pick (.getReconciliationFinding tenant f.id))
    (.getReconciliationRun tenant f.runID) with
    ⟨_, _, hread⟩ | ⟨pick', _, hread⟩
  · rw [hread] at h
    cases h
  rw [hread] at h ⊢
  have hrun' : (w.executed pick (.getReconciliationFinding tenant f.id)).db.runs.find?
      (fun r => r.tenantID = tenant ∧ r.id = f.runID) = some run_ := hrun
  simp only [exec, hrun', rowOrNotFound] at h ⊢
  by_cases hempty : body = ""
  · rw [if_pos hempty] at h ⊢
    have happroved : approved f body = f := by rw [approved, hempty]; rfl
    rw [happroved]
    exact queueRepair_waits rfl hfound hrun hclaim h
  · rw [if_neg hempty] at h ⊢
    cases hdirection : Api.requestedDirection body with
    | none =>
      rw [hdirection] at h
      cases h
    | some direction =>
      rw [hdirection] at h
      simp only at h ⊢
      rw [run_bind_ok _ (run_attempt ..), run_perform] at h ⊢
      rcases World.handle_store env ((w.executed pick (.getReconciliationFinding tenant f.id)).executed pick'
        (.getReconciliationRun tenant f.runID)) (.setReconciliationFindingDirection tenant f.id direction) with
        ⟨_, _, hset⟩ | ⟨pick'', _, hset⟩
      · rw [hset] at h
        cases h
      rw [hset] at h ⊢
      have happroved : approved f body = { f with direction := direction } := by rw [approved, hdirection]; rfl
      have hdirected : (w.db.setDirection tenant f.id direction).findings.find? (fun g => g.tenantID = tenant ∧ g.id = f.id)
          = some { f with direction := direction } := find?_setDirection hfound
      rw [happroved]
      exact queueRepair_waits rfl hdirected hrun hclaim h

/-! ## An attempt that fails -/

def StoreUp (w : World) : Prop := ∀ n, ∃ pick, w.storeTape n = .ok pick

/-- The calls of a repair that leave the findings, their runs and the queue as they are: all but the mark on
    the finding. -/
def adopts : Call → Bool
  | .create _ _ | .update _ _ _ | .delete _ _ => true
  | .store s =>
    match s with
    | .listPolicies _ | .getConnectionByProvider _ _ | .getReconciliationFinding _ _ | .getReconciliationRun _ _
    | .getCanonical _ | .getCanonicalByProvider _ _ _ _ | .getCanonicalByEmail _ _ _ | .addProviderID _ _ _ | .upsertOutboundWrite _
    | .insertSyncOperation _ | .upsertCanonical _ | .claimProcessedEvent _ | .releaseProcessedEvent _
    | .setSourceEventStatus _ _ _ _ => true
    | _ => false
  | _ => false

abbrev OnlyAdopts {α : Type} (p : Sync α) : Prop := Only (fun o : Call => adopts o = true) p

theorem connect_adopts {provider : String} : OnlyAdopts (connect env tenant provider) :=
  only_bind (only_stmt rfl) (fun _ => only_ofExcept _)

theorem adoptCanonical_adopts : OnlyAdopts (adoptCanonical ev entityType f source cust) := by
  refine only_lookup rfl (fun r => ?_)
  split
  · exact only_return _
  · refine only_lookup rfl (fun r => ?_)
    split
    · exact only_bind (only_stmt rfl) (fun _ => only_return _)
    · exact only_return _
    · trivial
  · trivial

theorem propagateNow_adopts {id : String} {version : Int}
    {c : CanonicalRecord} : OnlyAdopts (propagateNow env tenant entityType id source version cust policies
      c) := by
  induction policies generalizing c with
  | nil => exact only_return _
  | cons p policies ih =>
    refine only_bind (only_bind connect_adopts (fun dst => ?_)) (fun c => ?_)
    · show OnlyAdopts (ite _ _ _)
      split_ifs
      · exact only_bind (only_perform rfl) (fun _ => only_return _)
      · exact only_bind (only_perform rfl) (fun _ => only_return _)
    · exact only_bind (only_stmt rfl) (fun _ => only_bind (only_tryStmt rfl) (fun _ => ih))

structure Standing (tenant : String) (f : ReconciliationFinding) (run_ : ReconciliationRun) (row : RetryEntry)
    (w : World) : Prop where
  finding : w.db.findings.find? (fun g => g.tenantID = tenant ∧ g.id = f.id) = some f
  ofRun : w.db.runs.find? (fun r => r.tenantID = tenant ∧ r.id = f.runID) = some run_
  queued : w.db.retryQueue.get? ⟨tenant, eventID f.id⟩ = some row
  store : StoreUp w

theorem adopts_keeps {o : Call} (ho : adopts o = true) :
    (World.handle env o w).2.db.findings = w.db.findings ∧ (World.handle env o w).2.db.runs = w.db.runs ∧
    (World.handle env o w).2.db.retryQueue = w.db.retryQueue := by
  rcases @World.handle_db env w o with hdb | ⟨s, pick, rfl, _, hdb⟩
  · rw [hdb]
    exact ⟨rfl, rfl, rfl⟩
  · rw [hdb]
    cases s <;> first | exact ⟨rfl, rfl, rfl⟩ | cases ho

theorem Standing.call {o : Call} (ho : adopts o = true) (h : Standing tenant f run_ row w) :
    Standing tenant f run_ row (World.handle env o w).2 := by
  obtain ⟨hfindings, hruns, hqueue⟩ := @adopts_keeps env w o ho
  refine ⟨by rw [hfindings]; exact h.finding, by rw [hruns]; exact h.ofRun, by rw [hqueue]; exact h.queued, ?_⟩
  intro n
  rw [World.handle_tapes.2.1]
  exact h.store n

theorem Standing.stmt {Q : Except GoError s.Res → World → Prop} (hs : adopts (.store s) = true)
    (hQ : ∀ w pick, Standing tenant f run_ row w → Q (exec w.now pick s w.db).1 (w.executed pick s)) :
    Triple (World.handle env) (Standing tenant f run_ row) (stmt s) (fun r w => Q r w ∧
      Standing tenant f run_ row w) := by
  refine triple_perform (fun w hw => ⟨?_, hw.call hs⟩)
  obtain ⟨pick, hanswer⟩ := Desk.Up.stmt env hw.store s
  rw [(run_perform ..).symm.trans hanswer]
  exact hQ w pick hw

theorem standing_of_only {p : Sync α} (hp : OnlyAdopts p) :
    Triple (World.handle env) (Standing tenant f run_ row) p (fun _ => Standing tenant f run_ row) :=
  triple_of_only hp (fun _ _ ho h => h.call ho)

theorem tryStmt_ok {P : World → Prop} : Triple (World.handle env) P (tryStmt s)
    (fun r _ => ∃ a, r = .ok a) := by
  intro w _
  unfold tryStmt
  rw [run_bind_ok _ (run_attempt ..)]
  exact ⟨(), rfl⟩

theorem fail_standing : Triple (World.handle env) (Standing tenant f run_ row) (fail ev)
    (fun _ w => Standing tenant f run_ row w ∧ w.db.processed ev.key = false) := by
  have hrelease : Triple (World.handle env) (Standing tenant f run_ row)
    (stmt (.releaseProcessedEvent ev.key))
      (fun _ w => w.db.processed ev.key = false ∧ Standing tenant f run_ row w) :=
    Standing.stmt rfl (fun _ _ _ => update_self ..)
  have htry : Triple (World.handle env) (Standing tenant f run_ row) (tryStmt (.releaseProcessedEvent ev.key))
      (fun _ w => Standing tenant f run_ row w ∧ w.db.processed ev.key = false) :=
    triple_attempt hrelease (fun _ => triple_return (fun _ h => h.symm))
  refine triple_bind htry (fun _ => ?_) (fun _ _ h => h)
  have hmark : Only (fun o : Call => adopts o = true ∧ o.writesClaim ev.key = false) (mark ev .failed) :=
    only_tryStmt ⟨rfl, rfl⟩
  refine triple_of_only hmark (fun _ _ ho h => ⟨h.1.call ho.1, ?_⟩)
  rw [World.handle_processed ho.2]
  exact h.2

/-- **The queue after a failed attempt**: the row counts one attempt more, and the approval is as the attempt
    left it. -/
theorem rescheduled {e : GoError} (hv : Standing tenant f run_ row v)
    (hclaim : v.db.processed ⟨tenant, run_.source, eventID f.id⟩ = claimed)
    (hretry : e.classify.1.shouldRetry = true) (hattempt : row.attempt + 1 < row.maxAttempts) :
    ∃ row', Waiting tenant f run_ row' claimed (run (World.handle env) (Retry.reschedule env row e) v).2 ∧
      row'.state = row.state ∧ row'.attempt = row.attempt + 1 ∧ row'.maxAttempts = row.maxAttempts := by
  have hkey : row.key = ⟨tenant, eventID f.id⟩ := Table.get?_key hv.queued
  have hrow := @Desk.reschedule_row env _ _ _ hv.store (hkey ▸ hv.queued) hretry
  simp only [if_neg (not_le.mpr hattempt), hkey] at hrow
  obtain ⟨row', hqueued, hcounts⟩ := hrow
  obtain ⟨hfindings, hruns, hclaims⟩ := run_invariant (h := World.handle env) (I := fun u : World =>
    u.db.findings = v.db.findings ∧ u.db.runs = v.db.runs ∧ u.db.processed = v.db.processed)
    (Retry.reschedule_only row e) (fun u o ho hu => by
      rcases @World.handle_db env u o with hdb | ⟨s, pick, rfl, _, hdb⟩
      · rwa [hdb]
      · rw [hdb]
        cases s <;> first | exact hu | cases ho) ⟨rfl, rfl, rfl⟩
  exact ⟨row', ⟨hfindings ▸ hv.finding, hruns ▸ hv.ofRun, hqueued, hclaims ▸ hclaim⟩, hcounts⟩

/-! ## An attempt that fails -/

/-- Not the error of a provider. -/
def Plain (r : Except GoError α) : Prop := ∀ e, r ≠ .error (.connector e)

abbrev PlainOnly {α : Type} (env : Env) (p : Sync α) : Prop :=
  Triple (World.handle env) (fun _ => True) p (fun r _ => Plain r)

theorem exec_plain {pick : Nat} : Plain (exec now pick s db).1 := by
  intro e h
  cases s <;> simp only [exec, rowOrNotFound, Database.insertedFinding] at h <;> repeat'
    first | cases h | split at h

theorem plain_ok {a : α} : Plain (.ok a : Except GoError α) := fun _ h => nomatch h

theorem plain_stmt : PlainOnly env (stmt s) := by
  refine triple_perform (fun w _ => ?_)
  rcases World.handle_store env w s with ⟨_, _, hcall⟩ | ⟨_, _, hcall⟩
  · rw [hcall]
    exact fun _ h => nomatch h
  · rw [hcall]
    exact exec_plain

theorem plain_bind {β : Type} {p : Sync α} {k : α → Sync β} (hp : PlainOnly env p)
    (hk : ∀ a, PlainOnly env (k a)) : PlainOnly env (p >>= k) :=
  triple_bind hp (fun a => triple_pre (hk a) (fun _ _ => trivial))
    (fun _ _ h e' he => h e' (congrArg _ (Except.error.inj he)))

theorem plain_tryStmt : PlainOnly env (tryStmt s) := by
  refine triple_mono (tryStmt_ok (P := fun _ => True)) (fun _ h => h) ?_
  rintro _ _ ⟨a, rfl⟩
  exact plain_ok

theorem plain_connect {provider : String} : PlainOnly env (connect env tenant provider) := by
  refine plain_bind plain_stmt (fun conn => triple_ofExcept (fun _ _ e h => ?_))
  unfold adapterFor at h
  split at h <;> cases h

theorem plain_pushed {cust : Customer} {c : CanonicalRecord} {id : String} {version : Int} :
    PlainOnly env (pushed env ev entityType f source cust c id version) :=
  plain_bind plain_stmt (fun _ => plain_bind plain_stmt
    (fun _ => plain_bind plain_tryStmt (fun _ => plain_tryStmt)))

def failedWith (f : ReconciliationFinding) (text : String) : ReconciliationFinding :=
  { f with status := .failed, error := some text }

/-- What an attempt that fails leaves of the finding. -/
def left (f : ReconciliationFinding) : String → ReconciliationFinding :=
  match f.direction with
  | .adoptProvider => fun _ => f
  | _ => failedWith f

theorem left_adopt {text : String} (h : f.direction = .adoptProvider) : left f text = f := by rw [left, h]

theorem left_failed (h : f.direction ≠ .adoptProvider) : left f = failedWith f := by
  unfold left
  split
  next hadopt => exact absurd hadopt h
  next => rfl

theorem left_id {text : String} : (left f text).id = f.id := by
  by_cases h : f.direction = .adoptProvider
  · rw [left_adopt h]
  · rw [left_failed h]
    rfl

/-- The error of a provider leaves one of the findings `g`. -/
abbrev Leaves {α : Type} (env : Env) (tenant : String) (f : ReconciliationFinding) (run_ : ReconciliationRun)
    (row : RetryEntry) (g : String → ReconciliationFinding) (p : Sync α) : Prop :=
  Triple (World.handle env) (Standing tenant f run_ row) p
    (fun r w => ¬ Plain r → ∃ text, Standing tenant (g text) run_ row w)

variable {g : String → ReconciliationFinding}

theorem leaves_of_plain {p : Sync α} (h : PlainOnly env p) : Leaves env tenant f run_ row g p :=
  triple_mono h (fun _ _ => trivial) (fun _ _ h hnot => absurd h hnot)

theorem leaves_bind_plain {β : Type} {p : Sync α} {k : α → Sync β} (hp : Leaves env tenant f run_ row g p)
    (hk : ∀ a, PlainOnly env (k a)) : Leaves env tenant f run_ row g (p >>= k) := by
  refine triple_bind hp (fun a => triple_mono (hk a) (fun _ _ => trivial)
    (fun _ _ h hnot => absurd h hnot)) ?_
  exact fun e _ h hnot => h (fun hplain => hnot (fun e' he => hplain e' (congrArg _ (Except.error.inj he))))

/-- Before the writes of the repair: calls that keep the approval, and no provider is asked. -/
theorem leaves_after_read {β : Type} {p : Sync α} {k : α → Sync β} (hp : OnlyAdopts p)
    (hplain : PlainOnly env p) (hk : ∀ a, Leaves env tenant f run_ row g (k a)) :
    Leaves env tenant f run_ row g (p >>= k) := by
  have hboth : Triple (World.handle env) (Standing tenant f run_ row) p
      (fun r w => Plain r ∧ Standing tenant f run_ row w) :=
    fun w hw => ⟨hplain w trivial, standing_of_only hp w hw⟩
  refine triple_bind hboth (fun a => triple_pre (hk a) (fun _ h => h.2)) ?_
  exact fun e _ h hnot => absurd (fun e' he => h.1 e' (congrArg _ (Except.error.inj he))) hnot

/-- The calls of an adoption: the finding is as it was until the adoption is done. -/
theorem leaves_bind_adopts {β : Type} {p : Sync α} {k : α → Sync β} (hp : OnlyAdopts p)
    (hk : ∀ a, Leaves env tenant f run_ row (fun _ => f) (k a)) :
    Leaves env tenant f run_ row (fun _ => f) (p >>= k) :=
  triple_bind (standing_of_only hp) hk (fun _ _ h _ => ⟨"", h⟩)

theorem applyAdoptProvider_leaves :
    Leaves env tenant f run_ row (fun _ => f) (applyAdoptProvider env ev entityType policies f source) :=
  leaves_bind_adopts adoptCanonical_adopts (fun _ => leaves_bind_adopts propagateNow_adopts (fun _ =>
    leaves_bind_adopts (only_stmt rfl) (fun _ => leaves_of_plain plain_tryStmt)))

theorem reconcileFail_marks (hpending : f.status = .pending) {cause : GoError} :
    Triple (World.handle env) (Standing tenant f run_ row) (reconcileFail f cause)
      (fun _ w => ∃ text, Standing tenant (failedWith f text) run_ row w) := by
  have hset : Triple (World.handle env) (Standing tenant f run_ row)
      (tryStmt (.setReconciliationFindingStatus f.tenantID f.id .failed (some cause.error)))
      (fun _ w => ∃ text, Standing tenant (failedWith f text) run_ row w) := by
    intro w hw
    obtain ⟨pick, hrun⟩ := Desk.Up.tryStmt env hw.store
      (.setReconciliationFindingStatus f.tenantID f.id .failed (some cause.error))
    rw [hrun]
    exact ⟨cause.error, found_setFinding hw.finding hpending, hw.ofRun, hw.queued, hw.store⟩
  exact triple_bind hset (fun _ => triple_throw (fun _ h => h)) (fun _ _ h => h)

section Left

variable (hpending : f.status = .pending)
include hpending

theorem reconcileFail_leaves {cause : GoError} : Leaves env tenant f run_ row (failedWith f)
    (reconcileFail f cause) :=
  triple_mono (reconcileFail_marks hpending) (fun _ h => h) (fun _ _ h _ => h)

theorem repairDelete_leaves {src : Remote} : Leaves env tenant f run_ row (failedWith f)
    (repairDelete ev entityType f source src) := by
  refine triple_attempt (standing_of_only (only_perform rfl)) (fun r => ?_)
  have hdone : Leaves env tenant f run_ row (failedWith f) (do
      recordSyncOperation ev.tenantID entityType f.canonicalID source source f.providerVersion ev.eventID ""
      reconcileApplied f) := leaves_of_plain (plain_bind plain_tryStmt (fun _ => plain_tryStmt))
  cases r with
  | ok _ => exact hdone
  | error e =>
    show Triple _ _ (ite _ _ _) _
    split_ifs
    · exact hdone
    · exact reconcileFail_leaves hpending

theorem repairCreate_leaves {src : Remote} {cust : Customer} {c : CanonicalRecord} :
    Leaves env tenant f run_ row (failedWith f) (repairCreate env ev entityType f source src cust c) := by
  refine triple_attempt (standing_of_only (only_perform rfl)) (fun r => ?_)
  cases r with
  | ok _ => exact leaves_of_plain plain_pushed
  | error e => exact reconcileFail_leaves hpending

theorem repairPush_leaves {src : Remote} : Leaves env tenant f run_ row (failedWith f)
    (repairPush env ev entityType f source src) := by
  have hread : Triple (World.handle env) (Standing tenant f run_ row)
      (stmt (.getCanonical ⟨ev.tenantID, entityType, f.canonicalID⟩))
      (fun r w => Plain r ∧ Standing tenant f run_ row w) :=
    fun w hw => ⟨plain_stmt w trivial, standing_of_only (only_stmt rfl) w hw⟩
  refine triple_attempt hread (fun r => triple_fact (fun _ h => h.1)
    (fun hplain => triple_pre ?_ (fun _ h => h.2)))
  cases r with
  | error e =>
    cases e with
    | notFound => exact leaves_of_plain plain_tryStmt
    | plain text => exact triple_throw (fun _ _ hnot => absurd (fun _ h => nomatch h) hnot)
    | connector e => exact absurd rfl (hplain e)
  | ok c =>
    show Triple _ _ (ite _ _ _) _
    split_ifs
    · exact repairCreate_leaves hpending
    · refine triple_attempt (standing_of_only (only_perform rfl)) (fun r => ?_)
      cases r with
      | ok _ => exact leaves_of_plain plain_pushed
      | error e =>
        show Triple _ _ (ite _ _ _) _
        split_ifs
        · exact repairCreate_leaves hpending
        · exact reconcileFail_leaves hpending

variable (htenant : ev.tenantID = tenant) (hid : ev.provenance.reconcileFindingID = f.id)
include htenant hid

theorem applyReconcileFinding_leaves : Leaves env tenant f run_ row (left f)
    (applyReconcileFinding env ev entityType policies) := by
  have hread : Triple (World.handle env) (Standing tenant f run_ row)
      (stmt (.getReconciliationFinding ev.tenantID ev.provenance.reconcileFindingID))
      (fun r w => r = .ok f ∧ Standing tenant f run_ row w) :=
    Standing.stmt rfl (fun w _ hw => by rw [htenant, hid]; exact congrArg rowOrNotFound hw.finding)
  refine triple_attempt hread (fun r => triple_fact (fun _ h => h.1) ?_)
  rintro rfl
  refine triple_pre (P := Standing tenant f run_ row) ?_ (fun _ h => h.2)
  show Triple _ _ (ite _ _ _) _
  rw [if_neg (not_not.mpr hpending)]
  refine leaves_after_read (only_stmt rfl) plain_stmt (fun found => ?_)
  refine leaves_after_read connect_adopts plain_connect (fun src => ?_)
  unfold left
  cases f.direction with
  | delete => exact repairDelete_leaves hpending
  | pushCanonical => exact repairPush_leaves hpending
  | adoptProvider => exact applyAdoptProvider_leaves
  | other name => exact reconcileFail_leaves hpending

theorem dispatch_leaves (hne : f.id ≠ "") : Leaves env tenant f run_ row (left f) (dispatch env ev) := by
  refine leaves_after_read (only_stmt rfl) plain_stmt (fun policies => ?_)
  have htype : OnlyAdopts (canonicalEntityType env ev) := only_bind connect_adopts (fun _ => only_return _)
  have hplain : PlainOnly env (canonicalEntityType env ev) :=
    plain_bind plain_connect (fun _ => triple_return (fun _ _ => plain_ok))
  refine leaves_after_read htype hplain (fun entityType => ?_)
  rw [if_pos (hid ▸ hne)]
  exact leaves_bind_plain (applyReconcileFinding_leaves hpending htenant hid)
    (fun _ => triple_return (fun _ _ => plain_ok))

/-- **A failed attempt** releases the claim; of an adoption the finding is as it was, of a push or a delete it
    is failed. -/
theorem process_leaves (hne : f.id ≠ "") : Triple (World.handle env) (Standing tenant f run_ row)
    (process env ev) (fun r w => ¬ Plain r → ∃ text, Standing tenant (left f text) run_ row w ∧
      w.db.processed ev.key = false) := by
  have hclaim : Triple (World.handle env) (Standing tenant f run_ row) (stmt (.claimProcessedEvent ev.key))
      (fun r w => (∃ claimed, r = .ok claimed) ∧ Standing tenant f run_ row w) :=
    Standing.stmt rfl (fun _ _ _ => ⟨_, rfl⟩)
  refine triple_bind hclaim (fun claimed => ?_) (fun _ _ h => nomatch h.1)
  refine triple_pre (P := Standing tenant f run_ row) ?_ (fun _ h => h.2)
  split_ifs
  · refine triple_attempt (dispatch_leaves hpending htenant hid hne) (fun r => ?_)
    cases r with
    | error e =>
      by_cases hplain : Plain (.error e : Except GoError Dispatched)
      · have hend : PlainOnly env (do fail ev; (Prog.throw e : Sync Outcome)) :=
          plain_bind (plain_bind plain_tryStmt (fun _ => plain_tryStmt))
            (fun _ => triple_throw (fun _ _ e' he => hplain e' (congrArg _ (Except.error.inj he))))
        exact triple_mono hend (fun _ _ => trivial) (fun _ _ h hnot => absurd h hnot)
      · intro w hw
        obtain ⟨text, hfailed⟩ := hw hplain
        have hend : Triple (World.handle env) (Standing tenant (left f text) run_ row)
            (do fail ev; (Prog.throw e : Sync Outcome))
            (fun _ w => Standing tenant (left f text) run_ row w ∧ w.db.processed ev.key = false) :=
          triple_bind fail_standing (fun _ => triple_throw (fun _ h => h)) (fun _ _ h => h)
        exact fun _ => ⟨text, hend w hfailed⟩
    | ok d =>
      have hend : ∀ {s : StoreOp} {o : Outcome}, PlainOnly env (do tryStmt s; Pure.pure o) := fun {_ _} =>
        plain_bind plain_tryStmt (fun _ => triple_return (fun _ _ => plain_ok))
      refine triple_mono (P := fun _ => True) (Q := fun r _ => Plain r) ?_ (fun _ _ => trivial) (fun _ _ h hnot => absurd h hnot)
      cases d with
      | noPolicy => exact plain_bind (plain_bind plain_tryStmt (fun _ => plain_tryStmt)) (fun _ => triple_return (fun _ _ => plain_ok))
      | reconciled => exact hend
      | applied => exact hend
  · exact triple_return (fun _ _ hnot => absurd plain_ok hnot)

end Left

/-- **An attempt that fails** with a retryable error: the row counts one attempt more, and the claim is
    free. -/
theorem attempt_fails {e : ConnectorError} (hw : Waiting tenant f run_ row claimed v) (hstore : StoreUp v)
    (hstate : row.state = .marshal (applyEvent tenant run_ f now)) (hpending : f.status = .pending) (hne : f.id ≠ "")
    (hfail : (run (World.handle env) (process env (applyEvent tenant run_ f now)) v).1 = .error (.connector e))
    (hretry : e.kind.shouldRetry = true) (hattempt : row.attempt + 1 < row.maxAttempts) :
    ∃ text row', Waiting tenant (left f text) run_ row' false (run (World.handle env) (processRetry env row) v).2 ∧
      row'.state = row.state ∧ row'.attempt = row.attempt + 1 ∧ row'.maxAttempts = row.maxAttempts := by
  have hprovider : ¬ Plain (run (World.handle env) (process env (applyEvent tenant run_ f now)) v).1 := by
    rw [hfail]
    exact fun h => h e rfl
  obtain ⟨text, hleft, hclaim⟩ := @process_leaves env tenant f run_ row
    (applyEvent tenant run_ f now) hpending rfl rfl
    hne v ⟨hw.finding, hw.ofRun, hw.queued, hstore⟩ hprovider
  rw [Desk.processRetry_failed hstate hfail]
  have hfree : (run (World.handle env) (process env (applyEvent tenant run_ f now)) v).2.db.processed
      ⟨tenant, run_.source, eventID (left f text).id⟩ = false := by
    rw [left_id]
    exact hclaim
  obtain ⟨row', hafter⟩ := rescheduled (e := .connector e) hleft hfree hretry hattempt
  exact ⟨text, row', hafter⟩

/-! ## A finding that is not pending -/

section Settled

variable (hsettled : f.status ≠ .pending) (htenant : ev.tenantID = tenant)
  (hid : ev.provenance.reconcileFindingID = f.id)

theorem found_of_only {p : Sync α} (hp : OnlyAdopts p) :
    Triple (World.handle env) (fun w => Found tenant f w.db) p (fun _ w => Found tenant f w.db) :=
  triple_of_only hp (fun w o ho h => by rw [Found, (@adopts_keeps env w o ho).1]; exact h)

theorem found_plain {p : Sync α} (hp : OnlyAdopts p) (hplain : PlainOnly env p) :
    Triple (World.handle env) (fun w => Found tenant f w.db) p (fun r w => Plain r ∧ Found tenant f w.db) :=
  fun w hw => ⟨hplain w trivial, found_of_only hp w hw⟩

include hsettled htenant hid

theorem applyReconcileFinding_settled : Triple (World.handle env) (fun w => Found tenant f w.db)
    (applyReconcileFinding env ev entityType policies) (fun r w => Plain r ∧ Found tenant f w.db) := by
  have hread : Triple (World.handle env) (fun w => Found tenant f w.db)
      (stmt (.getReconciliationFinding ev.tenantID ev.provenance.reconcileFindingID))
      (fun r w => (r = .ok f ∨ ∃ text, r = .error (.plain text)) ∧ Found tenant f w.db) := by
    refine triple_perform (fun w hw => ⟨?_, by rw [Found, (@adopts_keeps env w _ rfl).1]; exact hw⟩)
    rcases World.handle_store env w (.getReconciliationFinding ev.tenantID
      ev.provenance.reconcileFindingID) with
      ⟨text, _, hcall⟩ | ⟨_, _, hcall⟩
    · rw [hcall]
      exact .inr ⟨text, rfl⟩
    · rw [hcall, htenant, hid]
      exact .inl (congrArg rowOrNotFound hw)
  refine triple_attempt hread (fun r => triple_fact (fun _ h => h.1) ?_)
  rintro (rfl | ⟨text, rfl⟩)
  · show Triple _ _ (ite _ _ _) _
    rw [if_pos hsettled]
    exact triple_return (fun _ h => ⟨plain_ok, h.2⟩)
  · exact triple_throw (fun _ h => ⟨fun _ => nofun, h.2⟩)

/-- **An attempt at a finding that is not pending** asks no provider and leaves it as it is. -/
theorem process_settled (hne : f.id ≠ "") : Triple (World.handle env) (fun w => Found tenant f w.db)
    (process env ev)
    (fun r w => Plain r ∧ Found tenant f w.db) := by
  have hthrown : ∀ {α β : Type} {e : GoError} {w : World}, Plain (.error e : Except GoError α) ∧
    Found tenant f w.db →
      Plain (.error e : Except GoError β) ∧ Found tenant f w.db :=
    fun h => ⟨fun e' he => h.1 e' (congrArg _ (Except.error.inj he)), h.2⟩
  have htype : OnlyAdopts (canonicalEntityType env ev) := only_bind connect_adopts (fun _ => only_return _)
  have hplain : PlainOnly env (canonicalEntityType env ev) :=
    plain_bind plain_connect (fun _ => triple_return (fun _ _ => plain_ok))
  have hdispatch : Triple (World.handle env) (fun w => Found tenant f w.db) (dispatch env ev)
      (fun r w => Plain r ∧ Found tenant f w.db) := by
    refine triple_bind (found_plain (only_stmt rfl) plain_stmt) (fun policies => ?_) (fun _ _ h => hthrown h)
    refine triple_pre (triple_bind (found_plain htype hplain) (fun entityType => ?_) (fun _ _ h => hthrown h)) (fun _ h => h.2)
    rw [if_pos (hid ▸ hne)]
    refine triple_pre (triple_bind (applyReconcileFinding_settled hsettled htenant hid) (fun _ => ?_) (fun _ _ h => hthrown h))
      (fun _ h => h.2)
    exact triple_return (fun _ h => ⟨plain_ok, h.2⟩)
  have hmark : ∀ {s : StoreOp} {o : Outcome}, adopts (.store s) = true → Triple (World.handle env)
      (fun w => Found tenant f w.db) (do tryStmt s; Pure.pure o) (fun r w => Plain r ∧ Found tenant f w.db) :=
    fun hs => found_plain (only_bind (only_tryStmt hs) (fun _ => only_return _))
      (plain_bind plain_tryStmt (fun _ => triple_return (fun _ _ => plain_ok)))
  refine triple_bind (found_plain (only_stmt rfl) plain_stmt) (fun claimed => ?_) (fun _ _ h => hthrown h)
  refine triple_pre (P := fun w => Found tenant f w.db) ?_ (fun _ h => h.2)
  split_ifs
  · refine triple_attempt hdispatch (fun r => triple_fact (fun _ h => h.1) (fun hr => triple_pre ?_ (fun _ h => h.2)))
    have hrelease : ∀ {status : SourceEventStatus}, OnlyAdopts (release ev status) :=
      only_bind (only_tryStmt rfl) (fun _ => only_tryStmt rfl)
    cases r with
    | error e =>
      exact found_plain (only_bind hrelease (fun _ => trivial)) (plain_bind (plain_bind plain_tryStmt (fun _ => plain_tryStmt))
        (fun _ => triple_throw (fun _ _ e' he => hr e' (congrArg _ (Except.error.inj he)))))
    | ok d =>
      cases d with
      | noPolicy =>
        exact found_plain (only_bind hrelease (fun _ => only_return _))
          (plain_bind (plain_bind plain_tryStmt (fun _ => plain_tryStmt)) (fun _ => triple_return (fun _ _ => plain_ok)))
      | reconciled => exact hmark rfl
      | applied => exact hmark rfl
  · exact triple_return (fun _ h => ⟨plain_ok, h⟩)

/-- **The whole re-run** of such a finding, bookkeeping included. -/
theorem attempt_settled (hne : f.id ≠ "") (hstate : row.state = .event ev) : Triple (World.handle env)
    (fun w => Found tenant f w.db) (processRetry env row) (fun _ w => Found tenant f w.db) := by
  have hbooks : ∀ {p : Sync Unit}, OnlyBookkeeping p →
      Triple (World.handle env) (fun w => Found tenant f w.db) p (fun _ w => Found tenant f w.db) := fun hp =>
    triple_of_only hp (fun w o ho h => by
      rcases @World.handle_db env w o with hdb | ⟨s, pick, rfl, _, hdb⟩
      · rwa [Found, hdb]
      · rw [Found, hdb]
        cases s <;> first | exact h | cases ho)
  unfold processRetry
  rw [hstate]
  refine triple_attempt (process_settled hsettled htenant hid hne) (fun r => triple_pre ?_ (fun _ h => h.2))
  cases r with
  | ok _ => exact hbooks (Retry.settle_only row)
  | error e => exact hbooks (Retry.reschedule_only row e)

end Settled

/-- **An event that is claimed** fails with no error of a provider. -/
theorem process_claimed (h : w.db.processed ev.key = true) :
    Plain (run (World.handle env) (process env ev) w).1 := by
  unfold process
  rw [run_bind, stmt, run_perform]
  rcases World.handle_store env w (.claimProcessedEvent ev.key) with ⟨_, _, hcall⟩ | ⟨_, _, hcall⟩
  · rw [hcall]
    intro e he
    cases he
  · rw [hcall]
    simp only [exec, h]
    exact plain_ok

/-! ## An attempt that succeeds -/

def Applied (tenant : String) (f : ReconciliationFinding) (w : World) : Prop :=
  ∃ g, w.db.findings.find? (fun g => g.tenantID = tenant ∧ g.id = f.id) = some g ∧ g.status = .applied

theorem applied_setFinding (h : Found tenant f db)
    (hpending : f.status = .pending)
    (hw : w.db.findings = (db.setFinding f.tenantID f.id .applied none).findings) : Applied tenant f w := by
  refine ⟨{ f with status := .applied, error := none }, ?_, rfl⟩
  rw [hw]
  exact @found_setFinding tenant f db .applied none h hpending

def Requested (ep : Endpoint) (m : Mutation) (w w' : World) : Prop :=
  ∃ made, w'.mutations = w.mutations ++ made ∧ (ep, m) ∈ made

def Shows (a : Adapter) (ep : Endpoint) (cust : Customer) (w : World) : Prop :=
  ∃ r ∈ (w.sims ep).records.rows, ∀ g, (a.normalize (SimServer.providerRecord r)).get g = cust.get g

structure Sent (a : Adapter) (ep : Endpoint) (cust : Customer) (w w' : World) : Prop where
  request : Requested ep .create w w' ∨ Requested ep .update w w'
  shows_ : Shows a ep cust w'

structure Grows (env : Env) (cust : Customer) (w w' : World) : Prop where
  mutations : ∃ made, w'.mutations = w.mutations ++ made
  keeps : ∀ a ep, env.registry ep.provider = some a → Shows a ep cust w → Shows a ep cust w'

theorem Grows.refl (cust : Customer) (w : World) : Grows env cust w w :=
    ⟨⟨[], (List.append_nil _).symm⟩, fun _ _ _ h => h⟩

theorem Grows.trans {u : World} (h : Grows env cust w v) (h' : Grows env cust v u) : Grows env cust w u := by
  obtain ⟨made, hmade⟩ := h.mutations
  obtain ⟨made', hmade'⟩ := h'.mutations
  exact ⟨⟨made ++ made', by rw [hmade', hmade, List.append_assoc]⟩,
    fun a ep hreg hs => h'.keeps a ep hreg (h.keeps a ep hreg hs)⟩

section

variable {cust : Customer} {ep : Endpoint} {m : Mutation} {a : Adapter} {u : World}

theorem Requested.later (h : Requested ep m w v) (hgrows : ∃ made, u.mutations = v.mutations ++ made) :
    Requested ep m w u := by
  obtain ⟨made, hmade, hmem⟩ := h
  obtain ⟨made', hmade'⟩ := hgrows
  exact ⟨made ++ made', by rw [hmade', hmade, List.append_assoc], List.mem_append_left _ hmem⟩

theorem Requested.earlier (h : Requested ep m v u) (hgrows : ∃ made, v.mutations = w.mutations ++ made) :
    Requested ep m w u := by
  obtain ⟨made, hmade, hmem⟩ := h
  obtain ⟨made', hmade'⟩ := hgrows
  exact ⟨made' ++ made, by rw [hmade, hmade', List.append_assoc], List.mem_append_right _ hmem⟩

theorem Sent.later (h : Sent a ep cust w v) (hreg : env.registry ep.provider = some a)
    (hgrows : Grows env cust v u) : Sent a ep cust w u :=
  ⟨h.request.imp (·.later hgrows.mutations) (·.later hgrows.mutations), hgrows.keeps a ep hreg h.shows_⟩

theorem Sent.earlier (h : Sent a ep cust v u) (hgrows : Grows env cust w v) : Sent a ep cust w u :=
  ⟨h.request.imp (·.earlier hgrows.mutations) (·.earlier hgrows.mutations), h.shows_⟩

variable {sim : SimServer} {x : SimRecord × SimServer}

theorem shows_update (hsims : u.sims = update w.sims ep x.2)
    (hrows : x.2.records = (w.sims ep).records.upsert x.1) (hfields : ∀ g,
      (a.normalize (SimServer.providerRecord x.1)).get g = cust.get g) : Shows a ep cust u := by
  refine ⟨x.1, ?_, hfields⟩
  rw [hsims, update_self, hrows]
  exact Table.mem_upsert.mpr (.inl rfl)

theorem sent_create (hx : (w.sims ep).insert (a.denormalize cust).data = x)
    (hsims : u.sims = update w.sims ep x.2) (hmutations : u.mutations = w.mutations ++ [(ep, .create)]) :
    Sent a ep cust w u := by
  subst hx
  refine ⟨.inl ⟨_, hmutations, .head _⟩, shows_update hsims rfl (fun g => ?_)⟩
  rw [Adapter.get_normalize]
  show Adapter.s ((a.denormalize cust).data.get (a.native g)) = _
  rw [Data.get, Adapter.get_denormalize]
  rfl

theorem sent_update {id : String} (hx : (w.sims ep).update id (a.denormalize cust).data = some x)
    (hsims : u.sims = update w.sims ep x.2) (hmutations : u.mutations = w.mutations ++ [(ep, .update)]) :
    Sent a ep cust w u := by
  obtain ⟨old, _, hrec, hsim⟩ := @SimServer.update_eq_some _ x.2 id _ x.1 hx
  refine ⟨.inr ⟨_, hmutations, .head _⟩, shows_update hsims (by rw [hsim]) (fun g => ?_)⟩
  rw [Adapter.get_normalize, hrec]
  exact Adapter.s_get_denormalize_union cust old.data g

theorem Sent.grows (h : Sent a ep cust w u) (hreg : env.registry ep.provider = some a)
    (hsims : u.sims = update w.sims ep sim) (hmutations : u.mutations = w.mutations ++ [(ep, m)]) :
    Grows env cust w u := by
  refine ⟨⟨_, hmutations⟩, fun a' ep' hreg' h' => ?_⟩
  by_cases heq : ep' = ep
  · subst heq
    rw [hreg] at hreg'
    exact Option.some.inj hreg' ▸ h.shows_
  · obtain ⟨r, hr, hfields⟩ := h'
    refine ⟨r, ?_, hfields⟩
    rwa [hsims, Function.update_of_ne heq]

end

def adopted (f : ReconciliationFinding) : Customer :=
    ({ entityID := f.providerID } : Customer).fromFields f.providerFields

def Written (env : Env) (tenant source : String) (f : ReconciliationFinding) (w w' : World) : Prop :=
  match f.direction with
  | .delete => ∃ ep : Endpoint, ep.provider = source ∧ Requested ep .delete w w' ∧
      ∃ r ∈ (w'.sims ep).records.rows, r.id = f.providerID ∧ r.deleted = true
  | .pushCanonical => ∃ a c ep, env.registry source = some a ∧
      w.db.canonical.get? ⟨tenant, a.canonicalEntityType, f.canonicalID⟩ = some c ∧ ep.provider = source ∧
      Sent a ep (pushedCustomer c) w w'
  | .adoptProvider => ∀ p ∈ w.db.policiesOf tenant, p.source = source →
      ∃ a ep, env.registry p.destination = some a ∧ ep.provider = p.destination ∧ Sent a ep (adopted f) w w'
  | .other _ => False

section Congr

variable {w' u u' : World} {ep : Endpoint}

theorem Requested.congr {m : Mutation} (h : Requested ep m w w') (hmutations : u.mutations = w.mutations)
    (hmutations' : u'.mutations = w'.mutations) : Requested ep m u u' := by
  unfold Requested
  rwa [hmutations, hmutations']

theorem Sent.congr {a : Adapter} (h : Sent a ep cust w w') (hmutations : u.mutations = w.mutations)
    (hmutations' : u'.mutations = w'.mutations) (hsims : u'.sims = w'.sims) : Sent a ep cust u u' := by
  refine ⟨h.request.imp (fun h => h.congr hmutations hmutations') (fun h => h.congr hmutations hmutations'),
    ?_⟩
  unfold Shows
  rw [hsims]
  exact h.shows_

theorem Written.congr {source : String} (h : Written env tenant source f w w')
    (hcanonical : u.db.canonical = w.db.canonical) (hpolicies : u.db.policies = w.db.policies)
    (hmutations : u.mutations = w.mutations) (hmutations' : u'.mutations = w'.mutations)
    (hsims : u'.sims = w'.sims) : Written env tenant source f u u' := by
  unfold Written at h ⊢
  cases hd : f.direction with
  | delete =>
    rw [hd] at h
    obtain ⟨ep, hep, hrequested, hrecord⟩ := h
    refine ⟨ep, hep, hrequested.congr hmutations hmutations', ?_⟩
    rwa [hsims]
  | pushCanonical =>
    rw [hd] at h
    obtain ⟨a, c, ep, hreg, hc, hep, hsent⟩ := h
    exact ⟨a, c, ep, hreg, by rw [hcanonical]; exact hc, hep, hsent.congr hmutations hmutations' hsims⟩
  | adoptProvider =>
    rw [hd] at h
    intro p hp hsource
    rw [policiesOf, hpolicies] at hp
    obtain ⟨a, ep, hreg, hep, hsent⟩ := h p hp hsource
    exact ⟨a, ep, hreg, hep, hsent.congr hmutations hmutations' hsims⟩
  | other name =>
    rwa [hd] at h

end Congr

section Repairs

variable {ev : Event} {entityType source : String} {src : Remote} {cust : Customer} {c : CanonicalRecord}

theorem repairDelete_written (hf : Found tenant f w.db)
    (hpending : f.status = .pending) (hsource : src.endpoint.provider = source) :
    Returns env (repairDelete ev entityType f source src) w (fun _ w' => Applied tenant f w' ∧
      ∃ ep : Endpoint, ep.provider = source ∧ Requested ep .delete w w' ∧
        ∃ r ∈ (w'.sims ep).records.rows, r.id = f.providerID ∧ r.deleted = true) := by
  refine yields_mono repairDelete_returns ?_
  rintro _ w' ⟨x, hx, hdone⟩
  obtain ⟨old, hold, hrec, hsim⟩ := @SimServer.softDelete_eq_some _ x.2 _ x.1 hx
  have hid : old.id = f.providerID := Table.get?_key hold
  refine ⟨applied_setFinding hf hpending hdone.findings, src.endpoint, hsource, ⟨_, hdone.mutations, .head _⟩,
    x.1, ?_, ?_⟩
  · rw [hdone.sims, update_self, hsim]
    exact Table.mem_upsert.mpr (.inl rfl)
  · rw [hrec]
    exact ⟨hid, rfl⟩

theorem repairPush_written (hf : Found tenant f w.db) (hpending : f.status = .pending)
    (hc : w.db.canonical.get? ⟨ev.tenantID, entityType, f.canonicalID⟩ = some c) :
    Returns env (repairPush env ev entityType f source src) w (fun _ w' => Applied tenant f w' ∧
      Sent src.adapter src.endpoint (pushedCustomer c) w w') := by
  refine yields_mono (repairPush_returns hc) ?_
  rintro _ w' ⟨_, id, x, ⟨rfl, _, _, hx⟩ | ⟨rfl, _, _, hx⟩, hdone⟩
  · exact ⟨applied_setFinding hf hpending hdone.findings, sent_create hx hdone.sims hdone.mutations⟩
  · exact ⟨applied_setFinding hf hpending hdone.findings, sent_update hx hdone.sims hdone.mutations⟩

theorem writeDestination_sent {destination : String}
    (hregistered : (env.registry destination).isSome = true) :
    Returns env (writeDestination env tenant destination cust c) w (fun _ w' =>
      (∃ a ep, env.registry destination = some a ∧ ep.provider = destination ∧ Sent a ep cust w w') ∧
      Grows env cust w w' ∧ w'.db.findings = w.db.findings) := by
  refine yields_mono (returns_writeDestination hregistered) ?_
  rintro c' _ ⟨dst, m, type, x, hdst, hwrites, rfl⟩
  have hsent : Sent dst.adapter dst.endpoint cust w (w.called.called.wrote env dst.endpoint m type x) := by
    cases hwrites with
    | created _ hx => exact sent_create hx rfl rfl
    | updated _ hx => exact sent_update hx rfl rfl
  exact ⟨⟨dst.adapter, dst.endpoint, hdst.adapter, hdst.endpoint, hsent⟩,
    hsent.grows (hdst.endpoint.symm ▸ hdst.adapter) rfl rfl, rfl⟩

theorem propagateNow_sent {id : String} {version : Int}
    (hregistered : ∀ p ∈ policies, (env.registry p.destination).isSome = true) :
    Returns env (propagateNow env tenant entityType id source version cust policies c) w (fun _ w' =>
      (∀ p ∈ policies, ∃ a ep, env.registry p.destination = some a ∧ ep.provider = p.destination ∧ Sent a ep cust w w') ∧
      Grows env cust w w' ∧ w'.db.findings = w.db.findings) := by
  induction policies generalizing c w with
  | nil => exact yields_return ⟨nofun, Grows.refl _ _, rfl⟩
  | cons p policies ih =>
    obtain ⟨hp, hrest⟩ := List.forall_mem_cons.mp hregistered
    refine yields_bind (writeDestination_sent hp) ?_
    rintro c1 w1 ⟨⟨a, ep, hreg, hep, hsent⟩, hgrows, hfindings⟩
    refine returns_stmt_bind rfl (fun _ _ _ => returns_tryStmt_bind rfl (fun _ => yields_mono (ih hrest) ?_))
    rintro _ w2 ⟨hall, hgrows2, hfindings2⟩
    -- the two statements in between change neither the providers nor the record of requests
    have hgrows2 : Grows env cust w1 w2 := ⟨hgrows2.mutations, hgrows2.keeps⟩
    refine ⟨List.forall_mem_cons.mpr ⟨⟨a, ep, hreg, hep, hsent.later (hep ▸ hreg) hgrows2⟩, fun q hq => ?_⟩,
      hgrows.trans hgrows2, hfindings2.trans hfindings⟩
    obtain ⟨b, ep', hreg', hep', hsent'⟩ := hall q hq
    have hsent' : Sent b ep' cust w1 w2 := ⟨hsent'.request, hsent'.shows_⟩
    exact ⟨b, ep', hreg', hep', hsent'.earlier hgrows⟩

theorem adoptCanonical_quiet : Returns env (adoptCanonical ev entityType f source cust) w (fun _ w' =>
    w'.sims = w.sims ∧ w'.mutations = w.mutations ∧ w'.db.findings = w.db.findings) := by
  refine returns_lookup (fun _ _ _ => yields_return ⟨rfl, rfl, rfl⟩) (fun _ _ => ?_)
  refine returns_lookup (fun _ _ _ => ?_) (fun _ _ => yields_return ⟨rfl, rfl, rfl⟩)
  exact returns_stmt_bind rfl (fun _ _ _ => yields_return ⟨rfl, rfl, rfl⟩)

theorem applyAdoptProvider_written (hf : Found tenant f w.db) (hpending : f.status = .pending)
    (hregistered : ∀ p ∈ policies, p.source = source → (env.registry p.destination).isSome = true) :
    Returns env (applyAdoptProvider env ev entityType policies f source) w (fun _ w' => Applied tenant f w' ∧
      ∀ p ∈ policies, p.source = source → ∃ a ep, env.registry p.destination = some a ∧
        ep.provider = p.destination ∧ Sent a ep (adopted f) w w') := by
  refine yields_bind adoptCanonical_quiet ?_
  rintro found w1 ⟨hsims, hmutations, hfindings⟩
  have hfilter : ∀ p ∈ policies.filter (fun p => p.source = source),
    (env.registry p.destination).isSome = true := fun p hp =>
    hregistered p (List.mem_filter.mp hp).1 (of_decide_eq_true (List.mem_filter.mp hp).2)
  refine yields_bind (propagateNow_sent hfilter) ?_
  rintro c2 w2 ⟨hall, _, hfindings2⟩
  refine returns_stmt_bind rfl (fun _ _ _ => returns_tryStmt rfl (fun _ => ⟨?_, fun p hp hsource => ?_⟩))
  · have hf2 : Found tenant f w2.db := by
      rwa [Found, hfindings2, hfindings]
    exact applied_setFinding hf2 hpending rfl
  · obtain ⟨a, ep, hreg, hep, hsent⟩ := hall p (List.mem_filter.mpr ⟨hp, decide_eq_true hsource⟩)
    have hstart : ∃ made, w1.mutations = w.mutations ++ made := ⟨[], by rw [hmutations, List.append_nil]⟩
    refine ⟨a, ep, hreg, hep, ?_, ?_⟩
    · exact hsent.request.imp (fun h => h.earlier hstart) (fun h => h.earlier hstart)
    · obtain ⟨r, hr, hfields⟩ := hsent.shows_
      refine ⟨r, hr, fun g => (hfields g).trans ?_⟩
      cases g <;> rfl

/-- **The repair of a finding**, by its direction. -/
theorem repairOf_written {a : Adapter} (hf : Found tenant f w.db)
    (hpending : f.status = .pending) (htenant : ev.tenantID = tenant)
    (hregistered : env.registry source = some a) (hadapter : src.adapter = a)
    (hsource : src.endpoint.provider = source) (hdirection : ∀ name, f.direction ≠ .other name)
    (hcanonical : f.direction = .pushCanonical →
      w.db.canonical.get? ⟨tenant, a.canonicalEntityType, f.canonicalID⟩ ≠ none)
      (hdestinations : f.direction = .adoptProvider → ∀ p ∈ w.db.policiesOf tenant, p.source = source →
        (env.registry p.destination).isSome = true) :
    Returns env (repairOf env ev a.canonicalEntityType (w.db.policiesOf tenant) f source src) w
      (fun _ w' => Applied tenant f w' ∧ Written env tenant source f w w') := by
  unfold repairOf Written
  cases hd : f.direction with
  | delete => exact repairDelete_written hf hpending hsource
  | pushCanonical =>
    obtain ⟨c, hc⟩ := Option.ne_none_iff_exists'.mp (hcanonical hd)
    refine yields_mono (repairPush_written hf hpending (htenant ▸ hc))
      (fun _ w' h => ⟨h.1, a, c, src.endpoint, hregistered, hc, hsource, ?_⟩)
    rw [← hadapter]
    exact h.2
  | adoptProvider => exact applyAdoptProvider_written hf hpending (hdestinations hd)
  | other name => exact absurd hd (hdirection name)

end Repairs

theorem retry_returns {Q : World → Prop} (hunmarshal : row.state.unmarshal = .ok ev)
    (hprocess : Returns env (process env ev) w (fun _ w' => Q w'))
    (hbooks : ∀ w' pick pick', Q w' →
      Q ((w'.executed pick (.deleteRetry row.key)).executed pick' (.resolveDeadLetterForEvent row.key))) :
    Returns env (processRetry env row) w (fun _ w' => Q w') := by
  unfold processRetry
  rw [hunmarshal]
  refine yields_attempt hprocess (fun _ w1 h1 => ?_)
  exact returns_tryStmt_bind rfl (fun pick => returns_tryStmt rfl (fun pick' => hbooks w1 pick pick' h1))

section Attempt

variable {a : Adapter} (now : Time)

variable (hpending : f.status = .pending) (hregistered : env.registry run_.source = some a)
  (hdirection : ∀ name, f.direction ≠ .other name)
  (hcanonical : f.direction = .pushCanonical →
    w.db.canonical.get? ⟨tenant, a.canonicalEntityType, f.canonicalID⟩ ≠ none)
  (hdestinations : f.direction = .adoptProvider → ∀ p ∈ w.db.policiesOf tenant, p.source = run_.source →
    (env.registry p.destination).isSome = true)

include hpending hregistered hdirection hcanonical hdestinations

theorem attempt_repairs (hw : Waiting tenant f run_ row false w)
    (hstate : row.state = .marshal (applyEvent tenant run_ f now))
    (hne : f.id ≠ "") : Returns env (processRetry env row) w (fun _ w' => Applied tenant f w' ∧ Written env tenant run_.source f w w') := by
  have hunmarshal : row.state.unmarshal = .ok (applyEvent tenant run_ f now) := by rw [hstate]; rfl
  have hprocess : Returns env (process env (applyEvent tenant run_ f now)) w
      (fun _ w' => Applied tenant f w' ∧ Written env tenant run_.source f w w') := by
    refine yields_mono (process_repairs (Q := fun w' => Applied tenant f w' ∧ Written env tenant run_.source f w w')
      hw.claim rfl hne hw.finding hpending (fun r hr => congrArg _ (Option.some.inj (hr.symm.trans hw.ofRun))) hregistered ?_) ?_
    · intro src pick w1 hsrc hsims hmutations hdb
      have hf : Found tenant f w1.db := by
        rw [Found, hdb]
        exact hw.finding
      have hadapter := Option.some.inj (hsrc.adapter.symm.trans hregistered)
      have hsame : w1.db.canonical = w.db.canonical ∧ w1.db.policies = w.db.policies := by
        rw [hdb]
        exact ⟨rfl, rfl⟩
      have hrepair := repairOf_written hf hpending (rfl : (applyEvent tenant run_ f now).tenantID = tenant) hregistered
        hadapter hsrc.endpoint hdirection (hsame.1 ▸ hcanonical)
        (by rw [policiesOf, hsame.2]; exact hdestinations)
      rw [policiesOf, hsame.2] at hrepair
      exact yields_mono hrepair (fun _ _ h => ⟨h.1, h.2.congr hsame.1.symm hsame.2.symm hmutations.symm rfl rfl⟩)
    · rintro _ _ ⟨w2, pick, ⟨happlied, hwritten⟩, rfl⟩
      exact ⟨happlied, hwritten.congr rfl rfl rfl rfl rfl⟩
  exact retry_returns hunmarshal hprocess (fun _ _ _ h => ⟨h.1, h.2.congr rfl rfl rfl rfl rfl⟩)

end Attempt

/-- **An approval whose canonical record is gone** is skipped. -/
theorem attempt_skips {a : Adapter} (hw : Waiting tenant f run_ row false w)
    (hstate : row.state = .marshal (applyEvent tenant run_ f now)) (hne : f.id ≠ "")
    (hpending : f.status = .pending) (hregistered : env.registry run_.source = some a)
    (hpush : f.direction = .pushCanonical)
    (hgone : w.db.canonical.get? ⟨tenant, a.canonicalEntityType, f.canonicalID⟩ = none) :
    Returns env (processRetry env row) w (fun _ w' => ¬ Applied tenant f w') := by
  have hunmarshal : row.state.unmarshal = .ok (applyEvent tenant run_ f now) := by rw [hstate]; rfl
  refine retry_returns (Q := fun w' => ¬ Applied tenant f w') hunmarshal ?_ (fun _ _ _ h => h)
  refine yields_mono (process_repairs (Q := fun w' => ¬ Applied tenant f w') hw.claim rfl hne hw.finding
    hpending (fun r hr => congrArg _ (Option.some.inj (hr.symm.trans hw.ofRun))) hregistered ?_) ?_
  · intro src pick w1 _ _ _ hdb
    unfold repairOf
    rw [hpush]
    refine returns_lookup (fun _ c hc => ?_) (fun _ _ => returns_tryStmt rfl (fun _ => ?_))
    · have hc := Database.rowOrNotFound_ok hc
      rw [hdb] at hc
      cases hc.symm.trans hgone
    · rintro ⟨g, hg, happlied⟩
      have hf : Found tenant f w1.db := by rw [Found, hdb]; exact hw.finding
      have hskipped := @found_setFinding tenant f w1.db .skipped (some "canonical record gone") hf hpending
      cases hg.symm.trans hskipped
      cases happlied
  · rintro _ _ ⟨w2, pick, hnot, rfl⟩
    exact hnot

/-- **An approval whose event is claimed** is not run: the finding stays as it is. -/
theorem attempt_skipped (hw : Waiting tenant f run_ row true w)
    (hstate : row.state = .marshal (applyEvent tenant run_ f now)) :
    Returns env (processRetry env row) w (fun _ w' => Found tenant f w'.db) := by
  have hunmarshal : row.state.unmarshal = .ok (applyEvent tenant run_ f now) := by rw [hstate]; rfl
  refine retry_returns (Q := fun w' => Found tenant f w'.db) hunmarshal ?_ (fun _ _ _ h => h)
  refine returns_stmt_bind rfl (fun _ claimed hclaimed => ?_)
  have hclaimed : (Except.ok (!w.db.processed ⟨tenant, run_.source, eventID f.id⟩) : Except GoError Bool)
    = .ok claimed := hclaimed
  rw [hw.claim] at hclaimed
  rw [← Except.ok.inj hclaimed]
  exact yields_return hw.finding

/-! ## The retries -/

/-- Nobody else sees to the finding: its row, its run, its claim and what is queued for it stay. Everything
    else may change. -/
structure LeftAlone (tenant id runID source : String) (w w' : World) : Prop where
  finding : w'.db.findings.find? (fun g => g.tenantID = tenant ∧ g.id = id)
    = w.db.findings.find? (fun g => g.tenantID = tenant ∧ g.id = id)
  ofRun : w'.db.runs.find? (fun r => r.tenantID = tenant ∧ r.id = runID)
    = w.db.runs.find? (fun r => r.tenantID = tenant ∧ r.id = runID)
  queued : w'.db.retryQueue.get? ⟨tenant, eventID id⟩ = w.db.retryQueue.get? ⟨tenant, eventID id⟩
  claim : w'.db.processed ⟨tenant, source, eventID id⟩ = w.db.processed ⟨tenant, source, eventID id⟩

theorem LeftAlone.refl (tenant id runID source : String) (w : World) : LeftAlone tenant id runID source w w :=
    ⟨rfl, rfl, rfl, rfl⟩

theorem LeftAlone.waits (h : LeftAlone tenant f.id f.runID run_.source w v)
    (hw : Waiting tenant f run_ row claimed w) : Waiting tenant f run_ row claimed v :=
  ⟨h.finding.trans hw.finding, h.ofRun.trans hw.ofRun, h.queued.trans hw.queued, h.claim.trans hw.claim⟩

/-- The engine's attempts at the queued repair fail `k` times, with retryable errors of a provider. -/
inductive Fails (env : Env) (tenant id runID source : String) : Nat → World → World → Prop
  | none {w w' : World} (halone : LeftAlone tenant id runID source w w') :
      Fails env tenant id runID source 0 w w'
  | again {k : Nat} {w v w' : World} {row : RetryEntry} {ev : Event} {e : ConnectorError}
      (hfails : Fails env tenant id runID source k w v) (hrow : v.db.retryQueue.get? ⟨tenant, eventID id⟩ = some row)
      (hev : row.state.unmarshal = .ok ev) (hstore : StoreUp v)
      (hfail : (run (World.handle env) (process env ev) v).1 = .error (.connector e)) (hretry : e.kind.shouldRetry = true)
      (halone : LeftAlone tenant id runID source (run (World.handle env) (processRetry env row) v).2 w') :
      Fails env tenant id runID source (k + 1) w w'

section Runs

variable {k : Nat} (h : Fails env tenant f.id f.runID run_.source k w v)
  (hstate : row.state = .marshal (applyEvent tenant run_ f now))
include h hstate

/-- **Run lemma**: an adoption still waits after its failures, if there is an attempt left. -/
theorem Fails.waits (hw : Waiting tenant f run_ row false w) (hpending : f.status = .pending)
    (hne : f.id ≠ "") (hadopt : k = 0 ∨ f.direction = .adoptProvider)
    (hallowed : k = 0 ∨ row.attempt + k < row.maxAttempts) :
    ∃ row', Waiting tenant f run_ row' false v ∧ row'.state = row.state ∧
      row'.attempt = row.attempt + k ∧ row'.maxAttempts = row.maxAttempts := by
  induction h with
  | none halone => exact ⟨row, halone.waits hw, rfl, (add_zero _).symm, rfl⟩
  | @again k w v w' row1 ev e _ hrow hev hstore hfail hretry halone ih =>
    replace hadopt := hadopt.resolve_left (Nat.succ_ne_zero k)
    replace hallowed := hallowed.resolve_left (Nat.succ_ne_zero k)
    push_cast at hallowed
    obtain ⟨row', hwaits, hstate', hattempt, hmax⟩ := ih hw (.inr hadopt) (.inr (by omega))
    obtain rfl : row1 = row' := Option.some.inj (hrow.symm.trans hwaits.queued)
    have hevent : row1.state = .marshal (applyEvent tenant run_ f now) := hstate'.trans hstate
    obtain rfl : ev = applyEvent tenant run_ f now := by
      rw [hevent] at hev
      exact (Except.ok.inj hev).symm
    obtain ⟨text, row2, hwaits2, hstate2, hattempt2, hmax2⟩ :=
      attempt_fails hwaits hstore hevent hpending hne hfail hretry (by omega)
    rw [left_adopt hadopt] at hwaits2
    refine ⟨row2, halone.waits hwaits2, hstate2.trans hstate', ?_, hmax2.trans hmax⟩
    rw [hattempt2, hattempt]
    push_cast
    omega

/-- **Run lemma**: a push or a delete that has failed left its finding failed, and waits to be run once
    more. -/
theorem Fails.lost (hw : Waiting tenant f run_ row false w) (hpending : f.status = .pending) (hne : f.id ≠ "")
    (hadopt : f.direction ≠ .adoptProvider) (hk : k ≠ 0) (hallowed : row.attempt + k < row.maxAttempts) :
    ∃ text row', Waiting tenant (failedWith f text) run_ row' false v ∧ row'.state = row.state := by
  induction h with
  | none => exact absurd rfl hk
  | @again k w v w' row1 ev e hbefore hrow hev hstore hfail hretry halone ih =>
    push_cast at hallowed
    have hevent : ∀ {row'}, row'.state = row.state → row1 = row' → ev = applyEvent tenant run_ f now := by
      rintro row' hsame rfl
      rw [hsame, hstate] at hev
      exact (Except.ok.inj hev).symm
    by_cases hzero : k = 0
    · subst hzero
      obtain ⟨row', hwaits, hsame, hattempt, hmax⟩ := hbefore.waits hstate hw hpending hne (.inl rfl) (.inl rfl)
      have hrow1 : row1 = row' := Option.some.inj (hrow.symm.trans hwaits.queued)
      obtain rfl := hevent hsame hrow1
      subst hrow1
      obtain ⟨text, row2, hwaits2, hstate2, _⟩ := attempt_fails hwaits hstore (hsame.trans hstate) hpending hne hfail hretry
        (by push_cast at hattempt; omega)
      rw [left_failed hadopt] at hwaits2
      exact ⟨text, row2, LeftAlone.waits (f := failedWith f text) halone hwaits2, hstate2.trans hsame⟩
    · obtain ⟨text, row', hwaits, hsame⟩ := ih hw hzero (by omega)
      -- the next attempt at a failed finding does not fail at a provider
      obtain rfl := hevent hsame (Option.some.inj (hrow.symm.trans hwaits.queued))
      have hplain := (@process_settled env tenant (failedWith f text) (applyEvent tenant run_ f now) nofun rfl rfl hne v
        hwaits.finding).1
      exact absurd hfail (hplain e)

/-- **Run lemma**: the attempts at an approval whose event is claimed do not fail. -/
theorem Fails.zero_of_claimed (hw : Waiting tenant f run_ row true w) :
    k = 0 ∧ Waiting tenant f run_ row true v := by
  induction h with
  | none halone => exact ⟨rfl, halone.waits hw⟩
  | @again k w v w' row1 ev e _ hrow hev _ hfail _ _ ih =>
    obtain ⟨_, hwaits⟩ := ih hw
    obtain rfl : row1 = row := Option.some.inj (hrow.symm.trans hwaits.queued)
    obtain rfl : ev = applyEvent tenant run_ f now := by
      rw [hstate] at hev
      exact (Except.ok.inj hev).symm
    exact absurd hfail (process_claimed hwaits.claim e)

end Runs

theorem not_applied (h : Found tenant f w.db) (hstatus : f.status ≠ .applied) : ¬ Applied tenant f w := by
  rintro ⟨g, hg, happlied⟩
  obtain rfl := Option.some.inj (hg.symm.trans h)
  exact hstatus happlied

def annFinding (direction : Direction) : ReconciliationFinding :=
  { id := "f1", runID := "r1", tenantID := Deployment.tenant, kind := .drift, providerID := "sf-1",
    canonicalID := "sf-1"
    providerFields := Deployment.annRow.fields, providerVersion := 1, direction, status := .pending }

/-- Call number `n` will fail, if it is a request to a provider. -/
def failing (n : Nat) (direction : Direction) : World :=
  { Deployment.linked false with
    db := { (Deployment.linked false).db with runs := [Deployment.sweepOf .manual], findings := [annFinding direction] }
    providerTape := fun i => if i = n then some { kind := .transient, message := "down" } else none }

def requested (w : World) : Except GoError Api.Response × World :=
  run (World.handle Deployment.env) (handleApplyFinding Deployment.env Deployment.tenant "f1" "") w

def annRetry (w : World) : Option RetryEntry := w.db.retryQueue.get? ⟨Deployment.tenant, eventID "f1"⟩

def attempted (w : World) : World :=
  match annRetry w with
  | none => w
  | some row => (run (World.handle Deployment.env) (processRetry Deployment.env row) w).2

def willFail (w : World) : Bool :=
  match (annRetry w).bind (fun row => row.state.unmarshal.toOption) with
  | none => false
  | some ev =>
    match (run (World.handle Deployment.env) (process Deployment.env ev) w).1 with
    | .error (.connector e) => e.kind.shouldRetry
    | _ => false

theorem fails_once (hstore : StoreUp w) (h : willFail w = true) :
    Fails Deployment.env Deployment.tenant "f1" "r1" "salesforce" 1 w (attempted w) := by
  unfold willFail at h
  split at h
  · cases h
  · rename_i ev hev
    obtain ⟨row, hrow, hrowev⟩ := Option.bind_eq_some_iff.mp hev
    have hunmarshal : row.state.unmarshal = .ok ev := ok_of_toOption hrowev
    split at h
    · rename_i e hfail
      have hattempted : attempted w = (run (World.handle Deployment.env) (processRetry Deployment.env row) w).2 := by
        unfold attempted
        rw [hrow]
      rw [hattempted]
      exact .again (.none (LeftAlone.refl _ _ _ _ _)) hrow hunmarshal hstore hfail h (LeftAlone.refl _ _ _ _ _)
    · cases h

theorem failing_storeUp (n : Nat) (direction : Direction) : StoreUp (requested (failing n direction)).2 :=
  Desk.Up.run (fun _ => ⟨0, rfl⟩)

theorem allowed_of_test (h : (annRetry w).all (fun row => row.attempt + 1 < row.maxAttempts) = true) :
    ∀ row, annRetry w = some row → row.attempt + 1 < row.maxAttempts := by
  intro row hrow
  rw [hrow] at h
  exact of_decide_eq_true h

end SyncForge.Approval
