import SyncForge.Api.Decision
import SyncForge.Deployment
import SyncForge.Job.Calls
import SyncForge.Tenancy.Isolation
import SyncForge.Worker.Interference

/-!
# `Tenancy.Queues` — serialized events agree with the tenant column of their row

The retry engine and the job runner serve all tenants, interleaved call by call with everybody else. The event
inside a retry row or a dead letter carries the row's tenant, and every event handed to `Process` the tenant
of the row or the job it comes from.
-/

namespace SyncForge.Tenancy

open Effect Effect.Prog Store
open Deployment (annCreated world)
open Database (exec rowOrNotFound_ok)
open Rely (safe_attempt safe_mono safe_seq)
open Transition (Run)

/-! ## The system -/

inductive Task where
  | worker (value : Bytes)
  | engine (batchSize : Int)
  | runner (reconciler : Bool) (fuel : Nat)
  | replay (key : RowKey)
  | resolve (tenant id : String) (body : Option String)
  | apply (tenant id body : String)

def Task.body (env : Env) : Task → Sync Unit
  | .worker value => handle env value
  | .engine batchSize => do
    let _ ← Retry.drain env batchSize
    return ()
  | .runner reconciler fuel => Job.tick env reconciler fuel
  | .replay key => do
    let _ ← Api.handleDLQRetry env key
    return ()
  | .resolve tenant id body => do
    let _ ← Api.handleResolveConflict env tenant id body
    return ()
  | .apply tenant id body => do
    let _ ← Api.handleApplyFinding env tenant id body
    return ()

def setup (env : Env) : Pool.Setup sig GoError Task World World where
  handle := World.handle env
  body := Task.body env
  move w' w := some { w' with db := { w'.db with retryQueue := w.db.retryQueue, deadLetters := w.db.deadLetters } }

/-! ## Rows and events -/

def Carries (tenantID : String) (state : Bytes) : Prop := ∀ ev, state.unmarshal = .ok ev →
    ev.tenantID = tenantID

structure Consistent (db : Database) : Prop where
  retries : ∀ r ∈ db.retryQueue.rows, Carries r.tenantID r.state
  letters : ∀ k d, db.deadLetters k = some d → Carries d.tenantID d.payload

section

variable (task : Task) (log : List (Entry sig GoError))

def onBehalf (key : EventKey) : Prop :=
  match task with
  | .worker value => ∃ ev, value.unmarshal = .ok ev ∧ key = ev.key
  | .engine _ => ∃ limit due, (⟨.store (.claimDueRetries limit), .ok due⟩ : Entry sig GoError) ∈ log ∧
      ∃ r ∈ due, ∃ ev, r.state.unmarshal = .ok ev ∧ key = ev.key ∧ key.tenantID = r.tenantID
  | .runner _ _ => ∃ job, (⟨.store .nextSyncJob, .ok job⟩ : Entry sig GoError) ∈ log ∧
      key.tenantID = job.tenantID
  | _ => False

def queuedFor (e : RetryEntry) : Prop :=
  match task with
  | .replay key => ∃ d, (⟨.store (.getDeadLetter key), .ok d⟩ : Entry sig GoError) ∈ log ∧
      e.tenantID = d.tenantID ∧ e.state = d.payload
  | .resolve tenant id _ => ∃ c, (⟨.store (.getConflict tenant id), .ok c⟩ : Entry sig GoError) ∈ log ∧
      e.tenantID = c.tenantID
  | .apply tenant id _ => ∃ f, (⟨.store (.getReconciliationFinding tenant id), .ok f⟩ : Entry sig GoError)
      ∈ log ∧ e.tenantID = f.tenantID
  | _ => True

def foundFor (f : ReconciliationFinding) : Prop :=
  match task with
  | .runner _ _ => ∃ job, (⟨.store .nextSyncJob, .ok job⟩ : Entry sig GoError) ∈ log ∧
      f.tenantID = job.tenantID
  | _ => False

def may (o : Call) : Prop :=
  match o with
  | .store (.claimProcessedEvent key) => onBehalf task log key
  | .store (.enqueueRetry e _) => Carries e.tenantID e.state ∧ queuedFor task log e
  | .store (.insertDeadLetter d) => Carries d.tenantID d.payload
  | .store (.insertReconciliationFinding f) => foundFor task log f
  | _ => True

end

def rely (env : Env) : Rely sig GoError World where
  handle := World.handle env
  ok _ _ := True
  inv w := Consistent w.db
  change _ _ := True
  refl _ := trivial
  trans _ _ _ _ _ := trivial

def promise (task : Task) : Promise sig GoError World Unit :=
    ⟨fun log o _ => may task log o, fun _ _ _ => True⟩

variable {env : Env} {w : World} {task : Task} {log log' : List (Entry sig GoError)}
  {e r : RetryEntry} {now : Time} {pick fuel : Nat} {db : Database} {s : StoreOp} {o : Call} {ev : Event}
  {errorClass tenant id : String} {batchSize limit : Int} {due : List RetryEntry} {reconciler : Bool}

/-! ## What the calls keep -/

theorem enqueue_consistent {delay : Duration} (hdb : Consistent db)
    (he : Carries e.tenantID e.state) : Consistent (exec now pick (.enqueueRetry e delay) db).2 := by
  refine ⟨fun r hr => ?_, hdb.letters⟩
  rcases Relational.Table.mem_upsert.mp hr with rfl | ⟨hr, _⟩
  · unfold Database.retryRow
    split <;> exact he
  · exact hdb.retries r hr

theorem update_consistent (hdb : Consistent db) {key : RowKey} {row : Option DeadLetter}
    (hrow : ∀ d, row = some d → Carries d.tenantID d.payload) :
    Consistent { db with deadLetters := Function.update db.deadLetters key row } := by
  refine ⟨hdb.retries, fun k d hd => ?_⟩
  have hd : Function.update db.deadLetters key row k = some d := hd
  by_cases hk : k = key
  · rw [hk, Function.update_self] at hd
    exact hrow d hd
  · rw [Function.update_of_ne hk] at hd
    exact hdb.letters k d hd

theorem exec_consistent (hs : may task log (.store s)) (hdb : Consistent db) :
    Consistent (exec now pick s db).2 := by
  cases s with
  | enqueueRetry e delay => exact enqueue_consistent hdb hs.1
  | deleteRetry key => exact ⟨fun r hr => hdb.retries r (Relational.Table.mem_delete.mp hr).1, hdb.letters⟩
  | insertDeadLetter d =>
    refine update_consistent hdb (fun d' hd' => ?_)
    rwa [← Option.some.inj hd']
  | resolveDeadLetterForEvent key =>
    refine update_consistent hdb (fun d' hd' => ?_)
    obtain ⟨d, hd, rfl⟩ := Option.map_eq_some_iff.mp hd'
    have hcarries := hdb.letters key d hd
    split_ifs <;> exact hcarries
  | setDeadLetterStatus key status =>
    refine update_consistent hdb (fun d' hd' => ?_)
    obtain ⟨d, hd, rfl⟩ := Option.map_eq_some_iff.mp hd'
    exact hdb.letters key d hd
  | _ => exact ⟨hdb.retries, hdb.letters⟩

theorem handle_consistent (ho : may task log o) (hw : Consistent w.db) :
    Consistent (World.handle env o w).2.db := by
  rcases @World.handle_db env w o with h | ⟨s, pick, rfl, _, h⟩
  · rwa [h]
  · rw [h]
    exact exec_consistent ho hw

/-! ## What the tasks do -/

theorem onBehalf_mono {key : EventKey} (hsub : log ⊆ log') (h : onBehalf task log key) :
    onBehalf task log' key := by
  cases task with
  | engine batchSize =>
    obtain ⟨limit, due, hmem, hrow⟩ := h
    exact ⟨limit, due, hsub hmem, hrow⟩
  | runner reconciler fuel =>
    obtain ⟨job, hmem, htenant⟩ := h
    exact ⟨job, hsub hmem, htenant⟩
  | _ => exact h

theorem queuedFor_mono (hsub : log ⊆ log') (h : queuedFor task log e) : queuedFor task log' e := by
  cases task with
  | replay key =>
    obtain ⟨d, hmem, hrow⟩ := h
    exact ⟨d, hsub hmem, hrow⟩
  | resolve tenant id body =>
    obtain ⟨c, hmem, hrow⟩ := h
    exact ⟨c, hsub hmem, hrow⟩
  | apply tenant id body =>
    obtain ⟨f, hmem, hrow⟩ := h
    exact ⟨f, hsub hmem, hrow⟩
  | _ => exact h

theorem foundFor_mono {f : ReconciliationFinding} (hsub : log ⊆ log') (h : foundFor task log f) :
    foundFor task log' f := by
  cases task with
  | runner reconciler fuel =>
    obtain ⟨job, hmem, htenant⟩ := h
    exact ⟨job, hsub hmem, htenant⟩
  | _ => exact h

theorem may_mono (hsub : log ⊆ log') (ho : may task log o) : may task log' o := by
  cases o with
  | store s =>
    cases s with
    | claimProcessedEvent key => exact onBehalf_mono hsub ho
    | enqueueRetry e delay => exact ⟨ho.1, queuedFor_mono hsub ho.2⟩
    | insertReconciliationFinding f => exact foundFor_mono hsub ho
    | _ => exact ho
  | _ => trivial

theorem safe_of_may {α : Type} {p : Sync α} (hp : Only (may task log) p) :
    (rely env).safe (fun log o _ => may task log o) p (fun log' _ _ => log ⊆ log') log w := by
  refine Rely.safe_of_only (I := fun log' _ => log ⊆ log') hp (fun _ _ _ h _ => h) ?_ (List.Subset.refl _)
  intro log' o u ho hu _ hsub
  refine ⟨may_mono hsub ho, ⟨trivial, handle_consistent ho hu⟩, ?_⟩
  exact List.subset_append_of_subset_left _ hsub

theorem may_of_isWork (ho : o.isWork = true) : may task log o := by
  cases o with
  | store s => cases s <;> trivial
  | _ => trivial

/-- `Process` claims its own event and queues nothing. -/
theorem process_may (hkey : onBehalf task log ev.key) : Only (may task log) (process env ev) :=
  process_only_of hkey trivial (fun _ => trivial) (only_mono dispatch_only (fun _ => may_of_isWork))

theorem carries_marshal (ev : Event) : Carries ev.tenantID (.marshal ev) := by
  intro ev' hev'
  cases hev'
  rfl

theorem may_handsOff {bytes : Bytes} {key : RowKey} (hfree : ∀ e, queuedFor task log e)
    (h : Carries key.tenantID bytes) : HandsOff (may task log) bytes key where
  random := trivial
  enqueue e _ he := by
    obtain ⟨rfl, rfl⟩ := he
    exact ⟨h, hfree e⟩
  park d hd := by
    obtain ⟨rfl, rfl⟩ := hd
    exact h
  status _ _ := trivial

theorem worker_safe {value : Bytes} :
    (rely env).safe (fun log o _ => may (.worker value) log o) (handle env value)
    (fun _ _ _ => True) log w := by
  refine safe_mono (safe_of_may ?_) (fun _ _ _ _ => trivial)
  cases value with
  | garbage text => exact only_throw _
  | event ev => exact HandsOff.handle (may_handsOff (fun _ => trivial) (carries_marshal ev)) (process_may ⟨ev, rfl, rfl⟩)

section

variable (hgiven : (⟨.store (.claimDueRetries limit), .ok due⟩ : Entry sig GoError) ∈ log)
include hgiven

theorem processRetry_may (hr : r ∈ due)
    (hcarries : Carries r.tenantID r.state) : Only (may (.engine batchSize) log) (Retry.processRetry env r) :=
  HandsOff.processRetry (may_handsOff (fun _ => trivial) hcarries) trivial trivial
    (fun ev hev => process_may ⟨limit, due, hgiven, r, hr, ev, hev, rfl, hcarries ev hev⟩)

theorem drainRows_may {rows : List RetryEntry} (hrows : rows ⊆ due)
    (hcarries : ∀ r ∈ rows, Carries r.tenantID r.state) :
    Only (may (.engine batchSize) log) (Retry.drainRows env rows) := by
  induction rows with
  | nil => exact only_return _
  | cons r rest ih =>
    obtain ⟨hr, hrest⟩ := List.forall_mem_cons.mp hcarries
    have hmem := List.cons_subset.mp hrows
    exact only_bind (processRetry_may hgiven hmem.1 hr) (fun _ => ih hmem.2 hrest)

end

theorem engine_safe (hw : Consistent w.db) :
    (rely env).safe (fun log o _ => may (.engine batchSize) log o) (Task.body env (.engine batchSize)) (fun _ _ _ => True)
      log w := by
  have hclaim : (rely env).safe (fun log o _ => may (.engine batchSize) log o)
    (stmt (.claimDueRetries batchSize))
      (fun log r _ => ∀ due, r = .ok due → (⟨.store (.claimDueRetries batchSize), .ok due⟩ : Entry sig GoError) ∈ log ∧
        ∀ r ∈ due, Carries r.tenantID r.state) log w := by
    refine safe_stmt ⟨rfl, fun _ hu => ⟨trivial, hu⟩⟩ (fun _ _ _ => nofun) (fun _ _ _ => trivial) (fun u pick hu _ => ?_)
    refine ⟨⟨trivial, hu.2⟩, fun v _ due hdue => ⟨?_, fun r hr => ?_⟩⟩
    · rw [hdue]
      exact List.mem_concat_self
    · -- a row that is due is a row of the queue
      rw [← Except.ok.inj hdue] at hr
      have hmem := List.mem_of_mem_take hr
      rw [List.mem_insertionSort] at hmem
      exact hu.2.retries r (List.mem_of_mem_filter hmem)
  refine safe_seq (Q := fun _ _ _ => True) ?_ (fun _ _ _ _ _ _ _ => trivial) hw
  refine safe_attempt hclaim (fun log due u hdue hu => ?_) hw
  cases due with
  | error e => exact fun _ _ => trivial
  | ok due =>
    obtain ⟨hgiven, hcarries⟩ := hdue due rfl
    refine safe_mono (safe_of_may ?_) (fun _ _ _ _ => trivial)
    exact only_bind (drainRows_may hgiven (List.Subset.refl _) hcarries) (fun _ => only_return _)

theorem query_safe (hs : may task log (.store s)) (hread : ∀ now pick db, (exec now pick s db).2 = db) :
    (rely env).safe (fun log o _ => may task log o) (stmt s)
      (fun log r _ => ∀ a, r = .ok a → (⟨.store s, .ok a⟩ : Entry sig GoError) ∈ log ∧
        ∃ now pick db, Consistent db ∧ (exec now pick s db).1 = .ok a) log w := by
  refine safe_stmt ⟨rfl, fun _ hu => ⟨trivial, hu⟩⟩ (fun _ _ _ => nofun) (fun _ _ _ => hs)
    (fun u pick hu _ => ⟨⟨trivial, ?_⟩, ?_⟩)
  · show Consistent (exec u.now pick s u.db).2
    rw [hread]
    exact hu.2
  · intro v _ a ha
    rw [ha]
    exact ⟨List.mem_concat_self, u.now, pick, u.db, hu.2, ha⟩

theorem replay_safe {key : RowKey} (hw : Consistent w.db) :
    (rely env).safe (fun log o _ => may (.replay key) log o) (Task.body env (.replay key))
    (fun _ _ _ => True) log w := by
  refine safe_seq (Q := fun _ _ _ => True) ?_ (fun _ _ _ _ _ _ _ => trivial) hw
  refine safe_attempt (query_safe trivial (fun _ _ _ => rfl)) (fun log item u hitem hu => ?_) hw
  refine safe_mono (safe_of_may ?_) (fun _ _ _ _ => trivial)
  cases item with
  | error e => cases e <;> exact only_return _
  | ok d =>
    obtain ⟨hmem, _, _, db, hdb, hrow⟩ := hitem d rfl
    have hcarries := hdb.letters key d (rowOrNotFound_ok hrow)
    refine only_lookup trivial (fun r => ?_)
    split
    · exact only_return _
    · refine only_lookup ⟨hcarries, d, hmem, rfl, rfl⟩ (fun r => ?_)
      split <;> exact only_return _

theorem decide_may {lastError failed queued : String}
    (hqueued : ∀ e : RetryEntry, e.tenantID = ev.tenantID → queuedFor task log e) :
    Only (may task log) (Api.decide env ev lastError errorClass failed queued) := by
  refine only_lookup ⟨carries_marshal ev, hqueued _ rfl⟩ (fun r => ?_)
  split <;> exact only_return _

theorem resolve_safe {body : Option String} (hw : Consistent w.db) :
    (rely env).safe (fun log o _ => may (.resolve tenant id body) log o)
      (Task.body env (.resolve tenant id body)) (fun _ _ _ => True) log w := by
  refine safe_seq (Q := fun _ _ _ => True) ?_ (fun _ _ _ _ _ _ _ => trivial) hw
  refine safe_attempt (query_safe trivial (fun _ _ _ => rfl)) (fun log c u hc hu => ?_) hw
  refine safe_mono (safe_of_may ?_) (fun _ _ _ _ => trivial)
  cases c with
  | error e => cases e <;> exact only_return _
  | ok c =>
    obtain ⟨hmem, _, _, db, _, hrow⟩ := hc c rfl
    -- the conflict is one of the operator's tenant
    have hfound := List.find?_some (rowOrNotFound_ok hrow)
    have htenant : c.tenantID = tenant := (of_decide_eq_true hfound).1
    show Only _ (ite _ _ _)
    split_ifs
    · exact only_return _
    · split
      · exact only_return _
      · split_ifs
        · exact only_return _
        · refine only_bind (only_perform trivial) (fun now => decide_may (fun e he => ⟨c, hmem, ?_⟩))
          exact he.trans htenant.symm

theorem apply_safe {body : String} (hw : Consistent w.db) :
    (rely env).safe (fun log o _ => may (.apply tenant id body) log o) (Task.body env (.apply tenant id body))
      (fun _ _ _ => True) log w := by
  refine safe_seq (Q := fun _ _ _ => True) ?_ (fun _ _ _ _ _ _ _ => trivial) hw
  refine safe_attempt (query_safe trivial (fun _ _ _ => rfl)) (fun log f u hf hu => ?_) hw
  refine safe_mono (safe_of_may ?_) (fun _ _ _ _ => trivial)
  cases f with
  | error e => cases e <;> exact only_return _
  | ok f =>
    obtain ⟨hmem, _, _, db, _, hrow⟩ := hf f rfl
    have hfound := List.find?_some (rowOrNotFound_ok hrow)
    have htenant : f.tenantID = tenant := (of_decide_eq_true hfound).1
    have hqueue : ∀ run, Only (may (.apply tenant id body) log) (Api.queueRepair env tenant run f) :=
      fun run =>
      only_bind (only_perform trivial) (fun now => decide_may (fun e he => ⟨f, hmem, he.trans htenant.symm⟩))
    show Only _ (ite _ _ _)
    split
    · exact only_return _
    · refine only_lookup trivial (fun r => ?_)
      split
      · exact only_return _
      · split
        · exact hqueue _
        · split
          · exact only_return _
          · refine only_lookup trivial (fun r => ?_)
            split
            · exact only_return _
            · exact hqueue _

theorem execute_may {reconciler' : Bool} {fuel' : Nat} {job : SyncJob}
    (hgiven : ∀ T, T = job.tenantID → ∃ job', (⟨.store .nextSyncJob, .ok job'⟩ : Entry sig GoError) ∈ log ∧
      T = job'.tenantID) : Only (may (.runner reconciler fuel) log)
      (Job.execute env reconciler' fuel' job) := by
  have hown : ∀ o : Call, o.isOwn = true → may (.runner reconciler fuel) log o := by
    intro o ho
    cases o with
    | store s => cases s <;> trivial
    | _ => trivial
  have hprocess : ∀ ev : Event, ev.tenantID = job.tenantID →
    Only (may (.runner reconciler fuel) log) (process env ev) :=
    fun ev hev => process_may (hgiven _ hev)
  unfold Job.execute
  split_ifs
  · refine Reconcile.run_only hown (fun run entityType kind providerID version canonical fields policy => ?_)
    exact Reconcile.record_only (hgiven _ rfl) (fun _ _ => trivial) trivial (fun f now => hprocess _ rfl)
  · exact Job.abort_only hown
  · exact Job.fullSync_only (fun rec reason => only_tryStmt (carries_marshal _)) trivial
      (fun _ _ _ => hprocess _ rfl) hown (fun _ => trivial)

theorem runner_safe (hw : Consistent w.db) :
    (rely env).safe (fun log o _ => may (.runner reconciler fuel) log o) (Job.tick env reconciler fuel)
      (fun _ _ _ => True) log w := by
  have hclaim : (rely env).safe (fun log o _ => may (.runner reconciler fuel) log o) Job.claimNextSyncJob
      (fun log r _ => ∀ job, r = .ok job →
        ∃ job', (⟨.store .nextSyncJob, .ok job'⟩ : Entry sig GoError) ∈ log ∧ job.tenantID = job'.tenantID) log w := by
    refine Rely.safe_bind (query_safe trivial (fun _ _ _ => rfl)) (fun log job u hjob hu => ?_)
      (fun _ _ _ _ _ h => nomatch h) hw
    obtain ⟨hmem, _⟩ := hjob job rfl
    refine Rely.safe_bind (safe_of_may (only_stmt trivial)) (fun log' _ v hsub hv => ?_)
      (fun _ _ _ _ _ h => nomatch h) hu
    refine Rely.safe_bind (safe_of_may (only_perform trivial)) (fun log'' now v' hsub' hv' t ht => ?_)
      (fun _ _ _ _ _ h => nomatch h) hv
    rintro job' hjob'
    rw [← Except.ok.inj hjob']
    exact ⟨job, hsub' (hsub hmem), rfl⟩
  refine safe_attempt hclaim (fun log r u hjob hu => ?_) hw
  cases r with
  | error e => exact fun _ _ => trivial
  | ok job =>
    obtain ⟨job', hmem, htenant⟩ := hjob job rfl
    refine safe_mono (safe_of_may ?_) (fun _ _ _ _ => trivial)
    exact only_bind (only_attempt (execute_may (fun T hT => ⟨job', hmem, hT.trans htenant⟩)))
      (fun _ => only_return _)

/-- Every program keeps to the tenant of the rows it reads, whatever the others do in between. -/
theorem body_safe (task : Task) (hw : Consistent w.db) : (rely env).safe (promise task).may (task.body env)
    (promise task).post [] w := by
  cases task with
  | worker value => exact worker_safe
  | engine batchSize => exact engine_safe hw
  | runner reconciler fuel => exact runner_safe hw
  | replay key => exact replay_safe hw
  | resolve tenant id body => exact resolve_safe hw
  | apply tenant id body => exact apply_safe hw

theorem stored_tenant {f stored : ReconciliationFinding}
    (h : (World.handle env (.store (.insertReconciliationFinding f)) w).1 = .ok stored) :
    stored.tenantID = f.tenantID := by
  rcases World.handle_store env w (.insertReconciliationFinding f) with ⟨text, _, hw⟩ | ⟨pick, _, hw⟩
  · rw [hw] at h
    cases h
  · rw [hw] at h
    have h : w.db.insertedFinding f = .ok stored := h
    unfold Database.insertedFinding at h
    split at h
    · split_ifs at h with htenant
      cases h
      exact htenant
    · cases h
      rfl

/-! ## Together -/

theorem safe_of_run {w0 : World} {acts : List (Act Task World)} {c : Pool sig GoError Task World}
    (hrun : Run (Pool.step (setup env)) (fun _ _ => True) ⟨[], w0⟩ acts c) (hempty : Consistent w0.db) :
    Pool.Safe (rely env) promise c := by
  refine Pool.safe_run rfl (fun s task hs _ => body_safe task hs) (fun w' s s' hs hmove => ?_)
    (Pool.permits_of_run hrun) (Pool.safe_nil hempty)
  rw [← Option.some.inj hmove]
  exact ⟨trivial, hs.retries, hs.letters⟩

/-- **Tenants are isolated.** What `Process` does for an event is decided by the rows of the event's tenant,
    and changes no row of another. In every reachable state the events in the queues carry their row's tenant;
    every event that was claimed was claimed for the message, retry row or job of its tenant; every row an
    operator queued has the tenant of the dead letter, conflict or finding it was queued for; and a runner's
    findings have its job's tenant. -/
theorem tenants_isolated (env : Env) : (∀ (T : String) (ev : Event) (w w' : World), ev.tenantID = T →
      Agree T w w' → trace (World.handle env) (process env ev) w'
      = trace (World.handle env) (process env ev) w ∧
      (run (World.handle env) (process env ev) w').1 = (run (World.handle env) (process env ev) w).1 ∧
      Agree T (run (World.handle env) (process env ev) w).2 (run (World.handle env) (process env ev) w').2 ∧
      ∀ T', T' ≠ T → (run (World.handle env) (process env ev) w).2.db.part T' = w.db.part T') ∧
    ∀ (w0 : World) (acts : List (Act Task World)) (c : Pool sig GoError Task World),
      Run (Pool.step (setup env)) (fun _ _ => True) ⟨[], w0⟩ acts c → Consistent w0.db →
      Consistent c.state.db ∧ ∀ t ∈ c.threads, ∀ e ∈ t.log, may t.task t.log e.op ∧
        ∀ f stored, e = ⟨.store (.insertReconciliationFinding f), .ok stored⟩ → stored.tenantID = f.tenantID := by
  constructor
  · intro T ev w w' hev hw
    obtain ⟨htrace, hresult, hstate⟩ := @process_agree env T w w' ev hev hw
    exact ⟨htrace, hresult, hstate, fun T' hne => process_part_other hev hne⟩
  · intro w0 acts c hrun hempty
    have hsafe := safe_of_run hrun hempty
    refine ⟨hsafe.inv, fun t ht e he => ?_⟩
    obtain ⟨pre, post, hlog⟩ := List.append_of_mem he
    obtain ⟨w, _, hmay, hanswer⟩ := hsafe.made t ht pre e post hlog
    constructor
    · rw [hlog]
      exact may_mono (List.subset_append_left _ _) hmay
    · rintro f stored rfl
      exact @stored_tenant env _ _ _ hanswer.symm

def shared (w : World) : World :=
  { w with
    db := { w.db with
      connections := w.db.connections ++ [⟨"t2", "salesforce", "http://other", ""⟩]
      syncOps := w.db.syncOps ++ [⟨"t2", "customer", "9", "salesforce", "hubspot", "e9", 1, ""⟩] } }

def failThenRetry : List (Act Task World) :=
  [.start (.worker (.marshal annCreated))] ++ List.replicate 7 (.fire 0) ++
    [.move { world [] with now := 60000000000 }, .start (.engine 10)] ++ List.replicate 8 (.fire 1)

theorem tenants_isolated_shared : (let w := world [Deployment.policy "salesforce" "hubspot"]
     trace (World.handle Deployment.env) (process Deployment.env annCreated) (shared w) =
       trace (World.handle Deployment.env) (process Deployment.env annCreated) w) ∧
    ∃ c, Run (Pool.step (setup Deployment.env)) (fun _ _ => True)
        ⟨[], { world [] with db := {} }⟩ failThenRetry c ∧
      c.threads.length = 2 ∧ Consistent c.state.db ∧ ∀ t ∈ c.threads, ∀ e ∈ t.log, may t.task t.log e.op := by
  obtain ⟨hprocess, hqueues⟩ := tenants_isolated Deployment.env
  constructor
  · intro w
    have hagree : Agree Deployment.tenant w (shared w) := ⟨(shared w).db, rfl, rfl⟩
    exact (hprocess Deployment.tenant annCreated w (shared w) rfl hagree).1
  · refine Transition.exists_run (b := fun _ _ => true) (f := fun c => decide (c.threads.length = 2))
      (by decide +kernel) (fun _ _ _ => trivial) (fun c hc hthreads => ?_)
    have hempty : Consistent {} := ⟨fun _ h => absurd h List.not_mem_nil, fun _ _ h => nomatch h⟩
    obtain ⟨hconsistent, hlogs⟩ := hqueues _ _ c hc hempty
    exact ⟨of_decide_eq_true hthreads, hconsistent, fun t ht e he => (hlogs t ht e he).1⟩

end SyncForge.Tenancy
