import SyncForge.Job.Exclusive

/-!
# `Job.Release` — a runner that is done leaves no job running

`execute` ends its job on every path but two, both of a reconciliation: the run cannot be read, or it is
finished already. The second is what a crash between the end of a run and the end of its job leaves behind;
from then on the job is taken up again and again. On these two nothing is written; on all others the job has
completed or failed when `execute` returns.
-/

namespace SyncForge.Job

open Effect Effect.Prog Store Transition
open Monitor (wp_mono wp_perform wp_seq)
open Deployment (sweepJob sweepOf tenant)

def Released (job : SyncJob) (db : Database) : Prop :=
  ∀ j ∈ db.jobs, j.id = job.id → j.tenantID = job.tenantID → j.status = .completed ∨ j.status = .failed

/-- `FinishSyncJob` succeeds. -/
def answers : (o : Call) → Except GoError o.Res → Bool
  | .store (.finishSyncJob _ _ _ _), .error _ => false
  | _, _ => true

def tellsOpen : Except GoError ReconciliationRun → Bool
  | .ok run => run.status ≠ .completed ∧ run.status ≠ .failed
  | .error e => e = .notFound

/-- What `Run` reads first is a run that is not finished yet, or that there is none. -/
def Open (env : Env) (job : SyncJob) (w : World) : Prop :=
  tellsOpen (World.handle env (.store (.getReconciliationRunByJobID job.id)) w).1 = true

instance (env : Env) (job : SyncJob) (w : World) : Decidable (Open env job w) :=
    inferInstanceAs (Decidable (_ = true))

abbrev watched (env : Env) : Monitor sig GoError World := answering (World.handle env) answers

variable {env : Env} {w : World} {job : SyncJob} {α β : Type} {goes : α → Prop}

def Frees (env : Env) (job : SyncJob) (goes : α → Prop) (p : Sync α) : Prop :=
  ∀ w, (watched env).wp p (fun w' r => (∃ a, r = .ok a ∧ goes a) ∨ Released job w'.db) w

abbrev FreesOrGoes (env : Env) (job : SyncJob) (p : Sync α) : Prop := Frees env job (fun _ => True) p

variable {p : Sync α}

theorem wp_any : (watched env).wp p (fun _ _ => True) w := wp_mono (wp_self w) (fun _ _ _ => trivial)

theorem frees_return {a : α} (h : goes a) : Frees env job goes (Pure.pure a) := fun _ => .inl ⟨a, rfl, h⟩

theorem frees_attempt : FreesOrGoes env job (attempt p) :=
  fun _ => (Monitor.wp_attempt p).mpr (wp_mono wp_any (fun _ r _ => .inl ⟨r, rfl, trivial⟩))

theorem frees_bind {p : Sync β} {f : β → Sync α} (hp : FreesOrGoes env job p)
    (hf : ∀ b, Frees env job goes (f b)) : Frees env job goes (p >>= f) := by
  refine fun w => wp_seq (hp w) (fun w' b _ => hf b w') (fun _ _ h => .inr ?_)
  exact h.resolve_left (fun ⟨_, hok, _⟩ => nomatch hok)

theorem frees_try (s : StoreOp) : FreesOrGoes env job (tryStmt s) :=
    frees_bind frees_attempt (fun _ => frees_return trivial)

theorem frees_now : FreesOrGoes env job (perform (S := sig) .timeNow) :=
  fun _ => (wp_perform _).mpr ⟨trivial, by rintro r ⟨rfl, -⟩; exact .inl ⟨_, rfl, trivial⟩⟩

/-! ## The end of a job -/

theorem finish_releases {status : JobStatus} (hstatus : status = .completed ∨ status = .failed)
    (error : Option String) : (watched env).wp (stmt (.finishSyncJob job.id job.tenantID status error))
    (fun w' _ => Released job w'.db) w := by
  refine (wp_perform _).mpr ⟨trivial, ?_⟩
  rintro r ⟨rfl, hanswer⟩
  show Released job (World.handle env (.store (.finishSyncJob job.id job.tenantID status error)) w).2.db
  rcases World.handle_store env w (.finishSyncJob job.id job.tenantID status error) with ⟨text, _, h⟩ |
    ⟨pick, _, h⟩
  · rw [h] at hanswer
    cases hanswer
  · rw [h]
    intro j hj hid htenant
    obtain ⟨j', hj', rfl⟩ := List.mem_map.mp hj
    split_ifs at hid htenant ⊢ with hmatch
    · exact hstatus
    · exact absurd ⟨hid, htenant⟩ hmatch

theorem frees_finish : Frees env job (fun _ => False)
    (stmt (.finishSyncJob job.id job.tenantID .completed none)) :=
  fun _ => wp_mono (finish_releases (.inl rfl) _) (fun _ _ h => .inr h)

theorem frees_then {p : Sync β} (hp : Frees env job (fun _ => False) p) (a : α) :
    Frees env job goes (do let _ ← p; Pure.pure a) := by
  intro w
  have hover : (watched env).wp p (fun w' _ => Released job w'.db) w :=
    wp_mono (hp w) (fun _ _ h => h.resolve_left (fun ⟨_, _, hno⟩ => hno))
  exact wp_seq hover (fun _ _ h => .inr h) (fun _ _ h => .inr h)

theorem frees_fail (cause : GoError) : Frees env job goes (do
    tryStmt (.finishSyncJob job.id job.tenantID .failed (some cause.error))
    .throw cause) := by
  intro w
  have hfinish : (watched env).wp (tryStmt (.finishSyncJob job.id job.tenantID .failed (some cause.error)))
      (fun w' r => r = .ok () ∧ Released job w'.db) w :=
    Monitor.wp_seq_attempt (finish_releases (.inr rfl) _) (fun _ _ h => ⟨rfl, h⟩)
  exact wp_seq hfinish (fun _ _ h => .inr h.2) (fun _ _ h => nomatch h.1)

theorem frees_abort (cause : GoError) : Frees env job goes (abort job cause) := frees_fail cause

theorem frees_reconcile_abort (cause : GoError) : Frees env job goes (Reconcile.abort job cause) := by
  refine frees_bind frees_attempt (fun run => ?_)
  cases run with
  | error e => exact frees_fail cause
  | ok run => exact frees_bind (frees_try _) (fun _ => frees_fail cause)

theorem frees_orAbort : FreesOrGoes env job (orAbort job p) :=
  frees_bind frees_attempt (fun r => match r with | .ok _ => frees_return trivial | .error e => frees_abort e)

theorem frees_reconcile_orAbort : FreesOrGoes env job (Reconcile.orAbort job p) :=
  frees_bind frees_attempt (fun r => match r with | .ok _ => frees_return trivial | .error e => frees_reconcile_abort e)

/-! ## A full sync -/

variable {rec : ProviderRecord}

theorem frees_applyRecord {src : Remote} {counts : Int × Int} :
    FreesOrGoes env job (applyRecord env job src rec counts) := by
  unfold applyRecord
  split_ifs
  · exact frees_return trivial
  · cases src.adapter.validate rec with
    | error e => exact frees_bind (frees_try _) (fun _ => frees_return trivial)
    | ok _ =>
      refine frees_bind frees_now (fun now => frees_bind frees_attempt (fun r => ?_))
      cases r <;> exact frees_return trivial

theorem frees_applyPage {src : Remote} (recs : List ProviderRecord) :
    ∀ counts, FreesOrGoes env job (applyPage env job src recs counts) := by
  induction recs with
  | nil => exact fun _ => frees_return trivial
  | cons rec recs ih => exact fun counts => frees_bind frees_applyRecord (fun counts => ih counts)

theorem frees_walk {src : Remote} {total : Int} (fuel : Nat) :
    ∀ cursor counts, Frees env job (· = false) (walk env job src total fuel cursor counts) := by
  induction fuel with
  | zero => exact fun _ _ => frees_return rfl
  | succ fuel ih =>
    intro cursor counts
    refine frees_bind frees_orAbort (fun page => frees_bind (frees_applyPage _ _) (fun counts => ?_))
    refine frees_bind frees_orAbort (fun _ => ?_)
    split_ifs
    · exact frees_then frees_finish true
    · exact ih _ _

theorem frees_fullSync {fuel : Nat} : Frees env job (· = false) (fullSync env fuel job) := by
  refine frees_bind frees_orAbort (fun srcConn => frees_bind frees_orAbort (fun src => ?_))
  refine frees_bind frees_orAbort (fun dstConn =>
    frees_bind frees_orAbort (fun _ => frees_bind frees_attempt (fun health => ?_)))
  cases health <;> exact frees_walk fuel _ _

/-! ## A reconciliation -/

variable {s : Reconcile.Sweep}

theorem frees_compare {canonical : Option CanonicalRecord} {p : Reconcile.Progress} :
    FreesOrGoes env job (s.compare env rec canonical p) := by
  simp only [Reconcile.Sweep.compare]
  cases Reconcile.classify canonical _ with
  | none => exact frees_return trivial
  | some kind =>
    refine frees_bind frees_attempt (fun r => ?_)
    cases r <;> exact frees_return trivial

theorem frees_sweepRecord {p : Reconcile.Progress} : FreesOrGoes env s.job (s.sweepRecord env rec p) := by
  unfold Reconcile.Sweep.sweepRecord
  split_ifs
  · exact frees_return trivial
  · cases s.src.adapter.validate rec with
    | error e => exact frees_return trivial
    | ok _ =>
      refine frees_bind frees_attempt (fun found => ?_)
      split
      · exact frees_compare
      · exact frees_compare
      · exact frees_reconcile_abort _

theorem frees_sweepPage (recs : List ProviderRecord) :
    ∀ p, FreesOrGoes env s.job (s.sweepPage env recs p) := by
  induction recs with
  | nil => exact fun _ => frees_return trivial
  | cons rec recs ih => exact fun _ => frees_bind frees_sweepRecord (fun p => ih p)

theorem frees_sweep_walk (fuel : Nat) : ∀ cursor p, FreesOrGoes env s.job (s.walk env fuel cursor p) := by
  induction fuel with
  | zero => exact fun _ _ => frees_return trivial
  | succ fuel ih =>
    intro cursor p
    refine frees_bind frees_reconcile_orAbort (fun page => frees_bind (frees_sweepPage _ _) (fun p => ?_))
    refine frees_bind frees_reconcile_orAbort (fun _ => ?_)
    split_ifs
    · exact frees_return trivial
    · exact ih _ _

theorem frees_sweepMissing {seen : List String} (cs : List CanonicalRecord) :
    FreesOrGoes env job (s.sweepMissing env seen cs) := by
  induction cs with
  | nil => exact frees_return trivial
  | cons c cs ih =>
    unfold Reconcile.Sweep.sweepMissing
    split_ifs
    · exact ih
    · exact frees_bind frees_attempt (fun _ => ih)

theorem frees_end {total : Int} : Frees env s.job (fun _ => False) (s.finish total) :=
  frees_bind frees_reconcile_orAbort (fun _ => frees_bind frees_reconcile_orAbort (fun _ =>
    frees_bind frees_reconcile_orAbort (fun _ => frees_finish)))

theorem frees_sweep {fuel : Nat} : Frees env s.job (· = false) (s.sweep env fuel) := by
  refine frees_bind (frees_sweep_walk fuel _ _) (fun r => ?_)
  cases r with
  | none => exact frees_return rfl
  | some p =>
    refine frees_bind frees_reconcile_orAbort
      (fun canonicals => frees_bind (frees_sweepMissing _) (fun _ => ?_))
    exact frees_then frees_end true

/-- A sweep whose run is open releases its job, unless it answers that there is none. -/
theorem frees_run {fuel : Nat} (hopen : Open env job w) :
    (watched env).wp (Reconcile.run env fuel job) (fun w' r => (∃ a, r = .ok a ∧ a = false) ∨
      Released job w'.db) w := by
  refine Monitor.wp_seq_attempt ((wp_perform _).mpr ⟨trivial, ?_⟩) (fun w' r h => h)
  rintro r ⟨hr, -⟩
  unfold Open at hopen
  rw [← hr] at hopen
  match r with
  | .error e =>
    obtain rfl : e = .notFound := of_decide_eq_true hopen
    exact frees_reconcile_abort _ _
  | .ok run =>
    obtain ⟨hcompleted, hfailed⟩ : run.status ≠ .completed ∧ run.status ≠ .failed := of_decide_eq_true hopen
    simp only [hcompleted, hfailed, or_self, if_false]
    refine frees_bind frees_reconcile_orAbort
      (fun conn => frees_bind frees_reconcile_orAbort (fun src => ?_)) _
    exact frees_bind frees_reconcile_orAbort (fun policies => frees_sweep)

/-- The two paths on which `Run` gives up at once and changes nothing. -/
theorem run_gives_up {fuel : Nat} (hclosed : ¬ Open env job w) :
    (watched env).wp (Reconcile.run env fuel job) (fun w' _ => w'.db = w.db) w := by
  have hread : (World.handle env (.store (.getReconciliationRunByJobID job.id)) w).2.db = w.db := by
    rcases World.handle_store env w (.getReconciliationRunByJobID job.id) with ⟨_, _, h⟩ |
      ⟨_, _, h⟩ <;> rw [h] <;> rfl
  refine Monitor.wp_seq_attempt ((wp_perform _).mpr ⟨trivial, ?_⟩) (fun w' r h => h)
  rintro r ⟨hr, -⟩
  unfold Open at hclosed
  rw [← hr] at hclosed
  match r with
  | .error e =>
    cases e with
    | notFound => exact absurd rfl hclosed
    | _ => exact hread
  | .ok run =>
    have hfinished : run.status = .completed ∨ run.status = .failed := by
      by_contra hno
      exact hclosed (decide_eq_true (not_or.mp hno))
    simp only [hfinished, if_true]
    exact hread

/-! ## Any job -/

/-- **A job is released by its execution** exactly if it is a full sync, or what `Run` reads first is not a
    finished run and not an error, whatever else fails and however often the job was taken up before.
    `FinishSyncJob` is taken to succeed, the job to be running when `execute` starts, and `execute` to
    return. -/
theorem execute_releases {reconciler : Bool} {fuel : Nat} {w : World}
    (hanswers : meets (World.handle env) answers (execute env reconciler fuel job) w = true)
    (hrunning : ∃ j ∈ w.db.jobs, j.id = job.id ∧ j.tenantID = job.tenantID ∧ j.status = .running)
    (hreturns : (run (World.handle env) (execute env reconciler fuel job) w).1 ≠ .ok false) :
    Released job (run (World.handle env) (execute env reconciler fuel job) w).2.db ↔
      (job.type = .reconcile → reconciler = true → Open env job w) := by
  constructor
  · intro hreleased htype hreconciler
    by_contra hclosed
    have hwp : (watched env).wp (execute env reconciler fuel job) (fun w' _ => w'.db = w.db) w := by
      unfold execute
      rw [if_pos htype, if_pos hreconciler]
      exact run_gives_up hclosed
    rw [run_of_wp hwp hanswers] at hreleased
    obtain ⟨j, hj, hid, htenant, hstatus⟩ := hrunning
    rcases hreleased j hj hid htenant with h | h <;> cases hstatus.symm.trans h
  · intro hopen
    have hwp : (watched env).wp (execute env reconciler fuel job)
        (fun w' r => (∃ a, r = .ok a ∧ a = false) ∨ Released job w'.db) w := by
      unfold execute
      split_ifs with htype hreconciler
      · exact frees_run (hopen htype hreconciler)
      · exact frees_abort _ _
      · exact frees_fullSync _
    exact (run_of_wp hwp hanswers).resolve_left (fun ⟨_, hfalse, h⟩ => hreturns (h ▸ hfalse))

/-! ## A run that ended without its job -/

def sweeping : Machine :=
  let m := office { sweepJob with startedAt := some 0 } 100000000000
  { m with world := { m.world with db := { m.world.db with runs := [sweepOf .manual] } } }

theorem execute_releases_sweep : Released sweepJob
    (run (World.handle Deployment.env) (execute Deployment.env true 5 sweepJob) sweeping.world).2.db := by
  exact (execute_releases (by decide +kernel) ⟨_, .head _, by decide +kernel⟩ (by decide +kernel)).mpr
    (fun _ _ => by decide +kernel)

def stuck (c : Runners) : Bool :=
  (∃ t ∈ c.threads[1]?, t.done = true ∧ took t.log "j1" tenant = true ∧ t.log.all (fun e => e.answer.isOk)) ∧
    ∃ j ∈ c.state.world.db.jobs.find? (Database.runnable c.state.world.now), j.id = "j1" ∧ j.status = .running

/-- **A run that is not released**: a runner crashes in the sweep; the next one finishes the job, none of its
    calls having failed, and the run keeps it runnable. -/
theorem job_stuck : ∃ c, Run (Pool.step annRunners) (fun _ _ => True) ⟨[], sweeping⟩
    (.start 5 :: List.replicate 12 (.fire 0) ++ .move (.crash 0) :: .start 5 :: List.replicate 4 (.fire 1)) c
    ∧ stuck c = true := by
  refine exists_run (b := fun _ _ => true) (f := stuck) (by decide +kernel) (fun _ _ _ => trivial)
    (fun _ _ htest => htest)

end SyncForge.Job
