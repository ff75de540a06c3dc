import SyncForge.Deployment
import SyncForge.Effect.Pool
import SyncForge.Job.Calls

/-!
# `Job.Exclusive` — one runner for a job

`ClaimNextSyncJob` looks for a job in one statement and takes it in another, so two runners can be given the
same job; and a running job can be taken over a minute after its *first* start, whether its runner is alive or
not. Under `Orderly` neither happens. A runner that crashed is `down`.
-/

namespace SyncForge.Job

open Effect
open Effect.Prog
open Transition Store
open Deployment (tenant world)

/-! ## The system -/

structure Machine where
  world : World
  down : List Nat := []

inductive Move where
  | crash (i : Nat)
  | change (w : World)

def fresh (jobs : List SyncJob) (j : SyncJob) :
    Bool := jobs.all (fun j' => ¬ (j'.id = j.id ∧ j'.tenantID = j.tenantID))

def Machine.move : Move → Machine → Option Machine
  | .crash i, m => some { m with down := i :: m.down }
  | .change w, m =>
    if w.db.jobs.all (fresh m.world.db.jobs) then
      some { m with world := { w with db := { w.db with jobs := m.world.db.jobs ++ w.db.jobs } } }
    else none

def Machine.handle (env : Env) : Prog.Handler sig GoError Machine := fun o m =>
  ((World.handle env o m.world).1, { m with world := (World.handle env o m.world).2 })

def runners (env : Env) (reconciler : Bool) : Pool.Setup sig GoError Nat Machine Move where
  handle := Machine.handle env
  body := tick env reconciler
  move := Machine.move

abbrev Runners := Pool sig GoError Nat Machine
abbrev Runner := Thread sig GoError Nat
abbrev Log := List (Entry sig GoError)

/-- Runner `i` has not crashed. -/
def Live (c : Runners) (i : Nat) (t : Runner) : Prop := c.threads[i]? = some t ∧ i ∉ c.state.down

def Claims (t : Runner) (id tenant : String) : Prop := t.next? = some (.store (.startSyncJob id tenant))

def Took (log : Log) (id tenant : String) :
    Prop := (⟨.store (.startSyncJob id tenant), .ok ()⟩ : Entry sig GoError) ∈ log

def Executes (t : Runner) (id tenant : String) : Prop := t.done = false ∧ Took t.log id tenant

def Recent (w : World) (id tenant : String) : Prop :=
  ∀ j ∈ w.db.jobs, j.id = id → j.tenantID = tenant → j.status = .running →
    ∀ at_ ∈ j.startedAt, w.now - 60000000000 ≤ at_

/-- A runner makes calls only while it is up. It looks for a job only if no other runner is about to take one,
    and every job that is being executed was started in the last minute. -/
structure Orderly (c : Runners) (a : Effect.Act Nat Move) : Prop where
  up : ∀ i, a = .fire i → i ∉ c.state.down
  alone : ∀ i t, a = .fire i → c.threads[i]? = some t → t.next? = some (.store .nextSyncJob) →
    ∀ j u id tenant, Live c j u → ¬ Claims u id tenant
  recent : ∀ i t, a = .fire i → c.threads[i]? = some t → t.next? = some (.store .nextSyncJob) →
    ∀ j u id tenant, Live c j u → Executes u id tenant → Recent c.state.world id tenant

/-! ## What a runner does -/

def executing : Call → Prop
  | .store .nextSyncJob | .store (.startSyncJob _ _) => False
  | .store (.finishSyncJob _ _ status _) => status = .completed ∨ status = .failed
  | _ => True

def may (log : Log) : Call → Prop
  | .store .nextSyncJob => log = []
  | .store (.startSyncJob id tenant) =>
    ∃ job : SyncJob, log = [⟨.store .nextSyncJob, .ok job⟩] ∧ id = job.id ∧ tenant = job.tenantID
  | o => log ≠ [] ∧ executing o

def promise : Promise sig GoError Machine Unit := ⟨fun log o _ => may log o, fun _ _ _ => True⟩

variable {env : Env} {reconciler : Bool} {m : Machine} {fuel : Nat} {log : Log} {c : Runners}

theorem executing_of_isOwn {o : Call} (ho : o.isOwn = true) : executing o := by
  cases o with
  | store s =>
    cases s with
    | finishSyncJob id tenant status error =>
      show status = .completed ∨ status = .failed
      simpa [Call.isOwn] using ho
    | nextSyncJob => cases ho
    | startSyncJob => cases ho
    | _ => trivial
  | _ => trivial

theorem process_executing {ev : Event} : Only executing (process env ev) := by
  refine Prog.only_mono process_only (fun o ho => ?_)
  cases o with
  | store s => cases s <;> trivial
  | _ => trivial

theorem execute_executing {job : SyncJob} : Only executing (execute env reconciler fuel job) := by
  unfold execute
  split_ifs
  · refine Reconcile.run_only (fun _ => executing_of_isOwn) (fun run entityType kind providerID version canonical fields policy => ?_)
    exact Reconcile.record_only trivial (fun _ _ => trivial) trivial (fun _ _ => process_executing)
  · exact abort_only (fun _ => executing_of_isOwn)
  · exact fullSync_only (fun _ _ => only_tryStmt trivial) trivial (fun _ _ _ => process_executing) (fun _ => executing_of_isOwn)
      (fun _ => trivial)

abbrev free (env : Env) : Rely sig GoError Machine := Rely.free (Machine.handle env)

theorem executing_safe {α : Type} {p : Sync α} (hp : Only executing p) (hlog : 2 ≤ log.length) :
    (free env).safe (fun log o _ => may log o) p (fun log _ _ => 2 ≤ log.length) log m := by
  refine Rely.safe_of_only (I := fun log _ => 2 ≤ log.length) hp (fun _ _ _ h _ => h) ?_ hlog
  intro log o t ho _ _ hlen
  refine ⟨?_, Rely.free_keeps, by rw [List.length_append]; exact Nat.le_add_right_of_le hlen⟩
  have hne : log ≠ [] := by
    rintro rfl
    cases hlen
  cases o with
  | store s =>
    cases s with
    | nextSyncJob => cases ho
    | startSyncJob => cases ho
    | _ => exact ⟨hne, ho⟩
  | _ => exact ⟨hne, ho⟩

/-- A tick claims a job before it executes it. -/
theorem tick_safe : (free env).safe promise.may (tick env reconciler fuel) promise.post [] m := by
  have hnext : (free env).safe promise.may (stmt .nextSyncJob)
      (fun log r _ => log = [(⟨.store .nextSyncJob, r⟩ : Entry sig GoError)]) [] m :=
    Rely.safe_perform (fun _ _ _ => ⟨rfl, Rely.free_keeps, fun _ _ => rfl⟩)
  have hclaim : (free env).safe promise.may claimNextSyncJob (fun log r _ => ∀ job, r = .ok job →
    2 ≤ log.length) [] m := by
    refine Rely.safe_bind hnext (fun log job t hlog _ => ?_) (fun _ _ _ _ _ he => nomatch he) trivial
    have hstart : (free env).safe promise.may (stmt (.startSyncJob job.id job.tenantID))
      (fun log _ _ => 2 ≤ log.length) log t := by
      have hmay : may log (.store (.startSyncJob job.id job.tenantID)) := ⟨job, hlog, rfl, rfl⟩
      refine Rely.safe_perform (fun _ _ _ => ⟨hmay, Rely.free_keeps, fun _ _ => ?_⟩)
      rw [hlog, List.length_append]
      exact Nat.le_refl 2
    refine Rely.safe_bind hstart (fun log _ t hlen _ => ?_) (fun _ _ _ hlen _ _ => hlen) trivial
    refine Rely.safe_bind (executing_safe (only_perform trivial) hlen) (fun log _ t hlen _ => ?_)
      (fun _ _ _ hlen _ _ => hlen) trivial
    exact Rely.safe_return (fun _ _ _ _ => hlen)
  refine Rely.safe_attempt hclaim (fun log r t hlen _ => ?_) trivial
  cases r with
  | error e => exact fun _ _ => trivial
  | ok job =>
    have hexecute : Only executing (do
        let _ ← attempt (execute env reconciler fuel job)
        return ()) := only_bind (only_attempt execute_executing) (fun _ => only_return _)
    exact Rely.safe_mono (executing_safe hexecute (hlen job rfl)) (fun _ _ _ _ => trivial)

/-! ## Who has which job -/

def Taken (w : World) (id tenant : String) : Prop :=
  ∀ j ∈ w.db.jobs, j.id = id → j.tenantID = tenant → j.status ≠ .pending ∧ j.status ≠ .paused

def Known (w : World) (id tenant : String) : Prop := ∃ j ∈ w.db.jobs, j.id = id ∧ j.tenantID = tenant

structure Inv (c : Runners) : Prop where
  oneClaim : ∀ i j t u id id' tenant tenant', Live c i t → Live c j u → Claims t id tenant →
    Claims u id' tenant' → i = j
  apart : ∀ i j t u id tenant, Live c i t → Live c j u → Claims t id tenant → ¬ Executes u id tenant
  oneRunner : ∀ i j t u id tenant, Live c i t → Live c j u → Executes t id tenant →
    Executes u id tenant → i = j
  taken : ∀ i t id tenant, Live c i t → Executes t id tenant → Taken c.state.world id tenant
  known : ∀ i t id tenant, Live c i t → Claims t id tenant ∨ Executes t id tenant →
    Known c.state.world id tenant

abbrev Promised (env : Env) (c : Runners) : Prop := Pool.Safe (free env) (fun _ => promise) c

section Jobs

variable {w : World} {o : Call} {id tenant : String}

theorem handle_jobs (ho : ∀ id tenant status error, o = .store (.finishSyncJob id tenant status error) →
      status = .completed ∨ status = .failed) :
    ∃ f : SyncJob → SyncJob, (World.handle env o w).2.db.jobs = w.db.jobs.map f ∧
      ∀ j, (f j).id = j.id ∧ (f j).tenantID = j.tenantID ∧ ((f j).status = j.status ∨ (f j).status ≠ .pending ∧ (f j).status ≠ .paused) := by
  have hsame : ∀ jobs : List SyncJob, jobs = w.db.jobs → ∃ f : SyncJob → SyncJob, jobs = w.db.jobs.map f ∧
      ∀ j, (f j).id = j.id ∧ (f j).tenantID = j.tenantID ∧
        ((f j).status = j.status ∨ (f j).status ≠ .pending ∧ (f j).status ≠ .paused) :=
    fun jobs hjobs => ⟨fun j => j, by rw [hjobs, List.map_id'], fun _ => ⟨rfl, rfl, .inl rfl⟩⟩
  -- an update of some rows
  have hupdate : ∀ (p : SyncJob → Prop) [DecidablePred p] (g : SyncJob → SyncJob),
    (∀ j, (g j).id = j.id ∧ (g j).tenantID = j.tenantID ∧
      ((g j).status = j.status ∨ (g j).status ≠ .pending ∧ (g j).status ≠ .paused)) →
      ∃ f : SyncJob → SyncJob, w.db.jobs.map (fun j => if p j then g j else j) = w.db.jobs.map f ∧
        ∀ j, (f j).id = j.id ∧ (f j).tenantID = j.tenantID ∧
          ((f j).status = j.status ∨ (f j).status ≠ .pending ∧ (f j).status ≠ .paused) := by
    intro p _ g hg
    refine ⟨_, rfl, fun j => ?_⟩
    split_ifs
    · exact hg j
    · exact ⟨rfl, rfl, .inl rfl⟩
  rcases @World.handle_db env w o with hdb | ⟨s, pick, rfl, _, hdb⟩
  · exact hsame _ (by rw [hdb])
  · rw [hdb]
    cases s with
    | startSyncJob id tenant => exact hupdate _ _ (fun j => ⟨rfl, rfl, .inr ⟨nofun, nofun⟩⟩)
    | updateSyncJobProgress id tenant cursor processed failed total => exact hupdate _ _ (fun j => ⟨rfl, rfl, .inl rfl⟩)
    | finishSyncJob id tenant status error =>
      refine hupdate _ _ (fun j => ⟨rfl, rfl, .inr ?_⟩)
      rcases ho id tenant status error rfl with rfl | rfl
      · exact ⟨nofun, nofun⟩
      · exact ⟨nofun, nofun⟩
    | _ => exact hsame _ rfl

def Kept (w w' : World) : Prop :=
  ∀ id tenant, Known w id tenant → Known w' id tenant ∧ (Taken w id tenant → Taken w' id tenant)

theorem handle_kept (ho : ∀ id tenant status error, o = .store (.finishSyncJob id tenant status error) →
      status = .completed ∨ status = .failed) : Kept w (World.handle env o w).2 := by
  obtain ⟨f, hjobs, hf⟩ := @handle_jobs env w o ho
  intro id tenant hknown
  refine ⟨?_, fun htaken j' hj' hid htenant => ?_⟩
  · obtain ⟨j, hj, hid, htenant⟩ := hknown
    refine ⟨f j, ?_, (hf j).1.trans hid, (hf j).2.1.trans htenant⟩
    rw [hjobs]
    exact List.mem_map_of_mem hj
  · rw [hjobs] at hj'
    obtain ⟨j, hj, rfl⟩ := List.mem_map.mp hj'
    rcases (hf j).2.2 with hstatus | hstatus
    · rw [hstatus]
      exact htaken j hj ((hf j).1.symm.trans hid) ((hf j).2.1.symm.trans htenant)
    · exact hstatus

theorem kept_append {w' : World} {new : List SyncJob} (hnew : new.all (fresh w.db.jobs) = true)
    (hjobs : w'.db.jobs = w.db.jobs ++ new) : Kept w w' := by
  intro id tenant hknown
  obtain ⟨j, hj, hid, htenant⟩ := hknown
  refine ⟨⟨j, by rw [hjobs]; exact List.mem_append_left _ hj, hid, htenant⟩,
    fun htaken j' hj' hid' htenant' => ?_⟩
  rw [hjobs] at hj'
  rcases List.mem_append.mp hj' with hj' | hj'
  · exact htaken j' hj' hid' htenant'
  · have hfresh := List.all_eq_true.mp (List.all_eq_true.mp hnew j' hj') j hj
    exact absurd ⟨hid.trans hid'.symm, htenant.trans htenant'.symm⟩ (of_decide_eq_true hfresh)

end Jobs

section Steps

variable {c c' : Runners}

theorem may_next (h : Promised env c) {i : Nat} {t : Runner} {o : Call} (hi : c.threads[i]? = some t)
    (ho : t.next? = some o) : may t.log o := by
  obtain ⟨k, hprog⟩ := Thread.call_of_next ho
  exact h.may_next (List.mem_of_getElem? hi) hprog

theorem Inv.frame (h : Inv c) (hkept : Kept c.state.world c'.state.world)
    (hclaims : ∀ i t' id tenant, Live c' i t' → Claims t' id tenant → ∃ t, Live c i t ∧ Claims t id tenant)
    (hexecutes : ∀ i t' id tenant, Live c' i t' → Executes t' id tenant → ∃ t, Live c i t ∧
      Executes t id tenant) : Inv c' where
  oneClaim i j t u id id' tenant tenant' ht hu hct hcu := by
    obtain ⟨t0, ht0, hct0⟩ := hclaims i t id tenant ht hct
    obtain ⟨u0, hu0, hcu0⟩ := hclaims j u id' tenant' hu hcu
    exact h.oneClaim i j t0 u0 id id' tenant tenant' ht0 hu0 hct0 hcu0
  apart i j t u id tenant ht hu hct heu := by
    obtain ⟨t0, ht0, hct0⟩ := hclaims i t id tenant ht hct
    obtain ⟨u0, hu0, heu0⟩ := hexecutes j u id tenant hu heu
    exact h.apart i j t0 u0 id tenant ht0 hu0 hct0 heu0
  oneRunner i j t u id tenant ht hu het heu := by
    obtain ⟨t0, ht0, het0⟩ := hexecutes i t id tenant ht het
    obtain ⟨u0, hu0, heu0⟩ := hexecutes j u id tenant hu heu
    exact h.oneRunner i j t0 u0 id tenant ht0 hu0 het0 heu0
  taken i t id tenant ht het := by
    obtain ⟨t0, ht0, het0⟩ := hexecutes i t id tenant ht het
    exact (hkept id tenant (h.known i t0 id tenant ht0 (.inr het0))).2 (h.taken i t0 id tenant ht0 het0)
  known i t id tenant ht hhas := by
    rcases hhas with hct | het
    · obtain ⟨t0, ht0, hct0⟩ := hclaims i t id tenant ht hct
      exact (hkept id tenant (h.known i t0 id tenant ht0 (.inl hct0))).1
    · obtain ⟨t0, ht0, het0⟩ := hexecutes i t id tenant ht het
      exact (hkept id tenant (h.known i t0 id tenant ht0 (.inr het0))).1

def called (env : Env) (w : World) (t : Runner) (o : Call) (k : Except GoError (sig.Res o) → Sync Unit) :
    Runner :=
  ⟨t.task, t.log ++ [⟨o, (World.handle env o w).1⟩], k (World.handle env o w).1⟩

/-- All of them after runner `i` made its call. -/
def fire (env : Env) (c : Runners) (i : Nat) (t : Runner) (o : Call)
    (k : Except GoError (sig.Res o) → Sync Unit) : Runners :=
  ⟨c.threads.set i (called env c.state.world t o k), (Machine.handle env o c.state).2⟩

section Fire

variable {i : Nat} {t : Runner} {o : Call} {k : Except GoError (sig.Res o) → Sync Unit} {id tenant : String}
  {job : SyncJob}

theorem live_fire {j : Nat} {u : Runner} (h : Live (fire env c i t o k) j u) :
    (j = i ∧ u = called env c.state.world t o k) ∨ j ≠ i ∧ Live c j u := by
  obtain ⟨hj, hup⟩ := h
  by_cases hji : j = i
  · subst hji
    refine .inl ⟨rfl, ?_⟩
    have hlt : j < c.threads.length := by
      have hlt := (List.getElem?_eq_some_iff.mp hj).1
      rwa [fire, List.length_set] at hlt
    rw [fire, List.getElem?_set_self hlt] at hj
    exact (Option.some.inj hj).symm
  · refine .inr ⟨hji, ?_, hup⟩
    rwa [fire, List.getElem?_set_ne (Ne.symm hji)] at hj

theorem took_called (h : Took (called env c.state.world t o k).log id tenant) :
    Took t.log id tenant ∨ o = .store (.startSyncJob id tenant) ∧
      (⟨o, (World.handle env o c.state.world).1⟩ : Entry sig GoError)
      = ⟨.store (.startSyncJob id tenant), .ok ()⟩ := by
  rcases List.mem_append.mp h with h | h
  · exact .inl h
  · have he := List.mem_singleton.mp h
    exact .inr ⟨(congrArg Entry.op he).symm, he.symm⟩

theorem executes_of_called (hprog : t.prog = .call o k)
    (ho : ∀ id tenant, o ≠ .store (.startSyncJob id tenant))
    (h : Executes (called env c.state.world t o k) id tenant) : Executes t id tenant := by
  rcases took_called h.2 with htook | ⟨hstart, _⟩
  · exact ⟨Thread.not_done hprog, htook⟩
  · exact absurd hstart (ho id tenant)

theorem given_runnable {w : World} (ho : o = .store .nextSyncJob) (hlog : t.log = [])
    (hgiven : (called env w t o k).log = [⟨.store .nextSyncJob, .ok job⟩]) :
    job ∈ w.db.jobs ∧ Database.runnable w.now job = true := by
  subst ho
  rw [called, hlog, List.nil_append] at hgiven
  have hanswer : (World.handle env (.store .nextSyncJob) w).1 = .ok job := by
    have he := List.head_eq_of_cons_eq hgiven
    injection he
  rcases World.handle_store env w .nextSyncJob with ⟨text, _, hread⟩ | ⟨pick, _, hread⟩
  · rw [hread] at hanswer
    cases hanswer
  · rw [hread] at hanswer
    have hfind : w.db.jobs.find? (Database.runnable w.now) = some job := Database.rowOrNotFound_ok hanswer
    exact ⟨List.mem_of_find?_eq_some hfind, List.find?_some hfind⟩

theorem not_runnable {now : Time} {j : SyncJob} (htaken : j.status ≠ .pending ∧ j.status ≠ .paused)
    (hrecent : j.status = .running → ∀ at_ ∈ j.startedAt, now - 60000000000 ≤ at_) :
    ¬ Database.runnable now j = true := by
  intro hrunnable
  unfold Database.runnable at hrunnable
  split at hrunnable
  · exact htaken.1 ‹_›
  · exact htaken.2 ‹_›
  · rename_i hrunning
    cases hstarted : j.startedAt with
    | none =>
      rw [hstarted] at hrunnable
      cases hrunnable
    | some at_ =>
      rw [hstarted] at hrunnable
      have hsince := hrecent hrunning at_ hstarted
      have hlong : at_ < now - 60000000000 := of_decide_eq_true hrunnable
      exact absurd hlong (not_lt.mpr hsince)
  · cases hrunnable

variable (hsafe : Promised env (fire env c i t o k)) (hinv : Inv c) (hi : c.threads[i]? = some t)
  (hup : i ∉ c.state.down) (hprog : t.prog = .call o k)

include hsafe hi in
theorem log_of_claims (h : Claims (called env c.state.world t o k) id tenant) :
    ∃ job : SyncJob, (called env c.state.world t o k).log = [⟨.store .nextSyncJob, .ok job⟩] ∧ id = job.id ∧
    tenant = job.tenantID := by
  have hlt : i < c.threads.length := (List.getElem?_eq_some_iff.mp hi).1
  refine may_next (i := i) hsafe ?_ h
  rw [fire, List.getElem?_set_self hlt]

include hsafe hi in
theorem not_claims (hlog : t.log ≠ []) : ¬ Claims (called env c.state.world t o k) id tenant := by
  intro hclaims
  obtain ⟨job, hsingle, _⟩ := log_of_claims hsafe hi hclaims
  have hlen := congrArg List.length hsingle
  rw [called, List.length_append] at hlen
  have hpos := List.length_pos_of_ne_nil hlog
  simp only [List.length_singleton] at hlen
  omega

include hsafe hinv hi hup hprog

theorem inv_executing (hmay : executing o) (hlog : t.log ≠ []) : Inv (fire env c i t o k) := by
  have hstart : ∀ id tenant, o ≠ .store (.startSyncJob id tenant) := by
    rintro id tenant rfl
    exact hmay
  have hkept : Kept c.state.world (World.handle env o c.state.world).2 := by
    refine handle_kept ?_
    rintro id tenant status error rfl
    exact hmay
  refine hinv.frame hkept (fun j u id tenant hu hclaims => ?_) (fun j u id tenant hu hexecutes => ?_)
  · rcases live_fire hu with ⟨rfl, rfl⟩ | ⟨_, hu⟩
    · exact absurd hclaims (not_claims hsafe hi hlog)
    · exact ⟨u, hu, hclaims⟩
  · rcases live_fire hu with ⟨rfl, rfl⟩ | ⟨_, hu⟩
    · exact ⟨t, ⟨hi, hup⟩, executes_of_called hprog hstart hexecutes⟩
    · exact ⟨u, hu, hexecutes⟩

/-- **A job is looked for.** The job that is found is not being executed. -/
theorem inv_next (ho : o = .store .nextSyncJob) (hlog : t.log = [])
    (halone : ∀ j u id tenant, Live c j u → ¬ Claims u id tenant) (hrecent : ∀ j u id tenant, Live c j u →
      Executes u id tenant → Recent c.state.world id tenant) : Inv (fire env c i t o k) := by
  have hkept : Kept c.state.world (World.handle env o c.state.world).2 :=
    handle_kept (by rw [ho]; exact nofun)
  -- only the runner that looked can be about to take a job, and it executes nothing new
  have hclaims : ∀ j u id tenant, Live (fire env c i t o k) j u → Claims u id tenant →
      j = i ∧ ∃ job ∈ c.state.world.db.jobs, Database.runnable c.state.world.now job = true ∧ id = job.id ∧ tenant = job.tenantID := by
    intro j u id tenant hu hclaims
    rcases live_fire hu with ⟨rfl, rfl⟩ | ⟨_, hu⟩
    · obtain ⟨job, hgiven, hid, htenant⟩ := log_of_claims hsafe hi hclaims
      obtain ⟨hjob, hrunnable⟩ := given_runnable ho hlog hgiven
      exact ⟨rfl, job, hjob, hrunnable, hid, htenant⟩
    · exact absurd hclaims (halone j u id tenant hu)
  have hexecutes : ∀ j u id tenant, Live (fire env c i t o k) j u → Executes u id tenant → ∃ u', Live c j u' ∧
    Executes u' id tenant := by
    intro j u id tenant hu hexecutes
    rcases live_fire hu with ⟨rfl, rfl⟩ | ⟨_, hu⟩
    · exact ⟨t, ⟨hi, hup⟩, executes_of_called hprog (by rw [ho]; exact nofun) hexecutes⟩
    · exact ⟨u, hu, hexecutes⟩
  refine ⟨?_, ?_, ?_, ?_, ?_⟩
  · intro j j' u u' id id' tenant tenant' hu hu' hc hc'
    exact (hclaims j u id tenant hu hc).1.trans (hclaims j' u' id' tenant' hu' hc').1.symm
  · intro j j' u u' id tenant hu hu' hc he
    obtain ⟨_, job, hjob, hrunnable, rfl, rfl⟩ := hclaims j u id tenant hu hc
    obtain ⟨v, hv, hev⟩ := hexecutes j' u' _ _ hu' he
    have htaken := hinv.taken j' v _ _ hv hev job hjob rfl rfl
    have hsince := hrecent j' v _ _ hv hev job hjob rfl rfl
    exact absurd hrunnable (not_runnable htaken hsince)
  · intro j j' u u' id tenant hu hu' he he'
    obtain ⟨v, hv, hev⟩ := hexecutes j u id tenant hu he
    obtain ⟨v', hv', hev'⟩ := hexecutes j' u' id tenant hu' he'
    exact hinv.oneRunner j j' v v' id tenant hv hv' hev hev'
  · intro j u id tenant hu he
    obtain ⟨v, hv, hev⟩ := hexecutes j u id tenant hu he
    exact (hkept id tenant (hinv.known j v id tenant hv (.inr hev))).2 (hinv.taken j v id tenant hv hev)
  · intro j u id tenant hu hhas
    rcases hhas with hc | he
    · obtain ⟨_, job, hjob, _, rfl, rfl⟩ := hclaims j u id tenant hu hc
      exact (hkept _ _ ⟨job, hjob, rfl, rfl⟩).1
    · obtain ⟨v, hv, hev⟩ := hexecutes j u id tenant hu he
      exact (hkept id tenant (hinv.known j v id tenant hv (.inr hev))).1

/-- **A job is taken.** Its runner was the only one about to take a job. -/
theorem inv_start (ho : o = .store (.startSyncJob job.id job.tenantID))
    (hlog : t.log = [⟨.store .nextSyncJob, .ok job⟩]) : Inv (fire env c i t o k) := by
  have hkept : Kept c.state.world (World.handle env o c.state.world).2 :=
    handle_kept (by rw [ho]; exact nofun)
  have hclaimed : Claims t job.id job.tenantID := by rw [Claims, Thread.next_eq hprog, ho]
  have hclaims : ∀ j u id tenant, Live (fire env c i t o k) j u → ¬ Claims u id tenant := by
    intro j u id tenant hu hclaims
    rcases live_fire hu with ⟨rfl, rfl⟩ | ⟨hne, hu⟩
    · exact not_claims hsafe hi (by rw [hlog]; exact List.cons_ne_nil _ _) hclaims
    · exact hne (hinv.oneClaim j i u t id job.id tenant job.tenantID hu ⟨hi, hup⟩ hclaims hclaimed)
  -- what is executed was executed before, or is the job that was taken
  have hexecutes : ∀ j u id tenant, Live (fire env c i t o k) j u → Executes u id tenant →
      j ≠ i ∧ Live c j u ∨ j = i ∧ id = job.id ∧ tenant = job.tenantID ∧
        (World.handle env o c.state.world).2.db = c.state.world.db.updateJob job.id job.tenantID (fun j =>
          { j with status := .running, startedAt := some (j.startedAt.getD c.state.world.now) }) := by
    intro j u id tenant hu hexecutes
    rcases live_fire hu with ⟨rfl, rfl⟩ | ⟨hne, hu⟩
    · right
      rcases took_called hexecutes.2 with htook | ⟨hstart, hanswer⟩
      · rw [hlog] at htook
        have he := congrArg Entry.op (List.mem_singleton.mp htook)
        cases he
      · rw [ho] at hstart
        cases hstart
        refine ⟨rfl, rfl, rfl, ?_⟩
        subst ho
        rcases World.handle_store env c.state.world (.startSyncJob job.id job.tenantID) with ⟨text, _, hread⟩ | ⟨pick, _, hread⟩
        · rw [hread] at hanswer
          injection hanswer with _ hanswer
          cases hanswer
        · rw [hread]
          rfl
    · exact .inl ⟨hne, hu⟩
  refine ⟨fun j j' u u' id id' tenant tenant' hu _ hc _ => absurd hc (hclaims j u id tenant hu),
    fun j j' u u' id tenant hu _ hc _ => absurd hc (hclaims j u id tenant hu), ?_, ?_, ?_⟩
  · intro j j' u u' id tenant hu hu' he he'
    rcases hexecutes j u id tenant hu he with ⟨_, hlive⟩ | ⟨rfl, rfl, rfl, _⟩
    · rcases hexecutes j' u' id tenant hu' he' with ⟨_, hlive'⟩ | ⟨rfl, rfl, rfl, _⟩
      · exact hinv.oneRunner j j' u u' id tenant hlive hlive' he he'
      · exact absurd he (hinv.apart j' j t u _ _ ⟨hi, hup⟩ hlive hclaimed)
    · rcases hexecutes j' u' _ _ hu' he' with ⟨_, hlive'⟩ | ⟨rfl, _⟩
      · exact absurd he' (hinv.apart j j' t u' _ _ ⟨hi, hup⟩ hlive' hclaimed)
      · rfl
  · intro j u id tenant hu he
    rcases hexecutes j u id tenant hu he with ⟨_, hlive⟩ | ⟨_, rfl, rfl, hdb⟩
    · exact (hkept id tenant (hinv.known j u id tenant hlive (.inr he))).2 (hinv.taken j u id tenant hlive he)
    · intro row hrow hid htenant
      have hrow : row ∈ (World.handle env o c.state.world).2.db.jobs := hrow
      rw [hdb] at hrow
      obtain ⟨old, hold, rfl⟩ := List.mem_map.mp hrow
      split_ifs at hid htenant ⊢ with hkey
      · exact ⟨nofun, nofun⟩
      · exact absurd ⟨hid, htenant⟩ hkey
  · intro j u id tenant hu hhas
    rcases hhas with hc | he
    · exact absurd hc (hclaims j u id tenant hu)
    · rcases hexecutes j u id tenant hu he with ⟨_, hlive⟩ | ⟨_, rfl, rfl, _⟩
      · exact (hkept id tenant (hinv.known j u id tenant hlive (.inr he))).1
      · exact (hkept _ _ (hinv.known i t _ _ ⟨hi, hup⟩ (.inl hclaimed))).1

end Fire

theorem step_inv {a : Effect.Act Nat Move} (hsafe : Promised env c) (hinv : Inv c) (horder : Orderly c a)
    (hstep : Pool.step (runners env reconciler) c a = some c') : Promised env c' ∧ Inv c' := by
  have hsafe' : Promised env c' := by
    have hok : Pool.permits (free env).ok (fun _ _ => True) c a := by
      cases a with
      | start task => trivial
      | fire i => exact fun _ _ _ _ => trivial
      | move m => trivial
    exact Pool.safe_step (P := runners env reconciler) rfl (fun _ _ _ _ => tick_safe)
      (fun _ _ _ _ _ => ⟨trivial, trivial⟩) hsafe hok hstep
  refine ⟨hsafe', ?_⟩
  rcases Pool.step_cases hstep with ⟨fuel, rfl, rfl⟩ | ⟨i, t, o, k, rfl, hi, hprog, rfl⟩ |
    ⟨m, s, rfl, hm, rfl⟩
  · -- a new runner has nothing
    have hold : ∀ j u, Live (⟨c.threads ++ [⟨fuel, [], tick env reconciler fuel⟩], c.state⟩ : Runners) j u →
      Live c j u ∨ u.log = [] := by
      rintro j u ⟨hj, hup⟩
      by_cases hlt : j < c.threads.length
      · rw [List.getElem?_append_left hlt] at hj
        exact .inl ⟨hj, hup⟩
      · rw [List.getElem?_append_right (Nat.le_of_not_lt hlt)] at hj
        rw [List.mem_singleton.mp (List.mem_of_getElem? hj)]
        exact .inr rfl
    refine hinv.frame (fun _ _ h => ⟨h, fun h => h⟩) (fun j u id tenant hu hclaims => ?_)
      (fun j u id tenant hu hexecutes => ?_)
    · rcases hold j u hu with hu' | hlog
      · exact ⟨u, hu', hclaims⟩
      · obtain ⟨job, hgiven, _⟩ : may u.log (.store (.startSyncJob id tenant)) := may_next hsafe' hu.1 hclaims
        rw [hlog] at hgiven
        cases hgiven
    · rcases hold j u hu with hu' | hlog
      · exact ⟨u, hu', hexecutes⟩
      · have htook := hexecutes.2
        rw [hlog] at htook
        cases htook
  · have hup := horder.up i rfl
    have hmay := may_next hsafe hi (Thread.next_eq hprog)
    have hexecuting : t.log ≠ [] ∧ executing o → Inv (fire env c i t o k) := fun h =>
      inv_executing hsafe' hinv hi hup hprog h.2 h.1
    cases o with
    | store s =>
      cases s with
      | nextSyncJob =>
        have hnext := Thread.next_eq hprog
        exact inv_next hsafe' hinv hi hup hprog rfl hmay (horder.alone i t rfl hi hnext) (horder.recent i t rfl hi hnext)
      | startSyncJob id tenant =>
        obtain ⟨job, hlog, rfl, rfl⟩ := hmay
        exact inv_start hsafe' hinv hi hup hprog rfl hlog
      | _ => exact hexecuting hmay
    | _ => exact hexecuting hmay
  · cases m with
    | crash i =>
      cases hm
      have hold : ∀ j u, Live (⟨c.threads, { c.state with down := i :: c.state.down }⟩ : Runners) j u → Live c j u :=
        fun j u hu => ⟨hu.1, fun hmem => hu.2 (.tail _ hmem)⟩
      exact hinv.frame (fun _ _ h => ⟨h, fun h => h⟩) (fun j u _ _ hu h => ⟨u, hold j u hu, h⟩) (fun j u _ _ hu h => ⟨u, hold j u hu, h⟩)
    | change w =>
      have hm : (if w.db.jobs.all (fresh c.state.world.db.jobs) then some { c.state with world := { w with
          db := { w.db with jobs := c.state.world.db.jobs ++ w.db.jobs } } } else none) = some s := hm
      split_ifs at hm with hnew
      cases hm
      exact hinv.frame (kept_append hnew rfl) (fun j u _ _ hu h => ⟨u, hu, h⟩) (fun j u _ _ hu h => ⟨u, hu, h⟩)

/-- **A job is executed by one runner at a time**, if it is looked for and taken without another runner in
    between, and no execution takes longer than a minute from the job's first start. -/
theorem job_exclusive {m : Machine} {acts : List (Effect.Act Nat Move)}
    (hrun : Run (Pool.step (runners env reconciler)) Orderly ⟨[], m⟩ acts c) :
    ∀ i j t u id tenant, Live c i t → Live c j u → Executes t id tenant → Executes u id tenant → i = j := by
  have hgood := hrun.invariant (P := fun _ c => Promised env c ∧ Inv c)
    ⟨Pool.safe_nil trivial, ⟨fun _ _ _ _ _ _ _ _ h => (nomatch h.1), fun _ _ _ _ _ _ h => (nomatch h.1),
      fun _ _ _ _ _ _ h => (nomatch h.1), fun _ _ _ _ h => (nomatch h.1), fun _ _ _ _ h => (nomatch h.1)⟩⟩
    (fun _ _ _ _ hc horder hstep => step_inv hc.1 hc.2 horder hstep)
  exact hgood.2.oneRunner

end Steps

/-! ## Two runners and a job -/

def took (log : Log) (id tenant : String) : Bool :=
  log.any (fun e =>
    match e with
    | ⟨.store (.startSyncJob id' tenant'), .ok _⟩ => id' = id ∧ tenant' = tenant
    | _ => false)

theorem took_of_test {id tenant : String} (h : took log id tenant = true) : Took log id tenant := by
  obtain ⟨⟨op, answer⟩, he, htest⟩ := List.any_eq_true.mp h
  split at htest
  · rename_i hentry
    obtain ⟨rfl, rfl⟩ := of_decide_eq_true htest
    rwa [hentry] at he
  · cases htest

def looks (t : Runner) : Bool :=
  match t.next? with
  | some (.store .nextSyncJob) => true
  | _ => false

def claims (t : Runner) : Bool :=
  match t.next? with
  | some (.store (.startSyncJob _ _)) => true
  | _ => false

def quiet (c : Runners) : Bool :=
  c.threads.all (fun u => ¬ claims u) ∧ ∀ j ∈ c.state.world.db.jobs, ∀ at_ ∈ j.startedAt,
    c.state.world.now - 60000000000 ≤ at_

def orderly (c : Runners) : Effect.Act Nat Move → Bool
  | .fire i => c.state.down = [] ∧ ∀ t ∈ c.threads[i]?, looks t → quiet c
  | _ => true

theorem orderly_of_test {a : Effect.Act Nat Move} (h : orderly c a = true) : Orderly c a := by
  have hquiet {i : Nat} {t : Runner} (ha : a = .fire i) (ht : c.threads[i]? = some t)
      (hnext : t.next? = some (.store .nextSyncJob)) : quiet c = true := by
    subst ha
    refine (of_decide_eq_true h).2 t ht ?_
    rw [looks, hnext]
  refine ⟨?_, ?_, ?_⟩
  · rintro i rfl
    rw [(of_decide_eq_true h).1]
    exact List.not_mem_nil
  · intro i t ha ht hnext j u id tenant hu hclaims
    have hnone := List.all_eq_true.mp (of_decide_eq_true (hquiet ha ht hnext)).1 u (List.mem_of_getElem? hu.1)
    refine of_decide_eq_true hnone ?_
    rw [claims, hclaims]
  · intro i t ha ht hnext j u id tenant _ _ job hjob _ _ _
    exact (of_decide_eq_true (hquiet ha ht hnext)).2 job hjob

def annJob : SyncJob :=
  { id := "j1", tenantID := tenant, source := "salesforce", destination := "hubspot", type := .initial }

def office (job : SyncJob) (now : Time) : Machine :=
  { world := { world [] with now, db := { (world []).db with jobs := [job] } } }

def annRunners : Pool.Setup sig GoError Nat Machine Move := runners Deployment.env true

/-- Runner `i` is up and executes the job. -/
def executes (c : Runners) (i : Nat) : Bool :=
  i ∉ c.state.down ∧ ∃ t ∈ c.threads[i]?, t.done = false ∧ took t.log "j1" tenant = true

theorem executes_of_test {i : Nat} (h : executes c i = true) : ∃ t, Live c i t ∧ Executes t "j1" tenant := by
  obtain ⟨hup, t, ht, hdone, htook⟩ := of_decide_eq_true h
  exact ⟨t, ⟨ht, hup⟩, hdone, took_of_test htook⟩

theorem job_exclusive_once : ∃ c t, Run (Pool.step annRunners) Orderly ⟨[], office annJob 0⟩
      [.start 5, .fire 0, .fire 0, .fire 0, .start 5, .fire 1] c ∧ Live c 0 t ∧ Executes t "j1" tenant ∧
    ∀ j u, Live c j u → Executes u "j1" tenant → 0 = j := by
  have hexec : (exec (Pool.step annRunners) orderly [.start 5, .fire 0, .fire 0, .fire 0, .start 5, .fire 1]
      ⟨[], office annJob 0⟩).map (fun c => executes c 0) = some true := by decide +kernel
  obtain ⟨c, hrun, _, htest⟩ := run_of_test hexec
  obtain ⟨t, hlive, hexecutes⟩ := executes_of_test htest
  have hrun : Run (Pool.step annRunners) Orderly ⟨[], office annJob 0⟩ _ c :=
    hrun.mono (fun _ _ _ h => orderly_of_test h)
  exact ⟨c, t, hrun, hlive, hexecutes, fun j u hu he => job_exclusive hrun 0 j t u _ _ hlive hu hexecutes he⟩

def Contested (m : Machine) (acts : List (Effect.Act Nat Move)) : Prop :=
  ∃ c t u, Run (Pool.step annRunners) (fun _ _ => True) ⟨[], m⟩ acts c ∧ Live c 0 t ∧ Live c 1 u ∧
    Executes t "j1" tenant ∧ Executes u "j1" tenant

theorem contested_of_test {acts : List (Effect.Act Nat Move)}
    (h : (exec (Pool.step annRunners) (fun _ _ => true) acts ⟨[], m⟩).map
      (fun c => executes c 0 && executes c 1) = some true) : Contested m acts := by
  obtain ⟨c, _, hexec, htest⟩ := run_of_test h
  obtain ⟨hzero, hone⟩ := Bool.and_eq_true_iff.mp htest
  obtain ⟨t, ht, hte⟩ := executes_of_test hzero
  obtain ⟨u, hu, hue⟩ := executes_of_test hone
  exact ⟨c, t, u, exec_run hexec, ht, hu, hte, hue⟩

def later (m : Machine) (now : Time) : Move :=
    .change { m.world with now, db := { m.world.db with jobs := [] } }

/-- **Two runners execute one job.** Both were given it before either took it; or the first has worked on it
    for a minute; or it was resumed, and its first start was long ago. -/
theorem job_contested : Contested (office annJob 0) [.start 5, .start 5, .fire 0, .fire 1, .fire 0, .fire 1] ∧
    Contested (office annJob 0)
      [.start 5, .fire 0, .fire 0, .move (later (office annJob 0) 61000000000), .start 5, .fire 1, .fire 1] ∧
    Contested (office { annJob with status := .running, startedAt := some 0 } 100000000000)
      [.start 5, .fire 0, .fire 0, .start 5, .fire 1, .fire 1] :=
  ⟨contested_of_test (by decide +kernel), contested_of_test (by decide +kernel),
    contested_of_test (by decide +kernel)⟩

end SyncForge.Job
