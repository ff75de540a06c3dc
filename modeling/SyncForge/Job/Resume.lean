import SyncForge.Deployment
import SyncForge.Effect.Blocks
import SyncForge.Effect.Pool
import SyncForge.Job.Calls
import SyncForge.Simulator.Paging

/-!
# `Job.Resume` — a full synchronization across crashes

A full synchronization stores its cursor after each page, so a runner that crashes can be followed by another.
The runner is written here with `Process` as one operation (`fullSync_levels`), and crashes are outside it. A
`Process` that fails is counted and passed by: there is no retry and no dead letter.
-/

namespace SyncForge.Resume

open Effect
open Effect.Prog hiding pure
open Job (eventID malformedEvent recordEvent)
open Reconcile.Sweep (nextCursor nullablePtr)
open Transition (Run)
open World (handle_deadLetters handle_processed)
open Rely (safe_attempt safe_bind safe_perform safe_return safe_seq)
open Prog (expand_perform expand_seq)
open Deployment (policy record sims tenant world)

/-! ## The runner, one `Process` at a time -/

/-- What a runner does: a call of its own, or `Process`. -/
inductive Op where
  | call (o : Call)
  | process (ev : Event)

@[reducible] def Op.Res : Op → Type
  | .call o => o.Res
  | .process _ => Outcome

@[reducible] def ops : Sig := ⟨Op, Op.Res⟩

abbrev Runner := Prog ops GoError

def stmt (o : StoreOp) : Runner o.Res := perform (S := ops) (.call (.store o))

def tryStmt (o : StoreOp) : Runner Unit := do
  let _ ← attempt (stmt o)
  pure ()

def abort {α : Type} (job : SyncJob) (cause : GoError) : Runner α := do
  tryStmt (.finishSyncJob job.id job.tenantID .failed (some cause.error))
  .throw cause

def orAbort {α : Type} (job : SyncJob) (p : Runner α) : Runner α := do
  match ← attempt p with
  | .ok a => pure a
  | .error e => abort job e

def parkProviderRecord (ev : Event) (reason : String) : Runner Unit :=
  tryStmt (.insertDeadLetter
    { tenantID := ev.tenantID, eventID := ev.eventID, reason, errorClass := ErrorKind.schema.string
      payload := .marshal ev })

def applyRecord (job : SyncJob) (src : Remote) (rec : ProviderRecord) (counts : Int × Int) :
    Runner (Int × Int) :=
  if rec.deleted then pure counts
  else
    match src.adapter.validate rec with
    | .error e => do
      parkProviderRecord (malformedEvent job rec) e.error
      pure (counts.1, counts.2 + 1)
    | .ok _ => do
      let now ← perform (S := ops) (.call .timeNow)
      match ← attempt (perform (S := ops) (.process (recordEvent job src.adapter.canonicalEntityType rec now))) with
      | .error _ => pure (counts.1, counts.2 + 1)
      | .ok _ => pure (counts.1 + 1, counts.2)

def applyPage (job : SyncJob) (src : Remote) : List ProviderRecord → Int × Int → Runner (Int × Int)
  | [], counts => pure counts
  | rec :: recs, counts => do
    let counts ← applyRecord job src rec counts
    applyPage job src recs counts

def walk (job : SyncJob) (src : Remote) (total : Int) : Nat → String → Int × Int → Runner Bool
  | 0, _, _ => pure false
  | fuel + 1, cursor, counts => do
    let page ← orAbort job (perform (S := ops) (.call (.list src.endpoint cursor job.batchSize)))
    let counts ← applyPage job src page.records counts
    orAbort job (stmt (.updateSyncJobProgress job.id job.tenantID (nullablePtr (nextCursor page)) counts.1
      counts.2 total))
    if nextCursor page = "" then do
      stmt (.finishSyncJob job.id job.tenantID .completed none)
      pure true
    else walk job src total fuel (nextCursor page) counts

def fullSync (env : Env) (fuel : Nat) (job : SyncJob) : Runner Bool := do
  let srcConn ← orAbort job (stmt (.getConnectionByProvider job.tenantID job.source))
  let src ← orAbort job (ofExcept (adapterFor env srcConn))
  let dstConn ← orAbort job (stmt (.getConnectionByProvider job.tenantID job.destination))
  let _ ← orAbort job (ofExcept (adapterFor env dstConn))
  let total ← do
    match ← attempt (perform (S := ops) (.call (.health src.endpoint))) with
    | .ok records => pure (if 0 < records then records else job.total)
    | .error _ => pure job.total
  walk job src total fuel (job.cursor.getD "") (job.processed, job.failed)

def claimNextSyncJob : Runner SyncJob := do
  let job ← stmt .nextSyncJob
  stmt (.startSyncJob job.id job.tenantID)
  let now ← perform (S := ops) (.call .timeNow)
  pure { job with status := .running, startedAt := some (job.startedAt.getD now) }

/-! ### It is the runner -/

def impl (env : Env) : (o : Op) → Sync o.Res
  | .call o => perform (S := sig) o
  | .process ev => process env ev

/-- `Process` is one step. -/
def handle (env : Env) : Prog.Handler ops GoError World := atomic (World.handle env) (impl env)

section Levels

variable {env : Env} {job : SyncJob} {src : Remote} {α : Type}

theorem expand_stmt (o : StoreOp) : expand (impl env) (stmt o) = Store.stmt o := expand_perform _ _

theorem expand_try {p : Runner α} {q : Sync α} (h : expand (impl env) p = q) :
    expand (impl env) (attempt p) = attempt q := by
  rw [Prog.expand_attempt, h]

theorem expand_tryStmt (o : StoreOp) : expand (impl env) (tryStmt o) = Store.tryStmt o :=
  expand_seq _ (expand_try (expand_stmt o)) (fun _ => rfl)

theorem expand_abort (cause : GoError) :
    expand (impl env) (abort job cause : Runner α) = Job.abort job cause :=
  expand_seq _ (expand_tryStmt _) (fun _ => rfl)

theorem expand_orAbort {p : Runner α} {q : Sync α} (h : expand (impl env) p = q) :
    expand (impl env) (orAbort job p) = Job.orAbort job q := by
  refine expand_seq _ (expand_try h) (fun r => ?_)
  cases r with
  | ok a => rfl
  | error e => exact expand_abort e

theorem expand_applyRecord (rec : ProviderRecord) (counts : Int × Int) :
    expand (impl env) (applyRecord job src rec counts) = Job.applyRecord env job src rec counts := by
  unfold applyRecord Job.applyRecord
  split_ifs
  · rfl
  · cases src.adapter.validate rec with
    | error e => exact expand_seq _ (expand_tryStmt _) (fun _ => rfl)
    | ok _ =>
      refine expand_seq _ (expand_perform _ _) (fun now => ?_)
      refine expand_seq _ (expand_try (expand_perform _ _)) (fun r => ?_)
      cases r <;> rfl

theorem expand_applyPage (recs : List ProviderRecord) (counts : Int × Int) :
    expand (impl env) (applyPage job src recs counts) = Job.applyPage env job src recs counts := by
  induction recs generalizing counts with
  | nil => rfl
  | cons rec recs ih => exact expand_seq _ (expand_applyRecord rec counts) ih

theorem expand_walk (total : Int) (fuel : Nat) (cursor : String) (counts : Int × Int) :
    expand (impl env) (walk job src total fuel cursor counts)
    = Job.walk env job src total fuel cursor counts := by
  induction fuel generalizing cursor counts with
  | zero => rfl
  | succ fuel ih =>
    refine expand_seq _ (expand_orAbort (expand_perform _ _)) (fun page => ?_)
    refine expand_seq _ (expand_applyPage _ _) (fun counts => ?_)
    refine expand_seq _ (expand_orAbort (expand_stmt _)) (fun _ => ?_)
    split_ifs
    · exact expand_seq _ (expand_stmt _) (fun _ => rfl)
    · exact ih _ _

theorem expand_fullSync (fuel : Nat) : expand (impl env)
    (fullSync env fuel job) = Job.fullSync env fuel job := by
  refine expand_seq _ (expand_orAbort (expand_stmt _)) (fun srcConn => ?_)
  refine expand_seq _ (expand_orAbort (Prog.expand_ofExcept _ _)) (fun src => ?_)
  refine expand_seq _ (expand_orAbort (expand_stmt _)) (fun dstConn => ?_)
  refine expand_seq _ (expand_orAbort (Prog.expand_ofExcept _ _)) (fun _ => ?_)
  refine expand_seq _ (expand_try (expand_perform _ _)) (fun r => ?_)
  cases r <;> exact expand_walk _ _ _ _

theorem expand_claimNextSyncJob : expand (impl env) claimNextSyncJob = Job.claimNextSyncJob := by
  refine expand_seq _ (expand_stmt _) (fun job => ?_)
  refine expand_seq _ (expand_stmt _) (fun _ => ?_)
  exact expand_seq _ (expand_perform _ _) (fun _ => rfl)

/-- **The runner of `Job.Runner`**, left alone, does what the one with `Process` as an operation does. -/
theorem fullSync_levels (fuel : Nat) (w : World) :
    Prog.run (World.handle env) (Job.fullSync env fuel job) w
    = Prog.run (handle env) (fullSync env fuel job) w := by
  rw [← expand_fullSync, Prog.run_expand]
  rfl

end Levels

/-! ## The system -/

def isJob (job j : SyncJob) : Bool := j.id = job.id ∧ j.tenantID = job.tenantID

def resume (env : Env) (job : SyncJob) (fuel : Nat) : Runner Unit := do
  match ← attempt claimNextSyncJob with
  | .error _ => pure ()
  | .ok j =>
    if isJob job j then do
      let _ ← attempt (fullSync env fuel j)
      pure ()
    else pure ()

def ofJob (job : SyncJob) (tenantID event : String) : Bool :=
  tenantID = job.tenantID ∧ (eventID job.id "").toList <+: event.toList

/-- `handleRerunSyncJob` puts the job up again. -/
def reopened (job : SyncJob) (w : World) : World :=
  { w with db := w.db.updateJob job.id job.tenantID (fun j => { j with status := .pending, lastError := none }) }

def changed (job : SyncJob) (w w' : World) : World :=
  { w' with db :=
    { w'.db with
      connections := w.db.connections
      processed := fun key => if ofJob job key.tenantID key.eventID then w.db.processed key else w'.db.processed key
      deadLetters := fun key => if ofJob job key.tenantID key.eventID then w.db.deadLetters key else w'.db.deadLetters key } }

inductive Move where
  | reopen
  | change (f : World → World)

def move (job : SyncJob) : Move → World → Option World
  | .reopen, w => some (reopened job w)
  | .change f, w => if (f w).db.jobs.filter (isJob job) = w.db.jobs.filter (isJob job) then some (changed job w (f w)) else none

def runners (env : Env) (job : SyncJob) : Pool.Setup ops GoError Nat World Move where
  handle := handle env
  body := resume env job
  move := move job

/-! ## Records -/

def claimKey (job : SyncJob) (id : String) : EventKey := ⟨job.tenantID, job.source, eventID job.id id⟩

def letterKey (job : SyncJob) (id : String) : RowKey := ⟨job.tenantID, eventID job.id id⟩

def Present (job : SyncJob) (id : String) (w : World) : Prop :=
  ∀ conn ∈ w.db.connectionsOf job.tenantID job.source,
    ∃ rec ∈ (w.sims ⟨conn.provider, conn.baseURL⟩).records.rows, rec.id = id ∧ rec.deleted = false

/-- `Process` applies the record's event, or skips it as a duplicate; its dead letter is stored. -/
def Succeeds (env : Env) (job : SyncJob) (id : String) (w : World) : Op → Prop
  | .process ev => ev.key = claimKey job id →
      (Prog.run (World.handle env) (process env ev) w).1 = .ok .applied ∨
        (Prog.run (World.handle env) (process env ev) w).1 = .ok .duplicate
  | .call (.store (.insertDeadLetter d)) => d.key = letterKey job id → ∃ pick, w.storeTape w.calls = .ok pick
  | _ => True

def Fair (env : Env) (job : SyncJob) (id : String) (o : Op) (w : World) :
    Prop := Present job id w ∧ Succeeds env job id w o

def Parked (job : SyncJob) (id : String) (w : World) : Prop :=
  ∃ d ev, w.db.deadLetters (letterKey job id) = some d ∧ d.status = .open ∧ d.payload = .marshal ev ∧
    ev.key = claimKey job id ∧ ev.entityID = id

def Applied (job : SyncJob) (id : String) (log : List (Entry ops GoError)) : Prop :=
  ∃ ev : Event, (⟨.process ev, .ok .applied⟩ : Entry ops GoError) ∈ log ∧ ev.key = claimKey job id ∧
    ev.entityID = id

def Settled (job : SyncJob) (id : String) (w : World) : Prop := w.db.processed (claimKey job id) = true ∨
    Parked job id w

def Ahead (id cursor : String) : Prop := cursor = "" ∨ cursor < id

def Rows (job : SyncJob) (id : String) (w : World) : Prop :=
  ∀ j ∈ w.db.jobs, isJob job j = true → j.source = job.source ∧
    (Settled job id w ∨ j.status ≠ .completed ∧ Ahead id (j.cursor.getD ""))

structure Inv (conns : List Connection) (job : SyncJob) (id : String) (w : World) : Prop where
  connections : w.db.connections = conns
  rows : Rows job id w

def rely (env : Env) (conns : List Connection) (job : SyncJob) (id : String) : Rely ops GoError World where
  handle := handle env
  ok := Fair env job id
  inv := Inv conns job id
  change w w' := Settled job id w → Settled job id w'
  refl _ h := h
  trans _ _ _ h h' hs := h' (h hs)

/-- Events are claimed by `Process` only, and the record's event is applied or skipped. -/
def may (env : Env) (job : SyncJob) (id : String) (_ : List (Entry ops GoError)) (o : Op) (w : World) :
    Prop :=
  match o with
  | .process ev => ev.key = claimKey job id → ev.entityID = id ∧ Succeeds env job id w (.process ev)
  | .call o => ∀ key, o.writesClaim key = false

abbrev Safely {α : Type} (env : Env) (conns : List Connection) (job : SyncJob) (id : String) (p : Runner α)
    (post : List (Entry ops GoError) → Except GoError α → World → Prop) (log : List (Entry ops GoError))
    (w : World) : Prop :=
  (rely env conns job id).safe (may env job id) p post log w

/-! ## What the operations do to a record -/

section Steps

variable {env : Env} {conns : List Connection} {job : SyncJob} {id : String} {w w' : World} {ev : Event}
  {b : String}

theorem handle_call (o : Call) (w : World) : handle env (.call o) w = World.handle env o w :=
    Prog.run_perform _ _ _

theorem settled_of_same (hclaim : w'.db.processed (claimKey job id) = w.db.processed (claimKey job id))
    (hletter : w'.db.deadLetters (letterKey job id) = w.db.deadLetters (letterKey job id))
    (h : Settled job id w) : Settled job id w' := by
  unfold Settled Parked
  rwa [hclaim, hletter]

theorem rows_of_same (hw : Rows job id w) (hsettled : Settled job id w → Settled job id w')
    (hjobs : w'.db.jobs = w.db.jobs) : Rows job id w' := by
  intro j hj hisJob
  rw [hjobs] at hj
  exact ⟨(hw j hj hisJob).1, (hw j hj hisJob).2.imp_left hsettled⟩

theorem rows_updateJob {a : String} {f : SyncJob → SyncJob} (hw : Rows job id w)
    (hsettled : Settled job id w → Settled job id w')
    (hjobs : w'.db.jobs = (w.db.updateJob a b f).jobs) (hf : ∀ j, (f j).id = j.id ∧ (f j).tenantID = j.tenantID ∧ (f j).source = j.source)
    (hfine : ∀ j : SyncJob, j.status ≠ .completed → Ahead id (j.cursor.getD "") →
      Settled job id w' ∨ (f j).status ≠ .completed ∧ Ahead id ((f j).cursor.getD "")) : Rows job id w' := by
  intro j' hj' hisJob
  rw [hjobs] at hj'
  obtain ⟨j, hj, rfl⟩ := List.mem_map.mp hj'
  split_ifs at hisJob ⊢
  · obtain ⟨hid, htenant, hsource⟩ := hf j
    have hisJob' : isJob job j = true := by
      unfold isJob at hisJob ⊢
      rwa [hid, htenant] at hisJob
    obtain ⟨hsource', hrow⟩ := hw j hj hisJob'
    refine ⟨hsource.trans hsource', ?_⟩
    rcases hrow with h | ⟨hstatus, hcursor⟩
    · exact .inl (hsettled h)
    · exact hfine j hstatus hcursor
  · exact ⟨(hw j hj hisJob).1, (hw j hj hisJob).2.imp_left hsettled⟩

def spares (id : String) (settled : Prop) : Call → Prop
  | .store (.updateSyncJobProgress _ _ cursor _ _ _) => settled ∨ Ahead id (cursor.getD "")
  | .store (.finishSyncJob _ _ status _) => settled ∨ status ≠ .completed
  | _ => True

theorem keeps_call {o : Call} (hw : Inv conns job id w)
    (hsettled : Settled job id w → Settled job id (World.handle env o w).2)
    (hspares : spares id (Settled job id w) o) : (rely env conns job id).keeps (.call o) w := by
  show (rely env conns job id).later w (handle env (.call o) w).2
  rw [handle_call]
  refine ⟨hsettled, World.handle_connections.trans hw.connections, ?_⟩
  have hw := hw.rows
  rcases @World.handle_db env w o with hdb | ⟨s, pick, rfl, _, hdb⟩
  · exact rows_of_same hw hsettled (by rw [hdb])
  · have hjobs := congrArg Database.jobs hdb
    cases s with
    | startSyncJob a b =>
      refine rows_updateJob hw hsettled hjobs ?_ ?_
      · exact fun _ => ⟨rfl, rfl, rfl⟩
      · exact fun _ _ hcursor => .inr ⟨nofun, hcursor⟩
    | updateSyncJobProgress a b cursor processed failed total =>
      refine rows_updateJob hw hsettled hjobs ?_ ?_
      · exact fun _ => ⟨rfl, rfl, rfl⟩
      · exact fun _ hstatus _ => Or.imp hsettled (fun hcursor => ⟨hstatus, hcursor⟩) hspares
    | finishSyncJob a b status error =>
      refine rows_updateJob hw hsettled hjobs ?_ ?_
      · exact fun _ => ⟨rfl, rfl, rfl⟩
      · exact fun _ _ hcursor => Or.imp hsettled (fun hstatus => ⟨hstatus, hcursor⟩) hspares
    | _ => exact rows_of_same hw hsettled hjobs

/-! ### `Process` -/

/-- `Process` leaves the jobs and the dead letters alone. -/
theorem isProcess_frame {o : Call} (ho : o.isProcess = true) :
    (World.handle env o w).2.db.jobs = w.db.jobs ∧
    (World.handle env o w).2.db.deadLetters = w.db.deadLetters := by
  constructor
  · refine World.handle_frame (fun db => db.jobs) ?_
    rintro s now pick rfl
    cases s <;> first | rfl | cases ho
  · refine World.handle_frame (fun db => db.deadLetters) ?_
    rintro s now pick rfl
    cases s <;> first | rfl | cases ho

theorem process_frame : (Prog.run (World.handle env) (process env ev) w).2.db.jobs = w.db.jobs ∧
    (Prog.run (World.handle env) (process env ev) w).2.db.deadLetters = w.db.deadLetters ∧
    (Prog.run (World.handle env) (process env ev) w).2.db.connections = w.db.connections := by
  refine Prog.run_invariant (I := fun w' : World => w'.db.jobs = w.db.jobs ∧
    w'.db.deadLetters = w.db.deadLetters ∧ w'.db.connections = w.db.connections) process_only
      (fun w' o ho hw' => ?_) ⟨rfl, rfl, rfl⟩
  obtain ⟨hjobs, hletters⟩ := @isProcess_frame env w' o ho
  exact ⟨hjobs.trans hw'.1, hletters.trans hw'.2.1, World.handle_connections.trans hw'.2.2⟩

theorem process_processed_other {key : EventKey} (hkey : key ≠ ev.key) :
    (Prog.run (World.handle env) (process env ev) w).2.db.processed key = w.db.processed key :=
  Prog.run_invariant (I := fun w' : World => w'.db.processed key = w.db.processed key) process_claims
    (fun _ _ ho hw' => (handle_processed (ho key hkey)).trans hw') rfl

theorem process_claimed : Triple (World.handle env) (fun _ => True) (process env ev)
    (fun r w' => r = .ok .applied ∨ r = .ok .duplicate → w'.db.processed ev.key = true) := by
  have hclaim : Triple (World.handle env) (fun _ => True) (Store.stmt (.claimProcessedEvent ev.key))
      (fun r w' => ∀ claimed, r = .ok claimed → w'.db.processed ev.key = true) := by
    refine triple_perform (fun w _ claimed hr => ?_)
    rcases @World.handle_claim env w ev.key with ⟨e, he⟩ | ⟨_, hset⟩
    · rw [he] at hr
      cases hr
    · exact hset
  have hwork : Triple (World.handle env) (fun w' => w'.db.processed ev.key = true) (dispatch env ev)
      (fun _ w' => w'.db.processed ev.key = true) :=
    triple_of_only dispatch_only (fun _ _ ho hw' => (handle_processed (isWork_claims ho _)).trans hw')
  have hmark : Triple (World.handle env) (fun w' => w'.db.processed ev.key = true) (mark ev .processed)
      (fun _ w' => w'.db.processed ev.key = true) :=
    triple_of_only (K := fun o : Call => o.writesClaim ev.key = false) (only_tryStmt rfl)
      (fun _ _ ho hw' => (handle_processed ho).trans hw')
  refine triple_bind hclaim (fun claimed => ?_) (fun _ _ _ h => h.elim nofun nofun)
  split
  · refine triple_pre (P := fun w' : World => w'.db.processed ev.key = true) ?_ (fun _ h => h claimed rfl)
    refine triple_attempt hwork (fun r => ?_)
    split
    · exact triple_bind (R := fun _ _ => True) (fun _ _ => trivial)
        (fun _ => triple_throw (fun _ _ h => h.elim nofun nofun)) (fun _ _ _ h => h.elim nofun nofun)
    · exact triple_bind (R := fun _ _ => True) (fun _ _ => trivial)
        (fun _ => triple_return (fun _ _ h => h.elim nofun nofun)) (fun _ _ _ h => h.elim nofun nofun)
    · exact triple_bind hmark (fun _ => triple_return (fun _ hw' _ => hw')) (fun _ _ _ h => h.elim nofun nofun)
    · exact triple_bind hmark (fun _ => triple_return (fun _ hw' _ => hw')) (fun _ _ _ h => h.elim nofun nofun)
  · exact triple_return (fun _ h _ => h claimed rfl)

theorem process_duplicate (h : (Prog.run (World.handle env) (process env ev) w).1 = .ok .duplicate) :
    w.db.processed ev.key = true := by
  have hclaimed : Triple (World.handle env) (fun _ => True) (processClaimed env ev)
    (fun r _ => r ≠ .ok .duplicate) := by
    refine triple_attempt (Q := fun _ _ => True) (fun _ _ => trivial) (fun r => ?_)
    split
    · exact triple_bind (R := fun _ _ => True) (fun _ _ => trivial) (fun _ => triple_throw (fun _ _ => nofun)) (fun _ _ _ => nofun)
    · exact triple_bind (R := fun _ _ => True) (fun _ _ => trivial) (fun _ => triple_return (fun _ _ => nofun)) (fun _ _ _ => nofun)
    · exact triple_bind (R := fun _ _ => True) (fun _ _ => trivial) (fun _ => triple_return (fun _ _ => nofun)) (fun _ _ _ => nofun)
    · exact triple_bind (R := fun _ _ => True) (fun _ _ => trivial) (fun _ => triple_return (fun _ _ => nofun)) (fun _ _ _ => nofun)
  by_contra hfresh
  unfold process at h
  rcases @World.handle_claim env w ev.key with ⟨e, he⟩ | ⟨hanswer, _⟩
  · rw [Prog.run_bind_error _ ((Prog.run_perform _ _ _).trans he)] at h
    cases h
  · rw [Bool.eq_false_iff.mpr hfresh] at hanswer
    rw [Prog.run_bind_ok _ ((Prog.run_perform _ _ _).trans (Prod.ext hanswer rfl))] at h
    exact hclaimed _ trivial h

theorem recordEvent_key {j : SyncJob} {entityType : String} {rec : ProviderRecord} {now : Time}
    (hj : isJob job j = true) (hsource : j.source = job.source) :
    (recordEvent j entityType rec now).key = claimKey job rec.id := by
  obtain ⟨hid, htenant⟩ := of_decide_eq_true hj
  simp only [recordEvent, Event.key, claimKey, hid, htenant, hsource]

theorem eventID_injective {a : String} (h : eventID job.id a = eventID job.id b) :
    a = b := (String.append_right_inj _).mp h

/-- **`Process` of a record**: the record that succeeds is settled, the others stay as they are. -/
theorem keeps_process {rec : String} (hw : Inv conns job id w) (hkey : ev.key = claimKey job rec)
    (hsucceeds : Succeeds env job id w (.process ev)) :
    (rely env conns job id).keeps (.process ev) w ∧
    (rec = id → Settled job id (handle env (.process ev) w).2) := by
  obtain ⟨hjobs, hletters, hconnections⟩ := @process_frame env w ev
  have hdone : rec = id → Settled job id (handle env (.process ev) w).2 := by
    rintro rfl
    left
    rw [← hkey]
    exact process_claimed w trivial (hsucceeds hkey)
  have hsettled : Settled job id w → Settled job id (handle env (.process ev) w).2 := by
    intro h
    by_cases hrec : rec = id
    · exact hdone hrec
    · refine settled_of_same (process_processed_other (fun heq => hrec ?_)) (congrFun hletters _) h
      rw [hkey] at heq
      exact (eventID_injective (EventKey.mk.inj heq).2.2).symm
  exact ⟨⟨hsettled, hconnections.trans hw.connections, rows_of_same hw.rows hsettled hjobs⟩, hdone⟩

/-- **The dead letter of a malformed record**: the record is settled, the others stay as they are. -/
theorem keeps_park {rec : ProviderRecord} {d : DeadLetter} {j : SyncJob}
    (hsucceeds : Succeeds env job id w (.call (.store (.insertDeadLetter d)))) (hj : isJob job j = true)
    (hsource : j.source = job.source) (hd : d.key = letterKey job rec.id)
    (hpayload : d.payload = .marshal (malformedEvent j rec)) (hw : Inv conns job id w) :
      (rely env conns job id).keeps (.call (.store (.insertDeadLetter d))) w ∧
      (rec.id = id → Settled job id (handle env (.call (.store (.insertDeadLetter d))) w).2) := by
  have hdone : rec.id = id → Settled job id (World.handle env (.store (.insertDeadLetter d)) w).2 := by
    rintro rfl
    obtain ⟨pick, hpick⟩ := hsucceeds hd
    rcases World.handle_store env w (.insertDeadLetter d) with ⟨text, htape, _⟩ | ⟨_, _, hrun⟩
    · rw [hpick] at htape
      cases htape
    · obtain ⟨hid, htenant⟩ := of_decide_eq_true hj
      rw [hrun]
      refine .inr ⟨{ d with status := .open }, malformedEvent j rec, ?_, rfl, hpayload, ?_, rfl⟩
      · rw [← hd]
        exact Function.update_self _ _ _
      · simp only [malformedEvent, Event.key, claimKey, hid, htenant, hsource]
  have hsettled : Settled job id w → Settled job id
    (World.handle env (.store (.insertDeadLetter d)) w).2 := by
    intro h
    by_cases hrec : rec.id = id
    · exact hdone hrec
    · refine settled_of_same (handle_processed rfl) (handle_deadLetters (decide_eq_false (fun heq => hrec ?_))) h
      rw [hd] at heq
      exact eventID_injective (RowKey.mk.inj heq).2
  refine ⟨keeps_call hw hsettled trivial, fun hrec => ?_⟩
  rw [handle_call]
  exact hdone hrec

end Steps

/-! ## What a runner does for a record -/

section Walk

variable {env : Env} {conns : List Connection} {job : SyncJob} {id : String} {w : World} {log : List
  (Entry ops GoError)} {A : Prop} {α : Type}
  {j : SyncJob} {cursor : String} {limit : Int} {fuel : Nat}

def gives (job : SyncJob) (id : String) (P : α → Prop) (_ : List (Entry ops GoError)) (r : Except GoError α)
    (w : World) : Prop :=
  ∀ a, r = .ok a → Settled job id w ∨ P a

theorem own_safe {o : Call} (hclaim : ∀ key, o.writesClaim key = false)
    (hletter : ∀ key, o.writesDeadLetter key = false)
    (hspares : ∀ settled, settled ∨ A → spares id settled o) (hA : Settled job id w ∨ A) :
      Safely env conns job id (perform (S := ops) (.call o)) (fun _ _ w => Settled job id w ∨ A) log w := by
  refine safe_perform (fun t ht _ => ?_)
  have ht' : Settled job id t ∨ A := hA.imp_left ht.1
  have hkeeps : (rely env conns job id).keeps (.call o) t :=
    keeps_call ht.2 (settled_of_same (handle_processed (hclaim _)) (handle_deadLetters (hletter _)))
      (hspares _ ht')
  exact ⟨hclaim, hkeeps, fun u hu => ht'.imp_left (fun h => hu.1 (hkeeps.1 h))⟩

theorem tryStmt_safe {o : StoreOp} (hw : Inv conns job id w)
    (h : Safely env conns job id (stmt o) (fun _ _ w => Settled job id w ∨ A) log w) :
    Safely env conns job id (tryStmt o) (fun _ _ w => Settled job id w ∨ A) log w :=
  safe_attempt h (fun _ _ _ ht _ => safe_return (fun _ hu => ht.imp_left hu.1)) hw

theorem abort_safe {cause : GoError} {Q : α → World → Prop} (hw : Inv conns job id w) :
    Safely env conns job id (abort j cause) (fun _ r w => ∀ a, r = .ok a → Q a w) log w := by
  have hfinish : Safely env conns job id (stmt (.finishSyncJob j.id j.tenantID .failed (some cause.error)))
      (fun _ _ w => Settled job id w ∨ True) log w :=
    own_safe (fun _ => rfl) (fun _ => rfl) (fun _ _ => .inr nofun) (.inr trivial)
  exact safe_bind (tryStmt_safe hw hfinish) (fun _ _ _ _ _ _ _ _ h => nomatch h)
    (fun _ _ _ _ _ h => nomatch h) hw

/-- After `orAbort` the program has returned. -/
theorem orAbort_safe {p : Runner α} {Q : α → World → Prop} (hw : Inv conns job id w)
    (hstable : ∀ a t u, Q a t → (rely env conns job id).later t u → Q a u)
    (hp : Safely env conns job id p (fun _ r w => ∀ a, r = .ok a → Q a w) log w) :
    Safely env conns job id (orAbort j p) (fun _ r w => ∀ a, r = .ok a → Q a w) log w := by
  refine safe_attempt hp (fun log r t hr ht => ?_) hw
  cases r with
  | error e => exact abort_safe ht
  | ok a =>
    refine safe_return (fun u hu a' ha' => ?_)
    cases ha'
    exact hstable a t u (hr a rfl) hu

theorem gives_stable {P : α → Prop} (a : α) (t u : World) (h : Settled job id t ∨ P a)
    (hu : (rely env conns job id).later t u) : Settled job id u ∨ P a := h.imp_left hu.1

def Hits (id : String) (rec : ProviderRecord) : Prop := rec.id = id ∧ rec.deleted = false

variable {j : SyncJob} {src : Remote} (hj : isJob job j = true) (hsource : j.source = job.source)
include hj hsource

theorem park_safe {rec : ProviderRecord} {reason : String} (hw : Inv conns job id w)
    (hA : Settled job id w ∨ A) : Safely env conns job id (parkProviderRecord (malformedEvent j rec) reason)
      (fun _ _ w => Settled job id w ∨ A ∧ ¬ Hits id rec) log w := by
  have hkey : letterKey j rec.id = letterKey job rec.id := by
    obtain ⟨hid, htenant⟩ := of_decide_eq_true hj
    simp only [letterKey, hid, htenant]
  refine tryStmt_safe hw (safe_perform (fun t ht hfair => ?_))
  obtain ⟨hkeeps, hdone⟩ := keeps_park hfair.2 hj hsource hkey rfl ht.2
  refine ⟨fun _ => rfl, hkeeps, fun u hu => ?_⟩
  by_cases hrec : rec.id = id
  · exact .inl (hu.1 (hdone hrec))
  · exact hA.imp (fun h => hu.1 (hkeeps.1 (ht.1 h))) (fun h => ⟨h, fun hhits => hrec hhits.1⟩)

theorem process_safe {rec : ProviderRecord} {entityType : String} {now : Time} (hA : Settled job id w ∨ A) :
    Safely env conns job id (perform (S := ops) (.process (recordEvent j entityType rec now)))
      (fun _ _ w => Settled job id w ∨ A ∧ ¬ Hits id rec) log w := by
  refine safe_perform (fun t ht hfair => ?_)
  have hkey := @recordEvent_key job j entityType rec now hj hsource
  obtain ⟨hkeeps, hdone⟩ := keeps_process ht.2 hkey hfair.2
  refine ⟨fun heq => ⟨?_, hfair.2⟩, hkeeps, fun u hu => ?_⟩
  · rw [hkey] at heq
    exact eventID_injective (EventKey.mk.inj heq).2.2
  · by_cases hrec : rec.id = id
    · exact .inl (hu.1 (hdone hrec))
    · exact hA.imp (fun h => hu.1 (hkeeps.1 (ht.1 h))) (fun h => ⟨h, fun hhits => hrec hhits.1⟩)

variable {counts : Int × Int}

theorem applyRecord_safe {rec : ProviderRecord} (hw : Inv conns job id w) (hA : Settled job id w ∨ A) :
    Safely env conns job id (applyRecord j src rec counts) (gives job id (fun _ => A ∧ ¬ Hits id rec)) log
    w := by
  unfold applyRecord
  split_ifs with hdeleted
  · refine safe_return (fun u hu _ _ => hA.imp hu.1 (fun h => ⟨h, fun hhits => ?_⟩))
    rw [hhits.2] at hdeleted
    cases hdeleted
  · cases src.adapter.validate rec with
    | error e =>
      refine safe_bind (park_safe hj hsource hw hA) (fun log _ t ht _ => ?_) (fun _ _ _ _ => nofun) hw
      exact safe_return (fun u hu _ _ => ht.imp_left hu.1)
    | ok _ =>
      have hnow : Safely env conns job id (perform (S := ops) (.call .timeNow))
          (fun _ _ w => Settled job id w ∨ A) log w := own_safe (fun _ => rfl) (fun _ => rfl) (fun _ _ => trivial) hA
      refine safe_bind hnow (fun log now t ht hinv => ?_) (fun _ _ _ _ => nofun) hw
      refine safe_attempt (process_safe hj hsource ht) (fun log r t ht _ => ?_) hinv
      cases r <;> exact safe_return (fun u hu _ _ => ht.imp_left hu.1)

theorem applyPage_safe {recs : List ProviderRecord} (hw : Inv conns job id w) (hA : Settled job id w ∨ A) :
    Safely env conns job id (applyPage j src recs counts)
    (gives job id (fun _ => A ∧ ∀ rec ∈ recs, ¬ Hits id rec)) log w := by
  induction recs generalizing A counts log w with
  | nil => exact safe_return (fun u hu _ _ => hA.imp hu.1 (fun h => ⟨h, nofun⟩))
  | cons rec recs ih =>
    refine safe_bind (applyRecord_safe hj hsource hw hA) (fun log counts t ht hinv => ?_)
      (fun _ _ _ _ => nofun) hw
    refine Rely.safe_mono (ih hinv (ht counts rfl)) (fun _ _ _ h a ha => (h a ha).imp_right (fun h => ?_))
    exact ⟨h.1.1, List.forall_mem_cons.mpr ⟨h.1.2, h.2⟩⟩

omit hj hsource

def Reads (conns : List Connection) (job : SyncJob) (src : Remote) : Prop :=
  ∃ conn ∈ conns, conn.tenantID = job.tenantID ∧ conn.provider = job.source ∧
    src.endpoint = ⟨conn.provider, conn.baseURL⟩

theorem page_covers {s : SimServer} {rec : SimRecord} {page : Page} (hrec : rec ∈ s.records.rows)
    (hlive : rec.deleted = false) (hcursor : Ahead rec.id cursor)
    (hpage : World.page s cursor limit = .ok page) : (∃ r ∈ page.records, Hits rec.id r) ∨
    nextCursor page ≠ "" ∧ nextCursor page < rec.id := by
  unfold World.page at hpage
  dsimp only at hpage
  split_ifs at hpage with hspoiled
  cases hpage
  have hids : ∀ r ∈ (s.list cursor limit).1, r.id ≠ "" := by
    intro r hr hempty
    exact hspoiled (List.any_eq_true.mpr ⟨r, hr, decide_eq_true hempty⟩)
  rcases SimServer.list_covers hrec hcursor hids with hmem | ⟨hne, hlt⟩
  · exact .inl ⟨SimServer.providerRecord rec, List.mem_map_of_mem hmem, rfl, hlive⟩
  · right
    unfold nextCursor
    rw [if_pos (decide_eq_true hne)]
    exact ⟨hne, hlt⟩

theorem list_safe (hreads : Reads conns job src) (hA : Settled job id w ∨ Ahead id cursor) :
    Safely env conns job id (perform (S := ops) (.call (.list src.endpoint cursor limit)))
      (gives job id (fun page : Page => (∃ r ∈ page.records, Hits id r) ∨ nextCursor page ≠ "" ∧ nextCursor page < id)) log w := by
  refine safe_perform (fun t ht hfair => ?_)
  have hkeeps : (rely env conns job id).keeps (.call (.list src.endpoint cursor limit)) t :=
    keeps_call ht.2 (settled_of_same (handle_processed rfl) (handle_deadLetters rfl)) trivial
  refine ⟨fun _ => rfl, hkeeps, fun u hu page hpage => ?_⟩
  refine hA.imp (fun h => hu.1 (hkeeps.1 (ht.1 h))) (fun hcursor => ?_)
  obtain ⟨conn, hconn, htenant, hprovider, hendpoint⟩ := hreads
  have hmem : conn ∈ t.db.connectionsOf job.tenantID job.source := by
    unfold Database.connectionsOf
    rw [ht.2.connections]
    exact List.mem_filter.mpr ⟨hconn, decide_eq_true ⟨htenant, hprovider⟩⟩
  obtain ⟨rec, hrec, hid, hlive⟩ := hfair.1 conn hmem
  have hanswer : (handle env (.call (.list src.endpoint cursor limit)) t).1 = .ok page := hpage
  rw [handle_call, World.handle_list] at hanswer
  rw [← hendpoint] at hrec
  subst hid
  cases htape : t.providerTape t.calls with
  | some e =>
    rw [htape] at hanswer
    cases hanswer
  | none =>
    rw [htape] at hanswer
    exact page_covers hrec hlive hcursor hanswer

theorem connection_safe {provider : String} (hA : Settled job id w ∨ A) :
    Safely env conns job id (stmt (.getConnectionByProvider j.tenantID provider)) (fun _ r w => ∀ conn, r = .ok conn →
        (conn ∈ conns ∧ conn.tenantID = j.tenantID ∧ conn.provider = provider) ∧ (Settled job id w ∨ A)) log w := by
  refine safe_perform (fun t ht _ => ?_)
  have hkeeps : (rely env conns job id).keeps
    (.call (.store (.getConnectionByProvider j.tenantID provider))) t :=
    keeps_call ht.2 (settled_of_same (handle_processed rfl) (handle_deadLetters rfl)) trivial
  refine ⟨fun _ => rfl, hkeeps, fun u hu conn hconn => ⟨?_, hA.imp_left (fun h => hu.1 (hkeeps.1 (ht.1 h)))⟩⟩
  have hanswer : (handle env (.call (.store (.getConnectionByProvider j.tenantID provider))) t).1
    = .ok conn := hconn
  rw [handle_call] at hanswer
  rcases World.handle_store env t (.getConnectionByProvider j.tenantID provider) with ⟨text, _, hrun⟩ |
    ⟨pick, _, hrun⟩
  · rw [hrun] at hanswer
    cases hanswer
  · rw [hrun] at hanswer
    have hmem := List.mem_filter.mp (Database.anyRow_mem (Database.rowOrNotFound_ok hanswer))
    rw [ht.2.connections] at hmem
    exact ⟨hmem.1, of_decide_eq_true hmem.2⟩

include hj hsource

/-- **The walk**: the record is settled or ahead at every page. -/
theorem walk_safe {total : Int} (hw : Inv conns job id w) (hreads : Reads conns job src)
    (hA : Settled job id w ∨ Ahead id cursor) :
    Safely env conns job id (walk j src total fuel cursor counts) (fun _ _ _ => True) log w := by
  induction fuel generalizing cursor counts log w with
  | zero => exact safe_return (fun _ _ => trivial)
  | succ fuel ih =>
    refine safe_seq (orAbort_safe hw gives_stable (list_safe hreads hA)) (fun log page t hpage ht => ?_) hw
    refine safe_seq (applyPage_safe hj hsource ht (hpage page rfl)) (fun log counts t hdone ht => ?_) ht
    -- the record was on the page and is settled, or it is beyond the page
    have hbeyond : Settled job id t ∨ nextCursor page ≠ "" ∧ nextCursor page < id := by
      refine (hdone counts rfl).imp_right (fun h => ?_)
      rcases h.1 with ⟨r, hr, hhits⟩ | hbeyond
      · exact absurd hhits (h.2 r hr)
      · exact hbeyond
    have hprogress : Safely env conns job id (stmt (.updateSyncJobProgress j.id j.tenantID
        (nullablePtr (nextCursor page)) counts.1 counts.2 total))
        (gives job id (fun _ => nextCursor page ≠ "" ∧ nextCursor page < id)) log t := by
      refine Rely.safe_mono (own_safe (fun _ => rfl) (fun _ => rfl) (fun settled h => ?_) hbeyond) (fun _ _ _ h _ _ => h)
      refine h.imp_right (fun h => .inr ?_)
      unfold nullablePtr
      rw [if_neg h.1]
      exact h.2
    refine safe_seq (orAbort_safe ht gives_stable hprogress) (fun log _ t hstored ht => ?_) ht
    split_ifs with hlast
    · -- the last page: the job is completed, and nothing is beyond it
      have hfinish : Safely env conns job id (stmt (.finishSyncJob j.id j.tenantID .completed none))
          (fun _ _ w => Settled job id w ∨ False) log t := by
        refine own_safe (fun _ => rfl) (fun _ => rfl) (fun _ h => h.imp_right False.elim) ?_
        exact (hstored () rfl).imp_right (fun h => h.1 hlast)
      exact safe_seq hfinish (fun _ _ _ _ _ => safe_return (fun _ _ => trivial)) ht
    · exact ih ht ((hstored () rfl).imp_right (fun h => .inr h.2))

/-- A full sync moves its cursor past a record only when that is settled. -/
theorem fullSync_safe (hw : Inv conns job id w) (hA : Settled job id w ∨ Ahead id (j.cursor.getD "")) :
    Safely env conns job id (fullSync env fuel j) (fun _ _ _ => True) log w := by
  have hstable {P : Connection → Prop} :
    ∀ (a : Connection) (t u : World), (P a ∧ (Settled job id t ∨ Ahead id (j.cursor.getD ""))) →
      (rely env conns job id).later t u → P a ∧ (Settled job id u ∨ Ahead id (j.cursor.getD "")) :=
    fun _ _ _ h hu => ⟨h.1, h.2.imp_left hu.1⟩
  refine safe_seq (orAbort_safe hw hstable (connection_safe hA)) (fun log conn t hconn ht => ?_) hw
  obtain ⟨hfound, hA⟩ := hconn conn rfl
  have hadapter : Safely env conns job id (ofExcept (adapterFor env conn))
      (fun _ r w => ∀ src, r = .ok src → Reads conns job src ∧ (Settled job id w ∨ Ahead id (j.cursor.getD ""))) log t := by
    refine Rely.safe_ofExcept (fun u hu src hsrc => ⟨?_, hA.imp_left hu.1⟩)
    obtain ⟨_, htenant⟩ := of_decide_eq_true hj
    exact ⟨conn, hfound.1, hfound.2.1.trans htenant, hfound.2.2.trans hsource, adapterFor_endpoint hsrc⟩
  refine safe_seq (orAbort_safe ht (fun _ _ _ h hu => ⟨h.1, h.2.imp_left hu.1⟩) hadapter)
    (fun log src t hsrc ht => ?_) ht
  obtain ⟨hreads, hA⟩ := hsrc src rfl
  refine safe_seq (orAbort_safe ht hstable (connection_safe hA)) (fun log conn t hconn ht => ?_) ht
  have hA := (hconn conn rfl).2
  have hdestination : Safely env conns job id (ofExcept (adapterFor env conn))
      (gives job id (fun _ => Ahead id (j.cursor.getD ""))) log t :=
    Rely.safe_ofExcept (fun u hu _ _ => hA.imp_left hu.1)
  refine safe_seq (orAbort_safe ht gives_stable hdestination) (fun log dst t hdst ht => ?_) ht
  have hhealth : Safely env conns job id (perform (S := ops) (.call (.health src.endpoint)))
      (fun _ _ w => Settled job id w ∨ Ahead id (j.cursor.getD "")) log t :=
    own_safe (fun _ => rfl) (fun _ => rfl) (fun _ _ => trivial) (hdst dst rfl)
  refine safe_attempt hhealth (fun log r t hA ht => ?_) ht
  cases r <;> exact walk_safe hj hsource ht hreads hA

omit hj hsource

theorem claim_safe (hw : Inv conns job id w) :
    Safely env conns job id claimNextSyncJob (fun _ r w => ∀ j, r = .ok j →
      (isJob job j = true → j.source = job.source) ∧ (Settled job id w ∨ (isJob job j = true → Ahead id (j.cursor.getD "")))) log w := by
  have hnext : Safely env conns job id (stmt .nextSyncJob) (fun _ r w => ∀ j, r = .ok j →
      (isJob job j = true → j.source = job.source) ∧ (Settled job id w ∨ (isJob job j = true → Ahead id (j.cursor.getD "")))) log w := by
    refine safe_perform (fun t ht _ => ?_)
    have hkeeps : (rely env conns job id).keeps (.call (.store .nextSyncJob)) t :=
      keeps_call ht.2 (settled_of_same (handle_processed rfl) (handle_deadLetters rfl)) trivial
    refine ⟨fun _ => rfl, hkeeps, fun u hu j hj => ?_⟩
    have hanswer : (handle env (.call (.store .nextSyncJob)) t).1 = .ok j := hj
    rw [handle_call] at hanswer
    rcases World.handle_store env t .nextSyncJob with ⟨text, _, hrun⟩ | ⟨pick, _, hrun⟩
    · rw [hrun] at hanswer
      cases hanswer
    · rw [hrun] at hanswer
      have hmem : j ∈ t.db.jobs := List.mem_of_find?_eq_some (Database.rowOrNotFound_ok hanswer)
      refine ⟨fun hisJob => (ht.2.rows j hmem hisJob).1, ?_⟩
      by_cases hsettled : Settled job id t
      · exact .inl (hu.1 (hkeeps.1 hsettled))
      · exact .inr (fun hisJob => ((ht.2.rows j hmem hisJob).2.resolve_left hsettled).2)
  refine safe_bind hnext (fun log j t hj ht => ?_) (fun _ _ _ _ _ h => nomatch h) hw
  obtain ⟨hsource, hA⟩ := hj j rfl
  have hstart : Safely env conns job id (stmt (.startSyncJob j.id j.tenantID))
      (fun _ _ w => Settled job id w ∨ (isJob job j = true → Ahead id (j.cursor.getD ""))) log t :=
    own_safe (fun _ => rfl) (fun _ => rfl) (fun _ _ => trivial) hA
  refine safe_bind hstart (fun log _ t hA ht => ?_) (fun _ _ _ _ _ h => nomatch h) ht
  have hnow : Safely env conns job id (perform (S := ops) (.call .timeNow))
      (fun _ _ w => Settled job id w ∨ (isJob job j = true → Ahead id (j.cursor.getD ""))) log t :=
    own_safe (fun _ => rfl) (fun _ => rfl) (fun _ _ => trivial) hA
  refine safe_bind hnow (fun log now t hA _ => ?_) (fun _ _ _ _ _ h => nomatch h) ht
  refine safe_return (fun u hu j' hj' => ?_)
  cases hj'
  exact ⟨hsource, hA.imp_left hu.1⟩

theorem resume_safe (hw : Inv conns job id w) : Safely env conns job id (resume env job fuel)
    (fun _ _ _ => True) log w := by
  refine safe_attempt (claim_safe hw) (fun log r t hr ht => ?_) hw
  cases r with
  | error e => exact safe_return (fun _ _ => trivial)
  | ok j =>
    obtain ⟨hsource, hA⟩ := hr j rfl
    dsimp only
    split_ifs with hisJob
    · refine safe_attempt (fullSync_safe hisJob (hsource hisJob) ht (hA.imp_right (fun h => h hisJob))) (fun _ _ _ _ _ => ?_) ht
      exact safe_return (fun _ _ => trivial)
    · exact safe_return (fun _ _ => trivial)

end Walk

/-! ## Nothing is lost -/

section Runs

variable {env : Env} {conns : List Connection} {job : SyncJob} {id : String} {w w' : World} {m : Move}

theorem ofJob_eventID : ofJob job job.tenantID (eventID job.id id) = true := by
  refine decide_eq_true ⟨rfl, id.toList, ?_⟩
  rw [← String.toList_append]
  unfold eventID
  rw [String.append_empty]

theorem changed_processed : (changed job w w').db.processed (claimKey job id)
    = w.db.processed (claimKey job id) :=
  if_pos ofJob_eventID

theorem changed_deadLetters : (changed job w w').db.deadLetters (letterKey job id)
    = w.db.deadLetters (letterKey job id) :=
  if_pos ofJob_eventID

theorem move_later (hw : Inv conns job id w) (h : move job m w = some w') :
    (rely env conns job id).later w w' := by
  cases m with
  | reopen =>
    cases h
    refine ⟨fun h => h, hw.connections, ?_⟩
    exact rows_updateJob hw.rows (fun h => h) rfl (fun _ => ⟨rfl, rfl, rfl⟩)
      (fun _ _ hcursor => .inr ⟨nofun, hcursor⟩)
  | change f =>
    rw [move] at h
    split_ifs at h with hjobs
    cases h
    have hsettled : Settled job id w → Settled job id (changed job w (f w)) :=
      settled_of_same changed_processed changed_deadLetters
    refine ⟨hsettled, hw.connections, fun j hj hisJob => ?_⟩
    have hmem : j ∈ (f w).db.jobs.filter (isJob job) := List.mem_filter.mpr ⟨hj, hisJob⟩
    rw [hjobs] at hmem
    obtain ⟨hsource, hrow⟩ := hw.rows j (List.mem_filter.mp hmem).1 hisJob
    exact ⟨hsource, hrow.imp_left hsettled⟩

theorem move_processed (h : move job m w = some w') :
    w'.db.processed (claimKey job id) = w.db.processed (claimKey job id) := by
  cases m with
  | reopen =>
    cases h
    rfl
  | change f =>
    rw [move] at h
    split_ifs at h
    cases h
    exact changed_processed

def claims (job : SyncJob) (id : String) : Entry ops GoError → Prop
  | ⟨.process ev, r⟩ => ev.key = claimKey job id ∧ r ≠ .ok .duplicate
  | ⟨.call o, _⟩ => o.writesClaim (claimKey job id) = true

theorem claims_of_claimed {o : Op} (hbefore : ¬ w.db.processed (claimKey job id) = true)
    (hafter : (handle env o w).2.db.processed (claimKey job id) = true) :
    claims job id ⟨o, (handle env o w).1⟩ := by
  cases o with
  | call o =>
    show o.writesClaim (claimKey job id) = true
    by_contra hno
    rw [handle_call, handle_processed (Bool.eq_false_iff.mpr hno)] at hafter
    exact hbefore hafter
  | process ev =>
    have hkey : ev.key = claimKey job id := by
      by_contra hne
      have hsame : (handle env (.process ev) w).2.db.processed (claimKey job id) = w.db.processed (claimKey job id) :=
        process_processed_other (Ne.symm hne)
      rw [hsame] at hafter
      exact hbefore hafter
    refine ⟨hkey, fun hduplicate => hbefore ?_⟩
    rw [← hkey]
    exact process_duplicate hduplicate

/-- **A full synchronization loses no record.** Runners take up the job any number of times, crash between two
    operations, and everything else goes on. A record that is there whenever they act, and for which no
    `Process` fails and the dead letter is stored, was applied or has an open dead letter once the job has
    completed. -/
theorem record_kept {acts : List (Effect.Act Nat Move)} {c : Pool ops GoError Nat World}
    (hjob : ∀ j ∈ w.db.jobs, isJob job j = true → j = job) (hstatus : job.status ≠ .completed)
    (hcursor : job.cursor = none) (hunclaimed : w.db.processed (claimKey job id) = false)
    (hrun : Run (Pool.step (runners env job)) (Pool.permits (Fair env job id) (fun _ _ => True))
      ⟨[], w⟩ acts c) (hcompleted : ∃ j ∈ c.state.db.jobs, isJob job j = true ∧ j.status = .completed) :
    (∃ t ∈ c.threads, Applied job id t.log) ∨ Parked job id c.state := by
  have hinv : Inv w.db.connections job id w := by
    refine ⟨rfl, fun j hj hisJob => ?_⟩
    rw [hjob j hj hisJob, hcursor]
    exact ⟨rfl, .inr ⟨hstatus, .inl rfl⟩⟩
  have hsafe : Pool.Safe (rely env w.db.connections job id)
    (fun _ => ⟨may env job id, fun _ _ _ => True⟩) c :=
    Pool.safe_run rfl (fun _ _ hw _ => resume_safe hw) (fun _ _ _ hw h => move_later hw h) hrun
      (Pool.safe_nil hinv)
  obtain ⟨j, hj, hisJob, hdone⟩ := hcompleted
  rcases (hsafe.inv.rows j hj hisJob).2.resolve_right (fun h => h.1 hdone) with hclaimed | hparked
  · -- somebody claimed the event, and it was `Process`, which applied it
    left
    obtain ⟨t, ht, ⟨op, answer⟩, he, hclaims⟩ :=
      Pool.exists_author (Q := fun w => w.db.processed (claimKey job id) = true) hrun
      (fun _ _ hbefore hafter => claims_of_claimed hbefore hafter)
      (fun _ _ _ hbefore h hafter => hbefore ((move_processed h).symm.trans hafter)) (by rw [hunclaimed]; nofun) hclaimed
    obtain ⟨pre, post, hlog⟩ := List.append_of_mem he
    obtain ⟨s, _, hmay, hanswer⟩ := hsafe.made t ht pre _ post hlog
    cases op with
    | call o =>
      exact absurd hclaims (Bool.eq_false_iff.mp (hmay _))
    | process ev =>
      obtain ⟨hid, hsucceeds⟩ := hmay hclaims.1
      refine ⟨t, ht, ev, ?_, hclaims.1, hid⟩
      have happlied : answer = .ok .applied := by
        rcases hsucceeds hclaims.1 with h | h
        · exact hanswer.trans h
        · exact absurd (hanswer.trans h) hclaims.2
      rwa [← happlied]
  · exact .inr hparked

end Runs

/-! ## Two records -/

section Examples

instance {job : SyncJob} {id : String} {w : World} : Decidable (Present job id w) := List.decidableBAll _ _

/-- Tests for `Succeeds` and `Fair`. -/
def succeeds (env : Env) (job : SyncJob) (id : String) (w : World) : Op → Bool
  | .process ev => ev.key ≠ claimKey job id ∨
      (Prog.run (World.handle env) (process env ev) w).1.toOption = some .applied
  | .call (.store (.insertDeadLetter d)) => d.key ≠ letterKey job id ∨ (w.storeTape w.calls).toOption.isSome
  | _ => true

def fair (env : Env) (job : SyncJob) (id : String) (o : Op) (w : World) :
    Bool := Present job id w ∧ succeeds env job id w o

variable {env : Env} {id : String}

theorem succeeds_of_test {job : SyncJob} {o : Op} {w : World} (h : succeeds env job id w o = true) : Succeeds env job id w o := by
  cases o with
  | process ev => exact fun hkey => .inl (ok_of_toOption ((of_decide_eq_true h).resolve_left (fun hne => hne hkey)))
  | call o =>
    cases o with
    | store s =>
      cases s with
      | insertDeadLetter d =>
        intro hkey
        obtain ⟨pick, hpick⟩ := Option.isSome_iff_exists.mp ((of_decide_eq_true h).resolve_left (fun hne => hne hkey))
        exact ⟨pick, ok_of_toOption hpick⟩
      | _ => trivial
    | _ => trivial

theorem permits_of_test {job : SyncJob} {c : Pool ops GoError Nat World} {a : Effect.Act Nat Move}
    (h : Pool.permitted (fair env job id) c a = true) :
    Pool.permits (Fair env job id) (fun _ _ => True) c a := by
  have hpermits := Pool.permits_of_permitted h
  cases a with
  | fire i =>
    intro t o ht ho
    obtain ⟨hpresent, hsucceeds⟩ := of_decide_eq_true (hpermits t o ht ho)
    exact ⟨hpresent, succeeds_of_test hsucceeds⟩
  | _ => trivial

def annJob : SyncJob :=
  { id := "j1", tenantID := tenant, source := "salesforce", destination := "hubspot", type := .initial,
    batchSize := 1 }

def annRecord (id first : String) : SimRecord :=
  { id, version := 1, updatedAt := 1, deleted := false, data := record salesforce first "Lee" "ann@x" }

/-- Salesforce holds Ann and a malformed record; provider request number `n` fails. -/
def office (n : Option Nat) : World :=
  let w := world [policy "salesforce" "hubspot"]
  { w with
    db := { w.db with jobs := [annJob] }
    sims := fun ep =>
      if ep = Deployment.sf then
        { sims ep with records := (Relational.Table.empty.upsert (annRecord "sf-1" "Ann")).upsert (annRecord "sf-2" "") }
      else sims ep
    providerTape := fun i => if n = some i then some { kind := .transient, message := "down" } else none }

def annRunners : Pool.Setup ops GoError Nat World Move := runners Deployment.env annJob

def fires (i n : Nat) : List (Effect.Act Nat Move) := List.replicate n (.fire i)

def completed (c : Pool ops GoError Nat World) :
    Bool := c.state.db.jobs.any (fun j => isJob annJob j ∧ j.status = .completed)

theorem completed_of_test {c : Pool ops GoError Nat World} (h : completed c = true) :
    ∃ j ∈ c.state.db.jobs, isJob annJob j = true ∧ j.status = .completed := by
  obtain ⟨j, hj, htest⟩ := List.any_eq_true.mp h
  exact ⟨j, hj, of_decide_eq_true htest⟩

def crash : List (Effect.Act Nat Move) :=
  [.start 5] ++ fires 0 10 ++ [.move (.change (fun w => { w with now := 61000000000 })),
    .start 5] ++ fires 1 12

theorem record_kept_twice : ∃ c : Pool ops GoError Nat World,
    Run (Pool.step annRunners) (Pool.permits (Fair Deployment.env annJob "sf-2") (fun _ _ => True))
    ⟨[], office none⟩ crash c ∧ ((∃ t ∈ c.threads, Applied annJob "sf-2" t.log) ∨
      Parked annJob "sf-2" c.state) := by
  refine Transition.exists_run (b := Pool.permitted (fair Deployment.env annJob "sf-2")) (f := completed)
    (by decide +kernel) (fun _ _ h => permits_of_test h) (fun c hrun htest => ?_)
  exact record_kept (by decide +kernel) (by decide) rfl rfl hrun (completed_of_test htest)

def applied (job : SyncJob) (id : String) (log : List (Entry ops GoError)) : Bool :=
  log.any (fun e =>
    match e with
    | ⟨.process ev, .ok .applied⟩ => ev.key = claimKey job id
    | _ => false)

theorem not_applied {job : SyncJob} {log : List (Entry ops GoError)} (h : applied job id log = false) :
    ¬ Applied job id log := by
  rintro ⟨ev, hmem, hkey, _⟩
  exact absurd (decide_eq_true hkey) (List.any_eq_false.mp h _ hmem)

/-- **A record is lost.** HubSpot is down for one request. `Process` fails, the runner goes on and completes
    the job: Ann was in Salesforce all the time, was not applied, and is neither in the retry queue nor a dead
    letter. -/
theorem record_lost : ∃ c : Pool ops GoError Nat World,
    Run (Pool.step annRunners) (fun c _ => Present annJob "sf-1" c.state) ⟨[], office (some 16)⟩
    ([.start 5] ++ fires 0 16) c ∧ (∃ j ∈ c.state.db.jobs, isJob annJob j = true ∧ j.status = .completed) ∧
    Present annJob "sf-1" c.state ∧ (∀ t ∈ c.threads, ¬ Applied annJob "sf-1" t.log) ∧
    c.state.db.retryQueue.rows = [] ∧ c.state.db.deadLetters (letterKey annJob "sf-1") = none := by
  refine Transition.exists_run (b := fun c _ => Present annJob "sf-1" c.state) (f := fun c => completed c &&
    decide (Present annJob "sf-1" c.state ∧ (∀ t ∈ c.threads, applied annJob "sf-1" t.log = false) ∧
      c.state.db.retryQueue.rows.isEmpty = true ∧ (c.state.db.deadLetters (letterKey annJob "sf-1")).isNone = true))
    (by decide +kernel) (fun _ _ h => of_decide_eq_true h) (fun c _ htest => ?_)
  obtain ⟨hcompleted, hrest⟩ := Bool.and_eq_true_iff.mp htest
  obtain ⟨hpresent, happlied, hqueue, hletter⟩ := of_decide_eq_true hrest
  exact ⟨completed_of_test hcompleted, hpresent, fun t ht => not_applied (happlied t ht),
    List.isEmpty_iff.mp hqueue, Option.isNone_iff_eq_none.mp hletter⟩

end Examples

end SyncForge.Resume
