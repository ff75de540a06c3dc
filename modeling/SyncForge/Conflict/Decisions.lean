import SyncForge.Conflict.Resolution
import SyncForge.Worker.Interference

/-!
# `Conflict.Decisions` — several decisions about one conflict

Requests that resolve or dismiss a conflict and retry engines run interleaved call by call. A request looks at
the status first and acts later, and an engine works on a copy of the row, so two operators can both have
their way. Without such overlaps (`Orderly`) decisions are final and exclusive.
-/

namespace SyncForge.Decisions

open Effect
open Effect.Prog
open ConflictRecord (Same)
open Transition Store
open Deployment (tenant)
open Rely (free_keeps safe_attempt safe_seq)

/-! ## The system -/

inductive Task where
  | resolve (body : Option String)
  | dismiss
  | engine (batchSize : Int)
deriving DecidableEq

def Task.body (env : Env) (T X : String) : Task → Sync Unit
  | .resolve body => do
    let _ ← Api.handleResolveConflict env T X body
    return ()
  | .dismiss => do
    let _ ← Api.handleDismissConflict T X
    return ()
  | .engine batchSize => do
    let _ ← Retry.drain env batchSize
    return ()

def setup (env : Env) (T X : String) : Pool.Setup sig GoError Task World World where
  handle := World.handle env
  body := Task.body env T X
  move w' w := some { w' with db := { w'.db with retryQueue := w.db.retryQueue, conflicts := w.db.conflicts } }

abbrev Log := List (Entry sig GoError)
abbrev Requests := Pool sig GoError Task World

section

variable (T X : String)

def Concerns (ev : Event) : Prop :=
  ev.tenantID = T ∧ (ev.provenance.resolvedConflictID = X ∨ ev.eventID = "resolve:" ++ X)

def Holds (r : RetryEntry) (ev : Event) : Prop := r.state.unmarshal = .ok ev ∧ Concerns T X ev

def Given (log : Log) (r : RetryEntry) : Prop :=
  ∃ limit due, (⟨.store (.claimDueRetries limit), .ok due⟩ : Entry sig GoError) ∈ log ∧ r ∈ due

def enqueues : Call → Bool
  | .store (.enqueueRetry _ _) => true
  | _ => false

def GivenIn (c : Requests) (r : RetryEntry) : Prop := ∃ t ∈ c.threads, Given t.log r

def Known (c : Requests) (r : RetryEntry) : Prop := r ∈ c.state.db.retryQueue.rows ∨ GivenIn c r

def Asked (c : Requests) : Prop :=
  ∃ t ∈ c.threads, (∃ body, t.task = .resolve body) ∧ Pool.Calls (fun o => enqueues o = true) t.log

def Stands (status : ConflictStatus) (w : World) : Prop :=
  ∃ c ∈ w.db.conflicts.rows, c.tenantID = T ∧ c.id = X ∧ c.status = status

/-- No decision is taken while another is under way: once an engine was given the event of one side, no
    request for the other side is queued; and a dismissal is written only when every request to resolve has
    ended without queueing. -/
structure Orderly (c : Requests) (a : Effect.Act Task World) : Prop where
  oneSide : ∀ i t body e delay, a = .fire i → c.threads[i]? = some t → t.task = .resolve body →
    t.next? = some (.store (.enqueueRetry e delay)) → ∀ r ev ev', GivenIn c r → Holds T X r ev →
      e.state.unmarshal = .ok ev' → ev'.source = ev.source
  alone : ∀ i t id strategy by_, a = .fire i → c.threads[i]? = some t → t.task = .dismiss →
    t.next? = some (.store (.setConflictStatus T id .dismissed strategy by_)) →
      ∀ u ∈ c.threads, (∃ body, u.task = .resolve body) → u.done = true ∧ ¬ Pool.Calls (fun o => enqueues o = true) u.log

/-! ## What the tasks do -/

def engineMay (log : Log) : Call → Prop
  | .store (.claimProcessedEvent key) => ∃ r, Given log r ∧ ∃ ev, r.state.unmarshal = .ok ev ∧ key = ev.key
  | .store (.enqueueRetry e _) => ∃ r, Given log r ∧ e.key = r.key ∧ e.state = r.state
  | .store (.setConflictStatus tenantID id status _ _) => status = .resolved ∧ ∃ r, Given log r ∧ ∃ ev,
      r.state.unmarshal = .ok ev ∧ tenantID = ev.tenantID ∧ id = ev.provenance.resolvedConflictID
  | _ => True

def resolveMay (log : Log) (o : Call) : Prop :=
  o = .store (.getConflict T X) ∨ o = .timeNow ∨ ∃ e delay, o = .store (.enqueueRetry e delay) ∧
    ∃ c side now, (⟨.store (.getConflict T X), .ok c⟩ : Entry sig GoError) ∈ log ∧ c.status = .pending ∧
      c.id = X ∧ e.key = ⟨T, "resolve:" ++ X⟩ ∧ e.state = .marshal (Api.resolutionEvent T c side now)

def dismissMay (o : Call) : Prop :=
  o = .store (.getConflict T X) ∨ ∃ strategy,
    o = .store (.setConflictStatus T X .dismissed strategy "operator")

def may (task : Task) (log : Log) (o : Call) : Prop :=
  match task with
  | .resolve _ => resolveMay T X log o
  | .dismiss => dismissMay T X o
  | .engine _ => engineMay log o

def promise (task : Task) : Promise sig GoError World Unit :=
    ⟨fun log o _ => may T X task log o, fun _ _ _ => True⟩

end

variable {env : Env} {T X : String} {w : World} {log log' : Log} {r : RetryEntry} {key : EventKey}

abbrev free (env : Env) : Rely sig GoError World := Rely.free (World.handle env)

theorem Given.mono (h : Given log r) (hsub : log ⊆ log') : Given log' r := by
  obtain ⟨limit, due, hmem, hr⟩ := h
  exact ⟨limit, due, hsub hmem, hr⟩

theorem process_safe {ev : Event} (hr : Given log r) (hev : r.state.unmarshal = .ok ev) :
    (free env).safe (fun log o _ => engineMay log o) (process env ev) (fun log' _ _ => log ⊆ log') log w := by
  refine Rely.safe_of_within (I := fun log' _ => log ⊆ log') (Rewrite.process_within (K := Rewrite.anything))
    (fun o t a _ _ ha => ?_) (fun _ _ _ h _ => h)
      (fun log' o t ho _ _ hsub => ⟨?_, free_keeps, List.subset_append_of_subset_left _ hsub⟩)
    (List.Subset.refl _)
  · exact Rewrite.handle_gives (Rewrite.anything_holds _) ha
  · cases o with
    | store s =>
      cases s with
      | claimProcessedEvent key => exact ⟨r, hr.mono hsub, ev, hev, ho⟩
      | setConflictStatus tenantID id status strategy by_ => exact ⟨ho.2.2, r, hr.mono hsub, ev, hev, ho.1, ho.2.1⟩
      | enqueueRetry => exact absurd ho Bool.false_ne_true
      | _ => trivial
    | _ => trivial

theorem safe_of_engineMay {α : Type} {p : Sync α} (hp : Only (engineMay log) p) :
    (free env).safe (fun log o _ => engineMay log o) p (fun log' _ _ => log ⊆ log') log w := by
  refine Rely.safe_of_only (I := fun log' _ => log ⊆ log') hp (fun _ _ _ h _ => h) ?_ (List.Subset.refl _)
  intro log' o t ho _ _ hsub
  refine ⟨?_, free_keeps, List.subset_append_of_subset_left _ hsub⟩
  cases o with
  | store s =>
    cases s with
    | claimProcessedEvent key =>
      obtain ⟨r, hr, hkey⟩ := ho
      exact ⟨r, hr.mono hsub, hkey⟩
    | enqueueRetry e delay =>
      obtain ⟨r, hr, hrow⟩ := ho
      exact ⟨r, hr.mono hsub, hrow⟩
    | setConflictStatus tenantID id status strategy by_ =>
      obtain ⟨hstatus, r, hr, hev⟩ := ho
      exact ⟨hstatus, r, hr.mono hsub, hev⟩
    | _ => trivial
  | _ => trivial

theorem engineMay_handsOff (hr : Given log r) : HandsOff (engineMay log) r.state r.key :=
  ⟨trivial, fun _ _ h => ⟨r, hr, h.symm⟩, fun _ _ => trivial, fun _ _ => trivial⟩

theorem processRetry_safe (hr : Given log r) :
    (free env).safe (fun log o _ => engineMay log o) (Retry.processRetry env r)
    (fun log' _ _ => log ⊆ log') log w := by
  unfold Retry.processRetry
  split
  · exact safe_of_engineMay (only_bind (engineMay_handsOff hr).deadLetter (fun _ => only_tryStmt trivial))
  · rename_i ev hev
    refine safe_attempt (process_safe hr hev) (fun log1 res u hsub _ => ?_) trivial
    refine Rely.safe_mono (safe_of_engineMay ?_) (fun _ _ _ h => List.Subset.trans hsub h)
    split
    · exact only_bind (only_tryStmt trivial) (fun _ => only_tryStmt trivial)
    · exact (engineMay_handsOff (hr.mono hsub)).reschedule trivial

theorem drainRows_safe {rows : List RetryEntry} (hrows : ∀ r ∈ rows, Given log r) :
    (free env).safe (fun log o _ => engineMay log o) (Retry.drainRows env rows)
    (fun _ _ _ => True) log w := by
  induction rows generalizing log w with
  | nil => exact fun _ _ => trivial
  | cons r rest ih =>
    obtain ⟨hr, hrest⟩ := List.forall_mem_cons.mp hrows
    exact safe_seq (processRetry_safe hr) (fun log' _ u hsub _ => ih (fun r hr => (hrest r hr).mono hsub))
      trivial

theorem stmt_safe {s : StoreOp} {may : Log → Call → World → Prop} (hs : ∀ t, may log (.store s) t) :
    (free env).safe may (stmt s) (fun log r _ => ∀ a, r = .ok a →
      (⟨.store s, .ok a⟩ : Entry sig GoError) ∈ log ∧
        ∃ u, (World.handle env (.store s) u).1 = .ok a) log w := by
  refine Rely.safe_perform (fun t _ _ => ⟨hs t, free_keeps, fun u _ a ha => ?_⟩)
  exact ⟨ha ▸ List.mem_concat_self, t, ha⟩

theorem engine_safe {batchSize : Int} :
    (free env).safe (fun log o _ => engineMay log o) (Task.body env T X (.engine batchSize))
    (fun _ _ _ => True) log w := by
  refine safe_seq (Q := fun _ _ _ => True) ?_ (fun _ _ _ _ _ _ _ => trivial) trivial
  refine safe_attempt (stmt_safe (fun _ => trivial)) (fun log due u hdue _ => ?_) trivial
  cases due with
  | error e => exact fun _ _ => trivial
  | ok due =>
    refine safe_seq (drainRows_safe (fun r hr => ?_)) (fun _ _ _ _ _ _ _ => trivial) trivial
    exact ⟨batchSize, due, (hdue due rfl).1, hr⟩

theorem lookup_safe {may : Log → Call → World → Prop} {f : Except GoError ConflictRecord → Sync Api.Response}
    (hmay : ∀ t, may log (.store (.getConflict T X)) t)
    (herror : ∀ log e u, (free env).safe may (f (.error e)) (fun _ _ _ => True) log u)
    (hfound : ∀ log c u, (⟨.store (.getConflict T X), .ok c⟩ : Entry sig GoError) ∈ log → c.tenantID = T →
      c.id = X → (free env).safe may (f (.ok c)) (fun _ _ _ => True) log u) :
    (free env).safe may (do let _ ← attempt (stmt (.getConflict T X)) >>= f; return ())
    (fun _ _ _ => True) log w := by
  refine safe_seq (Q := fun _ _ _ => True) ?_ (fun _ _ _ _ _ _ _ => trivial) trivial
  refine safe_attempt (stmt_safe hmay) (fun log res u hres _ => ?_) trivial
  cases res with
  | error e => exact herror log e u
  | ok c =>
    obtain ⟨hmem, v, hanswer⟩ := hres c rfl
    rcases World.handle_store env v (.getConflict T X) with ⟨text, _, hv⟩ | ⟨pick, _, hv⟩
    · rw [hv] at hanswer
      cases hanswer
    · rw [hv] at hanswer
      have hfind := List.find?_some (Database.rowOrNotFound_ok hanswer)
      obtain ⟨htenant, hid⟩ := of_decide_eq_true hfind
      exact hfound log c u hmem htenant hid

theorem resolve_safe {body : Option String} :
    (free env).safe (fun log o _ => resolveMay T X log o) (Task.body env T X (.resolve body))
    (fun _ _ _ => True) log w := by
  refine lookup_safe (fun _ => .inl rfl) (fun log e u => ?_) (fun log c u hmem htenant hid => ?_)
  · cases e <;> exact fun _ _ => trivial
  · show (free env).safe _ (ite _ _ _) _ _ _
    split_ifs with hpending
    · exact fun _ _ => trivial
    · cases body with
      | none => exact fun _ _ => trivial
      | some side =>
        show (free env).safe _ (ite _ _ _) _ _ _
        split_ifs
        · exact fun _ _ => trivial
        · -- the clock, then the insert
          refine safe_seq (Q := fun log' _ _ => log ⊆ log') ?_ (fun log' now v hsub _ => ?_) trivial
          · refine Rely.safe_perform (fun t _ _ => ⟨.inr (.inl rfl), free_keeps, fun v _ => ?_⟩)
            exact List.subset_append_left _ _
          · refine safe_attempt (Q := fun _ _ _ => True) ?_ (fun _ r _ _ _ => ?_) trivial
            · refine Rely.safe_perform (fun t _ _ => ⟨.inr (.inr ⟨_, _, rfl, ?_⟩), free_keeps, fun _ _ => trivial⟩)
              refine ⟨c, side = "a", now, hsub hmem, not_ne_iff.mp hpending, hid, ?_, rfl⟩
              rw [← hid]
              rfl
            · cases r <;> exact fun _ _ => trivial

theorem dismiss_safe : (free env).safe (fun _ o _ => dismissMay T X o) (Task.body env T X .dismiss)
    (fun _ _ _ => True) log w := by
  refine lookup_safe (fun _ => .inl rfl) (fun log e u => ?_) (fun log c u hmem htenant hid => ?_)
  · cases e <;> exact fun _ _ => trivial
  · show (free env).safe _ (ite _ _ _) _ _ _
    split_ifs with hpending
    · exact fun _ _ => trivial
    · refine safe_attempt (stmt_safe (fun _ => .inr ⟨_, rfl⟩)) (fun _ r _ _ _ => ?_) trivial
      cases r <;> exact fun _ _ => trivial

/-- Every program keeps its promise, whatever the others do in between. -/
theorem body_safe (task : Task) : (free env).safe (promise T X task).may (task.body env T X)
    (promise T X task).post [] w := by
  cases task with
  | resolve body => exact resolve_safe
  | dismiss => exact dismiss_safe
  | engine batchSize => exact engine_safe

/-! ## What a call does to the two tables -/

section

variable {conflict : ConflictRecord} {status : ConflictStatus} {o : Call} {r : RetryEntry} {c' : Requests}

open Resolution (Filed)

theorem handle_queue (hr : r ∈ (World.handle env o w).2.db.retryQueue.rows) :
    r ∈ w.db.retryQueue.rows ∨ ∃ e delay, o = .store (.enqueueRetry e delay) ∧ r.key = e.key ∧
    r.state = e.state := by
  rcases @World.handle_db env w o with hdb | ⟨s, pick, rfl, _, hdb⟩
  · rw [hdb] at hr
    exact .inl hr
  · rw [hdb] at hr
    cases s with
    | enqueueRetry e delay =>
      rcases Relational.Table.mem_upsert.mp hr with rfl | ⟨hold, _⟩
      · refine .inr ⟨e, delay, rfl, ?_⟩
        unfold Database.retryRow
        split <;> exact ⟨rfl, rfl⟩
      · exact .inl hold
    | deleteRetry key => exact .inl (Relational.Table.mem_delete.mp hr).1
    | _ => exact .inl hr

theorem handle_due {limit : Int} {due : List RetryEntry}
    (hdue : (World.handle env (.store (.claimDueRetries limit)) w).1 = .ok due) (hr : r ∈ due) :
    r ∈ w.db.retryQueue.rows := by
  rcases World.handle_store env w (.claimDueRetries limit) with ⟨text, _, h⟩ | ⟨pick, _, h⟩
  · rw [h] at hdue
    cases hdue
  · rw [h] at hdue
    rw [← Except.ok.inj hdue] at hr
    have hmem := List.mem_of_mem_take hr
    rw [List.mem_insertionSort] at hmem
    exact List.mem_of_mem_filter hmem

theorem stands_unique {status' : ConflictStatus} (h : w.db.DistinctConflicts) (hs : Stands T X status w)
    (hs' : Stands T X status' w) : status = status' := by
  obtain ⟨c, hc, ht, hi, rfl⟩ := hs
  obtain ⟨c', hc', ht', hi', rfl⟩ := hs'
  rw [h c hc c' hc' (ht.trans ht'.symm) (hi.trans hi'.symm)]

theorem stands_kept (h : Stands T X status w)
    (hset : status = .dismissed ∨ ∀ status' strategy by_,
      o = .store (.setConflictStatus T X status' strategy by_) → status' = status) :
      Stands T X status (World.handle env o w).2 := by
  obtain ⟨c, hc, hct, hci, rfl⟩ := h
  obtain ⟨c', hc', hsame, hchange⟩ := @World.handle_conflicts env w c o hc
  refine ⟨c', hc', (congrArg ConflictKey.tenantID hsame.key).trans hct, hsame.id.trans hci, ?_⟩
  rcases hchange with rfl | ⟨hlive, strategy, by_, ho⟩
  · rfl
  · rw [hct, hci] at ho
    exact (hset.resolve_left hlive) _ strategy by_ ho

theorem read_status {c : ConflictRecord} (h : w.db.DistinctConflicts) (hs : Stands T X status w)
    (hread : (World.handle env (.store (.getConflict T X)) w).1 = .ok c) : c.status = status := by
  rcases World.handle_store env w (.getConflict T X) with ⟨text, _, hw⟩ | ⟨pick, _, hw⟩
  · rw [hw] at hread
    cases hread
  · rw [hw] at hread
    have hfind := Database.rowOrNotFound_ok hread
    have hmatch := List.find?_some hfind
    obtain ⟨hct, hci⟩ := of_decide_eq_true hmatch
    exact stands_unique h ⟨c, List.mem_of_find?_eq_some hfind, hct, hci, rfl⟩ hs

theorem stands_handle (h : Filed conflict w)
    (hs : Stands conflict.tenantID conflict.id status (World.handle env o w).2) :
      Stands conflict.tenantID conflict.id status w ∨ ∃ strategy by_,
      o = .store (.setConflictStatus conflict.tenantID conflict.id status strategy by_) := by
  obtain ⟨hdistinct, c, hc, hsame⟩ := h
  have hct : c.tenantID = conflict.tenantID := congrArg ConflictKey.tenantID hsame.key
  obtain ⟨c', hc', hsame', hchange⟩ := @World.handle_conflicts env w c o hc
  have hct' : c'.tenantID = c.tenantID := congrArg ConflictKey.tenantID hsame'.key
  have hstatus : c'.status = status :=
    stands_unique (World.handle_distinct hdistinct) ⟨c', hc', hct'.trans hct, hsame'.id.trans hsame.id,
      rfl⟩ hs
  rcases hchange with rfl | ⟨_, strategy, by_, ho⟩
  · exact .inl ⟨c', hc, hct, hsame.id, hstatus⟩
  · rw [hct, hsame.id, hstatus] at ho
    exact .inr ⟨strategy, by_, ho⟩

theorem stands_dismissed {strategy : Conflict.Strategy} {by_ : String} (h : Filed conflict w)
    (hok : (World.handle env (.store (.setConflictStatus conflict.tenantID conflict.id .dismissed strategy
      by_)) w).1 = .ok ()) : Stands conflict.tenantID conflict.id .dismissed
      (World.handle env (.store (.setConflictStatus conflict.tenantID conflict.id .dismissed strategy by_)) w).2 := by
  obtain ⟨hdistinct, c, hc, hsame⟩ := h
  have hct : c.tenantID = conflict.tenantID := congrArg ConflictKey.tenantID hsame.key
  by_cases hstatus : c.status = .dismissed
  · exact stands_kept ⟨c, hc, hct, hsame.id, hstatus⟩ (.inl rfl)
  · rcases World.handle_store env w (.setConflictStatus conflict.tenantID conflict.id .dismissed strategy
      by_) with
      ⟨text, _, hw⟩ | ⟨pick, _, hw⟩
    · rw [hw] at hok
      cases hok
    · rw [hw]
      obtain ⟨c', hc', hsame', hset⟩ :=
        @Database.DistinctConflicts.status_setConflict w.db c .dismissed strategy by_ hdistinct hc hstatus
      rw [hct, hsame.id] at hc'
      exact ⟨c', hc', (congrArg ConflictKey.tenantID hsame'.key).trans hct, hsame'.id.trans hsame.id, hset⟩

/-! ## What the logs and the tables know of each other -/

def Dismissed (T X : String) (log : Log) : Prop :=
  ∃ strategy, (⟨.store (.setConflictStatus T X .dismissed strategy "operator"), .ok ()⟩ : Entry sig GoError)
    ∈ log

def Refused (T X : String) (t : Thread sig GoError Task) : Prop :=
  ¬ Pool.Calls (fun o => enqueues o = true) t.log ∧
    (t.done = true ∨ ∀ c, (⟨.store (.getConflict T X), .ok c⟩ : Entry sig GoError) ∈ t.log →
      c.status ≠ .pending)

structure Inv (conflict : ConflictRecord) (c : Requests) : Prop where
  filed : Filed conflict c.state
  /-- the conflict's events are in one row, and come from a request -/
  rows : ∀ r ev, Known c r → Holds conflict.tenantID conflict.id r ev →
    r.key = ⟨conflict.tenantID, "resolve:" ++ conflict.id⟩ ∧ Asked c
  /-- engines were given events of one side only, and will be -/
  oneSide : ∀ r ev r' ev', GivenIn c r → Holds conflict.tenantID conflict.id r ev → Known c r' →
    Holds conflict.tenantID conflict.id r' ev' → ev'.source = ev.source
  resolved : Stands conflict.tenantID conflict.id .resolved c.state → Asked c
  /-- a dismissed conflict has no event -/
  refused : Stands conflict.tenantID conflict.id .dismissed c.state →
    ∀ t ∈ c.threads, (∃ body, t.task = .resolve body) → Refused conflict.tenantID conflict.id t
  success : ∀ t ∈ c.threads, t.task = .dismiss → Dismissed conflict.tenantID conflict.id t.log →
    Stands conflict.tenantID conflict.id .dismissed c.state

section

variable {c : Requests} {i : Nat} {t : Thread sig GoError Task} {k : Except GoError (sig.Res o) → Sync Unit}

/-- The pool after thread `i` made its call. -/
def fire (env : Env) (c : Requests) (i : Nat) (t : Thread sig GoError Task) (o : Call)
    (k : Except GoError (sig.Res o) → Sync Unit) : Requests :=
  ⟨c.threads.set i ⟨t.task, t.log ++ [⟨o, (World.handle env o c.state).1⟩], k (World.handle env o c.state).1⟩,
    (World.handle env o c.state).2⟩

variable (hi : c.threads[i]? = some t) {r : RetryEntry} {body : Option String}

include hi

theorem given_fire (h : GivenIn (fire env c i t o k) r) :
    GivenIn c r ∨ r ∈ c.state.db.retryQueue.rows ∧ ∃ limit, o = .store (.claimDueRetries limit) := by
  obtain ⟨u, hu, limit, due, hmem, hr⟩ := h
  rcases List.mem_or_eq_of_mem_set hu with hu | rfl
  · exact .inl ⟨u, hu, limit, due, hmem, hr⟩
  · rcases List.mem_append.mp hmem with hmem | hnew
    · exact .inl ⟨t, List.mem_of_getElem? hi, limit, due, hmem, hr⟩
    · obtain ⟨rfl, hanswer⟩ := Entry.mk.inj (List.mem_singleton.mp hnew)
      exact .inr ⟨handle_due (eq_of_heq hanswer).symm hr, limit, rfl⟩

theorem known_fire (h : Known (fire env c i t o k) r) :
    Known c r ∨ ∃ e delay, o = .store (.enqueueRetry e delay) ∧ r.key = e.key ∧ r.state = e.state := by
  rcases h with hqueue | hgiven
  · exact (handle_queue hqueue).imp_left Or.inl
  · exact .inl ((given_fire hi hgiven).elim .inr (fun h => .inl h.1))

theorem grows_fire {u : Thread sig GoError Task} (hprog : t.prog = .call o k) (hu : u ∈ c.threads) :
    ∃ u' ∈ (fire env c i t o k).threads, u'.task = u.task ∧ u.log ⊆ u'.log := by
  refine Pool.step_grows (P := setup env "" "") (c := c) (a := .fire i) ?_ hu
  simp only [Pool.step, hi, Pool.fired, hprog, Option.map_some]
  rfl

theorem asked_fire (hprog : t.prog = .call o k) (h : Asked c) : Asked (fire env c i t o k) := by
  obtain ⟨u, hu, ⟨body, htask⟩, e, he, hop⟩ := h
  obtain ⟨u', hu', htask', hlog⟩ := grows_fire hi hprog hu
  exact ⟨u', hu', ⟨body, htask'.trans htask⟩, e, hlog he, hop⟩

theorem refused_fire (h : Inv conflict c) (hs : Stands conflict.tenantID conflict.id .dismissed c.state)
    (hown : ∀ body, t.task = .resolve body → Refused conflict.tenantID conflict.id t →
      Refused conflict.tenantID conflict.id
        ⟨t.task, t.log ++ [⟨o, (World.handle env o c.state).1⟩], k (World.handle env o c.state).1⟩) :
    ∀ u ∈ (fire env c i t o k).threads, (∃ body, u.task = .resolve body) →
    Refused conflict.tenantID conflict.id u := by
  intro u hu hbody
  rcases List.mem_or_eq_of_mem_set hu with hold | rfl
  · exact h.refused hs u hold hbody
  · obtain ⟨body, htask⟩ := hbody
    exact hown body htask (h.refused hs t (List.mem_of_getElem? hi) ⟨body, htask⟩)

variable (hprog : t.prog = .call o k)

include hprog

section

variable (h : Inv conflict c)
include h

theorem Inv.fire_other
    (hrow : ∀ e delay, o = .store (.enqueueRetry e delay) → ∃ r, GivenIn c r ∧ e.key = r.key ∧
      e.state = r.state)
    (hresolved : ∀ strategy by_, o = .store
      (.setConflictStatus conflict.tenantID conflict.id .resolved strategy by_) → Asked c)
    (hrefused : Stands conflict.tenantID conflict.id .dismissed (World.handle env o c.state).2 →
      ∀ u ∈ (fire env c i t o k).threads, (∃ body, u.task = .resolve body) → Refused conflict.tenantID conflict.id u)
    (hsuccess : t.task = .dismiss → Dismissed conflict.tenantID conflict.id
      (t.log ++ [⟨o, (World.handle env o c.state).1⟩]) →
      Stands conflict.tenantID conflict.id .dismissed (World.handle env o c.state).2) :
    Inv conflict (fire env c i t o k) where
  filed := h.filed.handle
  rows r ev hknown hholds := by
    rcases known_fire hi hknown with hold | ⟨e, delay, ho, hkey, hstate⟩
    · obtain ⟨hkey, hasked⟩ := h.rows r ev hold hholds
      exact ⟨hkey, asked_fire hi hprog hasked⟩
    · obtain ⟨r0, hr0, hkey0, hstate0⟩ := hrow e delay ho
      obtain ⟨hkey', hasked⟩ := h.rows r0 ev (.inr hr0) ⟨by rw [← hstate0, ← hstate]; exact hholds.1, hholds.2⟩
      exact ⟨hkey.trans (hkey0.trans hkey'), asked_fire hi hprog hasked⟩
  oneSide r ev r' ev' hgiven hholds hknown hholds' := by
    -- the row that was put is one that was given
    have hold : ∃ r1, Known c r1 ∧ Holds conflict.tenantID conflict.id r1 ev' := by
      rcases known_fire hi hknown with hold | ⟨e, delay, ho, _, hstate⟩
      · exact ⟨r', hold, hholds'⟩
      · obtain ⟨r0, hr0, _, hstate0⟩ := hrow e delay ho
        exact ⟨r0, .inr hr0, by rw [← hstate0, ← hstate]; exact hholds'.1, hholds'.2⟩
    obtain ⟨r1, hr1, hholds1⟩ := hold
    rcases given_fire hi hgiven with hbefore | ⟨hqueue, _⟩
    · exact h.oneSide r ev r1 ev' hbefore hholds hr1 hholds1
    · rcases hr1 with hqueue1 | hgiven1
      · -- the queue has one row of the conflict
        have hkey := (h.rows r ev (.inl hqueue) hholds).1
        have hkey1 := (h.rows r1 ev' (.inl hqueue1) hholds1).1
        have hget := Relational.Table.get?_of_mem hqueue
        rw [hkey, ← hkey1, Relational.Table.get?_of_mem hqueue1] at hget
        cases hget
        cases hholds.1.symm.trans hholds1.1
        rfl
      · exact (h.oneSide r1 ev' r ev hgiven1 hholds1 (.inl hqueue) hholds).symm
  resolved hs := by
    rcases stands_handle h.filed hs with hold | ⟨strategy, by_, ho⟩
    · exact asked_fire hi hprog (h.resolved hold)
    · exact asked_fire hi hprog (hresolved strategy by_ ho)
  refused := hrefused
  success u hu htask hdone := by
    rcases List.mem_or_eq_of_mem_set hu with hold | rfl
    · exact stands_kept (h.success u hold htask hdone) (.inl rfl)
    · exact hsuccess htask hdone

theorem Inv.engine {batchSize : Int} (htask : t.task = .engine batchSize) (hmay : engineMay t.log o) :
    Inv conflict (fire env c i t o k) := by
  have hgiven : ∀ r, Given t.log r → GivenIn c r := fun r hr => ⟨t, List.mem_of_getElem? hi, hr⟩
  have hstatus : ∀ status strategy by_, o
    = .store (.setConflictStatus conflict.tenantID conflict.id status strategy by_) →
      status = .resolved ∧ Asked c := by
    rintro status strategy by_ rfl
    obtain ⟨hstatus, r, hr, ev, hev, htenant, hid⟩ := hmay
    exact ⟨hstatus, (h.rows r ev (.inr (hgiven r hr)) ⟨hev, htenant.symm, .inl hid.symm⟩).2⟩
  refine h.fire_other hi hprog ?_ (fun strategy by_ ho => (hstatus _ strategy by_ ho).2) (fun hs => ?_)
    (fun hd => ?_)
  · rintro e delay rfl
    obtain ⟨r, hr, hrow⟩ := hmay
    exact ⟨r, hgiven r hr, hrow⟩
  · refine refused_fire hi h ?_ (fun body hbody => nomatch htask.symm.trans hbody)
    rcases stands_handle h.filed hs with hold | ⟨strategy, by_, ho⟩
    · exact hold
    · exact nomatch (hstatus _ strategy by_ ho).1
  · exact nomatch htask.symm.trans hd

theorem Inv.dismiss (htask : t.task = .dismiss) (hmay : dismissMay conflict.tenantID conflict.id o)
    (horder : Orderly conflict.tenantID conflict.id c (.fire i)) : Inv conflict (fire env c i t o k) := by
  have hother : ∀ {body}, t.task ≠ .resolve body := fun hbody => nomatch htask.symm.trans hbody
  rcases hmay with rfl | ⟨strategy, rfl⟩
  · refine h.fire_other hi hprog (fun _ _ ho => nomatch ho) (fun _ _ ho => nomatch ho) (fun hs => ?_)
      (fun _ hd => ?_)
    · have hold := (stands_handle h.filed hs).resolve_right (fun ⟨_, _, ho⟩ => nomatch ho)
      exact refused_fire hi h hold (fun body hbody => absurd hbody hother)
    · obtain ⟨strategy, hmem⟩ := hd
      have hmem := (List.mem_append.mp hmem).resolve_right (fun hnew => nomatch (Entry.mk.inj (List.mem_singleton.mp hnew)).1)
      exact stands_kept (h.success t (List.mem_of_getElem? hi) htask ⟨strategy, hmem⟩) (.inl rfl)
  · refine h.fire_other hi hprog (fun _ _ ho => nomatch ho) (fun _ _ ho => nomatch ho)
      (fun _ u hu hbody => ?_) (fun _ hd => ?_)
    · -- no request to resolve is under way
      rcases List.mem_or_eq_of_mem_set hu with hold | rfl
      · obtain ⟨hdone, hnone⟩ := horder.alone i t _ strategy _ rfl hi htask (Thread.next_eq hprog) u hold hbody
        exact ⟨hnone, .inl hdone⟩
      · exact absurd hbody.choose_spec hother
    · obtain ⟨strategy', hmem⟩ := hd
      rcases List.mem_append.mp hmem with hmem | hnew
      · exact stands_kept (h.success t (List.mem_of_getElem? hi) htask ⟨strategy', hmem⟩) (.inl rfl)
      · obtain ⟨_, hanswer⟩ := Entry.mk.inj (List.mem_singleton.mp hnew)
        exact stands_dismissed h.filed (eq_of_heq hanswer).symm

theorem Inv.resolve_read (htask : t.task = .resolve body)
    (ho : o = .store (.getConflict conflict.tenantID conflict.id) ∨ o = .timeNow) :
    Inv conflict (fire env c i t o k) := by
  have hset : ∀ status strategy by_,
      o ≠ .store (.setConflictStatus conflict.tenantID conflict.id status strategy by_) := by
    rcases ho with rfl | rfl <;> exact fun _ _ _ => nofun
  refine h.fire_other hi hprog (fun e delay he => ?_) (fun strategy by_ hs => absurd hs (hset _ strategy by_))
    (fun hs => ?_) (fun hd => nomatch htask.symm.trans hd)
  · rcases ho with rfl | rfl <;> cases he
  · have hold := (stands_handle h.filed hs).resolve_right (fun ⟨strategy, by_, ho⟩ => hset _ strategy by_ ho)
    refine refused_fire hi h hold (fun _ _ hrefused => ⟨fun hcalls => ?_, .inr (fun c' hmem => ?_)⟩)
    · rcases Pool.calls_snoc.mp hcalls with hcalls | hnew
      · exact hrefused.1 hcalls
      · rcases ho with rfl | rfl <;> cases hnew
    · rcases List.mem_append.mp hmem with hmem | hnew
      · exact (hrefused.2.resolve_left (by rw [Thread.not_done hprog]; exact Bool.false_ne_true)) c' hmem
      · -- it reads that the conflict is dismissed
        obtain ⟨rfl, hanswer⟩ := Entry.mk.inj (List.mem_singleton.mp hnew)
        rw [read_status h.filed.1 hold (eq_of_heq hanswer).symm]
        exact nofun

theorem Inv.resolve_queue {e : RetryEntry} {delay : Duration}
    (htask : t.task = .resolve body) (ho : o = .store (.enqueueRetry e delay))
    (hmay : ∃ c1 side now, (⟨.store (.getConflict conflict.tenantID conflict.id), .ok c1⟩ : Entry sig GoError)
      ∈ t.log ∧
      c1.status = .pending ∧ c1.id = conflict.id ∧ e.key = ⟨conflict.tenantID, "resolve:" ++ conflict.id⟩ ∧
        e.state = .marshal (Api.resolutionEvent conflict.tenantID c1 side now))
    (horder : Orderly conflict.tenantID conflict.id c (.fire i)) : Inv conflict (fire env c i t o k) := by
  obtain ⟨c1, side, now, hread, hpending, _, hkey, hstate⟩ := hmay
  have hset : ∀ status strategy by_,
      o ≠ .store (.setConflictStatus conflict.tenantID conflict.id status strategy by_) := by
    subst ho
    exact fun _ _ _ => nofun
  have hgiven : ∀ r, GivenIn (fire env c i t o k) r → GivenIn c r := by
    intro r hr
    refine (given_fire hi hr).resolve_right (fun ⟨_, limit, hlimit⟩ => ?_)
    subst ho
    cases hlimit
  have hasked : Asked (fire env c i t o k) := by
    refine ⟨_, List.mem_set (List.getElem?_eq_some_iff.mp hi).1 _, ⟨body, htask⟩,
      Pool.calls_snoc.mpr (.inr ?_)⟩
    rw [ho]
    rfl
  have hput : ∀ r, Known (fire env c i t o k) r → Known c r ∨ r.key = e.key ∧ r.state = e.state := by
    intro r hr
    refine (known_fire hi hr).imp_right (fun ⟨e', delay', ho', hrow⟩ => ?_)
    subst ho
    cases ho'
    exact hrow
  refine ⟨h.filed.handle, fun r ev hknown hholds => ⟨?_, hasked⟩,
    fun r ev r' ev' hr hholds hknown hholds' => ?_,
    fun _ => hasked, fun hs => ?_, fun u hu hdismiss hd => ?_⟩
  · exact (hput r hknown).elim (fun hold => (h.rows r ev hold hholds).1) (fun hnew => hnew.1.trans hkey)
  · rcases hput r' hknown with hold | ⟨_, hstate'⟩
    · exact h.oneSide r ev r' ev' (hgiven r hr) hholds hold hholds'
    · refine horder.oneSide i t body e delay rfl hi htask ?_ r ev ev' (hgiven r hr) hholds (hstate' ▸ hholds'.1)
      rw [Thread.next_eq hprog, ho]
  · -- a request that saw the conflict pending would not be refused
    have hold := (stands_handle h.filed hs).resolve_right (fun ⟨strategy, by_, ho⟩ => hset _ strategy by_ ho)
    have hrefused := (h.refused hold t (List.mem_of_getElem? hi) ⟨body, htask⟩).2.resolve_left
      (by rw [Thread.not_done hprog]; exact Bool.false_ne_true)
    exact absurd hpending (hrefused c1 hread)
  · rcases List.mem_or_eq_of_mem_set hu with hold | rfl
    · exact stands_kept (h.success u hold hdismiss hd) (.inl rfl)
    · exact nomatch htask.symm.trans hdismiss

end

theorem Inv.fire (h : Inv conflict c) (hmay : may conflict.tenantID conflict.id t.task t.log o)
    (horder : Orderly conflict.tenantID conflict.id c (.fire i)) :
    Inv conflict (Decisions.fire env c i t o k) := by
  cases htask : t.task with
  | resolve body =>
    rw [htask] at hmay
    rcases hmay with ho | ho | ⟨e, delay, ho, hmay⟩
    · exact h.resolve_read hi hprog htask (.inl ho)
    · exact h.resolve_read hi hprog htask (.inr ho)
    · exact h.resolve_queue hi hprog htask ho hmay horder
  | dismiss =>
    rw [htask] at hmay
    exact h.dismiss hi hprog htask hmay horder
  | engine batchSize =>
    rw [htask] at hmay
    exact h.engine hi hprog htask hmay

end

variable {c : Requests}

theorem Inv.frame (h : Inv conflict c) (hconflicts : c'.state.db.conflicts = c.state.db.conflicts)
    (hqueue : c'.state.db.retryQueue = c.state.db.retryQueue)
    (hthreads : ∀ t ∈ c'.threads, t ∈ c.threads ∨ t.log = []) (hold : ∀ t ∈ c.threads, t ∈ c'.threads) :
    Inv conflict c' := by
  have hgiven : ∀ r, GivenIn c' r → GivenIn c r := by
    rintro r ⟨t, ht, limit, due, hmem, hr⟩
    rcases hthreads t ht with ht | hlog
    · exact ⟨t, ht, limit, due, hmem, hr⟩
    · rw [hlog] at hmem
      cases hmem
  have hknown : ∀ r, Known c' r → Known c r := by
    intro r hr
    refine hr.imp (fun hrow => ?_) (hgiven r)
    rwa [hqueue] at hrow
  have hasked : Asked c → Asked c' := fun ⟨t, ht, hrest⟩ => ⟨t, hold t ht, hrest⟩
  have hstands : ∀ status, Stands conflict.tenantID conflict.id status c'.state ↔
      Stands conflict.tenantID conflict.id status c.state := by
    intro status
    unfold Stands
    rw [hconflicts]
  refine ⟨?_, fun r ev hr hholds => ?_, fun r ev r' ev' hr hholds hr' hholds' => ?_, fun hs => ?_,
    fun hs t ht hbody => ?_, fun t ht hdismiss hd => ?_⟩
  · unfold Filed Database.DistinctConflicts
    rw [hconflicts]
    exact h.filed
  · obtain ⟨hkey, hask⟩ := h.rows r ev (hknown r hr) hholds
    exact ⟨hkey, hasked hask⟩
  · exact h.oneSide r ev r' ev' (hgiven r hr) hholds (hknown r' hr') hholds'
  · exact hasked (h.resolved ((hstands _).mp hs))
  · rcases hthreads t ht with ht | hlog
    · exact h.refused ((hstands _).mp hs) t ht hbody
    · refine ⟨?_, .inr (fun c hmem => ?_)⟩
      · rintro ⟨e, he, _⟩
        rw [hlog] at he
        cases he
      · rw [hlog] at hmem
        cases hmem
  · rcases hthreads t ht with ht | hlog
    · exact (hstands _).mpr (h.success t ht hdismiss hd)
    · obtain ⟨_, hmem⟩ := hd
      rw [hlog] at hmem
      cases hmem

def Good (env : Env) (conflict : ConflictRecord) (c : Requests) : Prop :=
  Pool.Safe (free env) (promise conflict.tenantID conflict.id) c ∧ Inv conflict c

/-- **Step lemma**: an orderly step keeps the conflict and the decision about it. -/
theorem Good.step {a : Effect.Act Task World} (h : Good env conflict c)
    (horder : Orderly conflict.tenantID conflict.id c a)
    (hstep : Pool.step (setup env conflict.tenantID conflict.id) c a = some c') : Good env conflict c' := by
  constructor
  · have hok : Pool.permits (free env).ok (fun _ _ => True) c a := by
      cases a with
      | start task => trivial
      | fire i => exact fun _ _ _ _ => trivial
      | move w' => trivial
    exact Pool.safe_step (P := setup env conflict.tenantID conflict.id) rfl (fun s task _ _ => body_safe task)
      (fun _ _ _ _ _ => ⟨trivial, trivial⟩) h.1 hok hstep
  · rcases Pool.step_cases hstep with ⟨task, rfl, rfl⟩ | ⟨i, t, o, k, rfl, hi, hprog, rfl⟩ | ⟨w', s, rfl,
      hs, rfl⟩
    · refine h.2.frame rfl rfl (fun t ht => ?_) (fun t ht => List.mem_append_left _ ht)
      refine (List.mem_append.mp ht).imp_right (fun hnew => ?_)
      rw [List.mem_singleton.mp hnew]
    · exact h.2.fire hi hprog (h.1.may_next (List.mem_of_getElem? hi) hprog) horder
    · cases hs
      exact h.2.frame rfl rfl (fun t ht => .inl ht) (fun t ht => ht)

theorem Good.run {acts : List (Effect.Act Task World)} (h : Good env conflict c)
    (hrun : Run (Pool.step (setup env conflict.tenantID conflict.id)) (Orderly conflict.tenantID conflict.id)
      c acts c') : Good env conflict c' :=
  hrun.invariant (P := fun _ c => Good env conflict c) h (fun _ _ _ _ hc hok hstep => hc.step hok hstep)

theorem Good.stands_step {a : Effect.Act Task World} (h : Good env conflict c)
    (horder : Orderly conflict.tenantID conflict.id c a) (hfinal : status = .resolved ∨ status = .dismissed)
    (hstep : Pool.step (setup env conflict.tenantID conflict.id) c a = some c')
    (hs : Stands conflict.tenantID conflict.id status c.state) :
    Stands conflict.tenantID conflict.id status c'.state := by
  rcases Pool.step_cases hstep with ⟨task, rfl, rfl⟩ | ⟨i, t, o, k, rfl, hi, hprog, rfl⟩ |
    ⟨w', s, rfl, hmove, rfl⟩
  · exact hs
  · refine stands_kept hs (hfinal.symm.imp_right (fun hresolved status' strategy by_ ho => ?_))
    subst hresolved ho
    have hmay := h.1.may_next (List.mem_of_getElem? hi) hprog
    cases htask : t.task with
    | resolve body =>
      rw [htask] at hmay
      rcases hmay with ho | ho | ⟨_, _, ho, _⟩ <;> cases ho
    | dismiss =>
      rw [htask] at hmay
      obtain ⟨strategy', ho⟩ := hmay.resolve_left nofun
      cases ho
      obtain ⟨u, hu, hbody, hcalls⟩ := h.2.resolved hs
      exact absurd hcalls (horder.alone i t _ _ _ rfl hi htask (Thread.next_eq hprog) u hu hbody).2
    | engine batchSize =>
      rw [htask] at hmay
      exact hmay.1
  · cases hmove
    exact hs

theorem good_init (hdistinct : w.db.DistinctConflicts) (hc : conflict ∈ w.db.conflicts.rows)
    (hpending : conflict.status = .pending) (hqueue : ∀ r ∈ w.db.retryQueue.rows, ∀ ev,
      ¬ Holds conflict.tenantID conflict.id r ev) : Good env conflict ⟨[], w⟩ := by
  have hstatus : ∀ status, Stands conflict.tenantID conflict.id status w → status = .pending :=
    fun status hs =>
    stands_unique hdistinct hs ⟨conflict, hc, rfl, rfl, hpending⟩
  have hgiven : ∀ r, ¬ GivenIn ⟨[], w⟩ r := fun r ⟨t, ht, _⟩ => nomatch ht
  refine ⟨Pool.safe_nil trivial, ⟨⟨hdistinct, conflict, hc, Same.refl conflict⟩, fun r ev hr hholds => ?_,
    fun r _ _ _ hr => absurd hr (hgiven r), fun hs => absurd (hstatus _ hs) nofun, fun _ _ ht => (nomatch ht),
    fun _ ht => (nomatch ht)⟩⟩
  exact hr.elim (fun hrow => absurd hholds (hqueue r hrow ev)) (fun hgive => absurd hgive (hgiven r))

end

/-! ## Final and exclusive -/

def applies : Call → Bool
  | .store (.upsertCanonical _) | .store (.persistApplyState _ _ _) => true
  | .create _ _ | .update _ _ _ | .delete _ _ => true
  | _ => false

/-- The event under way: `Process` begins with the claim of its event. -/
def claimOf (e : Entry sig GoError) : Option EventKey :=
  match e.op with
  | .store (.claimProcessedEvent key) => some key
  | _ => none

def Writes (log : Log) (key : EventKey) : Prop :=
  ∃ pre e post, log = pre ++ e :: post ∧ applies e.op = true ∧ pre.reverse.findSome? claimOf = some key

def Applies (conflict : ConflictRecord) (key : EventKey) : Prop :=
  key.tenantID = conflict.tenantID ∧ key.eventID = "resolve:" ++ conflict.id

variable {conflict : ConflictRecord}

theorem given_of_writes {c : Requests} {t : Thread sig GoError Task} (h : Good env conflict c)
    (ht : t ∈ c.threads) (hwrites : Writes t.log key) (happlies : Applies conflict key) :
    ∃ r ev, GivenIn c r ∧ Holds conflict.tenantID conflict.id r ev ∧ key = ev.key := by
  obtain ⟨pre, e, post, hlog, _, hclaim⟩ := hwrites
  obtain ⟨e', he', hkey⟩ := List.exists_of_findSome?_eq_some hclaim
  have hmem : e' ∈ t.log := by
    rw [hlog]
    exact List.mem_append_left _ (List.mem_reverse.mp he')
  obtain ⟨pre', post', hlog'⟩ := List.append_of_mem hmem
  obtain ⟨s, _, hmay, _⟩ := h.1.made t ht pre' e' post' hlog'
  have hop : e'.op = .store (.claimProcessedEvent key) := by
    unfold claimOf at hkey
    split at hkey
    · rename_i key' hop
      rw [hop, Option.some.inj hkey]
    · cases hkey
  rw [hop] at hmay
  -- only an engine claims
  cases htask : t.task with
  | resolve body =>
    rw [htask] at hmay
    rcases hmay with ho | ho | ⟨_, _, ho, _⟩ <;> cases ho
  | dismiss =>
    rw [htask] at hmay
    rcases hmay with ho | ⟨_, ho⟩ <;> cases ho
  | engine batchSize =>
    rw [htask] at hmay
    obtain ⟨r, hr, ev, hev, rfl⟩ := hmay
    refine ⟨r, ev, ⟨t, ht, hr.mono ?_⟩, ⟨hev, happlies.1, .inr happlies.2⟩, rfl⟩
    rw [hlog']
    exact List.subset_append_left _ _

/-- **Decisions are final and exclusive**, if none is taken while another is under way: one side of the
    conflict at most is applied, nothing of it if the conflict was dismissed, and a conflict that is resolved
    or dismissed stays so. -/
theorem decisions_final {c : Requests} {acts : List (Effect.Act Task World)}
    (hdistinct : w.db.DistinctConflicts)
    (hc : conflict ∈ w.db.conflicts.rows) (hpending : conflict.status = .pending)
    (hqueue : ∀ r ∈ w.db.retryQueue.rows, ∀ ev, ¬ Holds conflict.tenantID conflict.id r ev)
    (hrun : Run (Pool.step (setup env conflict.tenantID conflict.id)) (Orderly conflict.tenantID conflict.id)
      ⟨[], w⟩ acts c) :
    (∀ t ∈ c.threads, ∀ t' ∈ c.threads, ∀ key key', Writes t.log key → Writes t'.log key' →
      Applies conflict key →
      Applies conflict key' → key = key') ∧
    (∀ t ∈ c.threads, t.task = .dismiss → Dismissed conflict.tenantID conflict.id t.log →
      ∀ t' ∈ c.threads, ∀ key, Writes t'.log key → ¬ Applies conflict key) ∧
    ∀ acts' c', Run (Pool.step (setup env conflict.tenantID conflict.id))
      (Orderly conflict.tenantID conflict.id) c acts' c' →
      ∀ status, status = .resolved ∨ status = .dismissed → Stands conflict.tenantID conflict.id status c.state →
        Stands conflict.tenantID conflict.id status c'.state := by
  have hgood := (good_init hdistinct hc hpending hqueue).run hrun
  refine ⟨fun t ht t' ht' key key' hw hw' ha ha' => ?_, fun t ht htask hd t' ht' key hw ha => ?_,
    fun acts' c' hrun' status hfinal hs => ?_⟩
  · obtain ⟨r, ev, hr, hholds, rfl⟩ := given_of_writes hgood ht hw ha
    obtain ⟨r', ev', hr', hholds', rfl⟩ := given_of_writes hgood ht' hw' ha'
    have hsource := hgood.2.oneSide r' ev' r ev hr' hholds' (.inr hr) hholds
    exact EventKey.mk.injEq .. ▸ ⟨ha.1.trans ha'.1.symm, hsource, ha.2.trans ha'.2.symm⟩
  · obtain ⟨r, ev, hr, hholds, _⟩ := given_of_writes hgood ht' hw ha
    obtain ⟨_, u, hu, hbody, hcalls⟩ := hgood.2.rows r ev (.inr hr) hholds
    exact (hgood.2.refused (hgood.2.success t ht htask hd) u hu hbody).1 hcalls
  · refine (hrun'.invariant (P := fun _ c => Good env conflict c ∧
      Stands conflict.tenantID conflict.id status c.state) ⟨hgood, hs⟩
      (fun _ c a c' hc hok hstep => ⟨hc.1.step hok hstep, hc.1.stands_step hok hfinal hstep hc.2⟩)).2

/-! ## Decisions about Ann's conflict -/

def written (log : Log) : List EventKey :=
  (List.range log.length).filterMap (fun n => (log[n]?).bind (fun e =>
    if applies e.op then (log.take n).reverse.findSome? claimOf else none))

theorem writes_of_written (h : key ∈ written log) : Writes log key := by
  obtain ⟨n, _, hn⟩ := List.mem_filterMap.mp h
  obtain ⟨e, he, hkey⟩ := Option.bind_eq_some_iff.mp hn
  split_ifs at hkey with happlies
  obtain ⟨hlt, rfl⟩ := List.getElem?_eq_some_iff.mp he
  refine ⟨log.take n, log[n], log.drop (n + 1), ?_, happlies, hkey⟩
  rw [← List.drop_eq_getElem_cons hlt, List.take_append_drop]

def dismissed (T X : String) (log : Log) : Bool :=
  log.any (fun
    | ⟨.store (.setConflictStatus tenantID id status _ by_), .ok _⟩ =>
      tenantID = T && id = X && status = .dismissed && by_ = "operator"
    | _ => false)

theorem dismissed_of_test (h : dismissed T X log = true) : Dismissed T X log := by
  obtain ⟨e, he, htest⟩ := List.any_eq_true.mp h
  split at htest
  · rename_i tenantID id status strategy by_ _
    simp only [Bool.and_eq_true, decide_eq_true_eq] at htest
    obtain ⟨⟨⟨rfl, rfl⟩, rfl⟩, rfl⟩ := htest
    exact ⟨strategy, he⟩
  · cases htest

/-- A test for orderly actions: a request queues before any engine has looked, and is dismissed before any
    other was made. -/
def orderly (c : Requests) : Effect.Act Task World → Bool
  | .fire i =>
    match c.threads[i]? with
    | none => true
    | some t =>
      match t.task, t.next? with
      | .resolve _, some (.store (.enqueueRetry _ _)) => c.threads.all (fun u => u.log.all (fun e =>
          match e.op with
          | .store (.claimDueRetries _) => false
          | _ => true))
      | .dismiss, some (.store (.setConflictStatus _ _ _ _ _)) => c.threads.all (fun u =>
          match u.task with
          | .resolve _ => false
          | _ => true)
      | _, _ => true
  | _ => true

theorem orderly_of_test {c : Requests} {a : Effect.Act Task World} (h : orderly c a = true) :
    Orderly T X c a where
  oneSide i t body e delay ha hi htask hnext r ev ev' hgiven := by
    subst ha
    simp only [orderly, hi, htask, hnext, List.all_eq_true] at h
    obtain ⟨u, hu, limit, due, hmem, _⟩ := hgiven
    exact absurd (h u hu _ hmem) Bool.false_ne_true
  alone i t id strategy by_ ha hi htask hnext u hu hbody := by
    subst ha
    simp only [orderly, hi, htask, hnext, List.all_eq_true] at h
    obtain ⟨body, hbody⟩ := hbody
    have hno := h u hu
    rw [hbody] at hno
    exact absurd hno Bool.false_ne_true

instance {status : ConflictStatus} : Decidable (Stands T X status w) := List.decidableBEx _ _

def annSystem : Pool.Setup sig GoError Task World World := setup Deployment.env tenant "u"

def annPool : Requests := ⟨[], Resolution.parked⟩

def fires (i n : Nat) : List (Effect.Act Task World) := List.replicate n (.fire i)

def annSide (source : String) : EventKey := ⟨tenant, source, "resolve:u"⟩

theorem decisions_final_ann : ∃ conflict ∈ Resolution.parked.db.conflicts.rows, ∃ c : Requests,
    Run (Pool.step annSystem) (Orderly tenant "u") annPool
      ([.start (.resolve (some "b"))] ++ fires 0 3 ++ [.start (.engine 10)] ++ fires 1 14) c ∧
    Stands tenant "u" .resolved c.state ∧ (∃ t ∈ c.threads, Writes t.log (annSide "hubspot")) ∧
    ∀ t ∈ c.threads, ∀ key, Writes t.log key → Applies conflict key → key = annSide "hubspot" := by
  have hconflict : ∃ conflict ∈ Resolution.parked.db.conflicts.rows, conflict.tenantID = tenant ∧
      conflict.id = "u" ∧ conflict.status = .pending := by decide +kernel
  obtain ⟨conflict, hc, htenant, hid, hpending⟩ := hconflict
  have hqueue : ∀ r ∈ Resolution.parked.db.retryQueue.rows, ∀ ev,
    ¬ Holds conflict.tenantID conflict.id r ev := by
    rw [List.eq_nil_of_length_eq_zero (show Resolution.parked.db.retryQueue.rows.length
      = 0 by decide +kernel)]
    exact fun _ h => (nomatch h)
  have hexec : (exec (Pool.step annSystem) orderly
      ([.start (.resolve (some "b"))] ++ fires 0 3 ++ [.start (.engine 10)] ++ fires 1 14) annPool).map (fun c =>
        decide (Stands tenant "u" .resolved c.state ∧ ∃ t ∈ c.threads, annSide "hubspot" ∈ written t.log)) = some true := by
    decide +kernel
  obtain ⟨c, hrun, _, htest⟩ := run_of_test hexec
  obtain ⟨hresolved, t, ht, hwritten⟩ := of_decide_eq_true htest
  have hrun : Run (Pool.step annSystem) (Orderly tenant "u") annPool _ c :=
    hrun.mono (fun _ _ _ h => orderly_of_test h)
  have hannSystem : annSystem = setup Deployment.env conflict.tenantID conflict.id := by
    rw [htenant, hid]
    rfl
  have hrun' := hrun
  rw [hannSystem, ← htenant, ← hid] at hrun'
  have hfinal := decisions_final Resolution.parked_distinct hc hpending hqueue hrun'
  refine ⟨conflict, hc, c, hrun, hresolved, ⟨t, ht, writes_of_written hwritten⟩, fun t' ht' key hw ha => ?_⟩
  exact hfinal.1 t' ht' t ht key (annSide "hubspot") hw (writes_of_written hwritten) ha
    ⟨htenant.symm, by rw [hid]; rfl⟩

/-- **Decisions overtake each other.** Two engines hold the two sides, and both are applied; a dismissal has
    succeeded, and the queued side is applied all the same; and a conflict that was resolved becomes
    dismissed. -/
theorem decisions_overlap : (∃ c : Requests, Run (Pool.step annSystem) (fun _ _ => True) annPool
        ([.start (.resolve (some "a"))] ++ fires 0 3 ++ [.start (.engine 10), .fire 1, .start (.resolve (some "b"))] ++ fires 2 3 ++
          [.start (.engine 10), .fire 3] ++ fires 1 13 ++ fires 3 13) c ∧
      ∃ t ∈ c.threads, ∃ t' ∈ c.threads, Writes t.log (annSide "salesforce") ∧ Writes t'.log (annSide "hubspot")) ∧
    (∃ c1 c2 : Requests, Run (Pool.step annSystem) (fun _ _ => True) annPool
        ([.start (.resolve (some "b"))] ++ fires 0 3 ++ [.start .dismiss] ++ fires 1 2) c1 ∧
      (∃ t ∈ c1.threads, t.task = .dismiss ∧ Dismissed tenant "u" t.log) ∧
      Run (Pool.step annSystem) (fun _ _ => True) c1 ([.start (.engine 10)] ++ fires 2 14) c2 ∧
      ∃ t ∈ c2.threads, Writes t.log (annSide "hubspot")) ∧
    ∃ c1 c2 : Requests, Run (Pool.step annSystem) (fun _ _ => True) annPool
        ([.start .dismiss, .fire 0, .start (.resolve (some "a"))] ++ fires 1 3 ++ [.start (.engine 10)] ++ fires 2 14) c1 ∧
      Stands tenant "u" .resolved c1.state ∧ Run (Pool.step annSystem) (fun _ _ => True) c1 [.fire 0] c2 ∧
      Stands tenant "u" .dismissed c2.state := by
  refine ⟨?_, ?_, ?_⟩
  · refine exists_run (b := fun _ _ => true) (f := fun c => decide (∃ t ∈ c.threads, ∃ t' ∈ c.threads,
      annSide "salesforce" ∈ written t.log ∧ annSide "hubspot" ∈ written t'.log)) (by decide +kernel) (fun _ _ _ => trivial)
      (fun c _ htest => ?_)
    obtain ⟨t, ht, t', ht', hw, hw'⟩ := of_decide_eq_true htest
    exact ⟨t, ht, t', ht', writes_of_written hw, writes_of_written hw'⟩
  · have hexec : (exec (Pool.step annSystem) (fun _ _ => true)
        ([.start (.resolve (some "b"))] ++ fires 0 3 ++ [.start .dismiss] ++ fires 1 2) annPool).map (fun c1 =>
          decide (∃ t ∈ c1.threads, t.task = .dismiss ∧ dismissed tenant "u" t.log = true) &&
          (exec (Pool.step annSystem) (fun _ _ => true) ([.start (.engine 10)] ++ fires 2 14) c1).map (fun c2 =>
            decide (∃ t ∈ c2.threads, annSide "hubspot" ∈ written t.log)) = some true) = some true := by
      decide +kernel
    obtain ⟨c1, _, hc1, htest⟩ := run_of_test hexec
    obtain ⟨hdismissed, hafter⟩ := Bool.and_eq_true_iff.mp htest
    obtain ⟨t, ht, htask, hd⟩ := of_decide_eq_true hdismissed
    obtain ⟨c2, _, hc2, htest2⟩ := run_of_test (of_decide_eq_true hafter)
    obtain ⟨t', ht', hw⟩ := of_decide_eq_true htest2
    exact ⟨c1, c2, exec_run hc1, ⟨t, ht, htask, dismissed_of_test hd⟩, exec_run hc2, t', ht',
      writes_of_written hw⟩
  · have hexec : (exec (Pool.step annSystem) (fun _ _ => true)
        ([.start .dismiss, .fire 0, .start (.resolve (some "a"))] ++ fires 1 3 ++ [.start (.engine 10)] ++ fires 2 14)
          annPool).map (fun c1 =>
            decide (Stands tenant "u" .resolved c1.state) &&
            (exec (Pool.step annSystem) (fun _ _ => true) [.fire 0] c1).map (fun c2 =>
              decide (Stands tenant "u" .dismissed c2.state)) = some true) = some true := by
      decide +kernel
    obtain ⟨c1, _, hc1, htest⟩ := run_of_test hexec
    obtain ⟨hresolved, hafter⟩ := Bool.and_eq_true_iff.mp htest
    obtain ⟨c2, _, hc2, htest2⟩ := run_of_test (of_decide_eq_true hafter)
    exact ⟨c1, c2, exec_run hc1, of_decide_eq_true hresolved, exec_run hc2, of_decide_eq_true htest2⟩

end SyncForge.Decisions
