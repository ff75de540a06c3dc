import SyncForge.Retry.Loss

/-!
# `Retry.Attempts` — how often an event is run

A failed re-run counts one attempt more on its row, and at the limit leaves an open dead letter in the row's
place (`reschedule_row`).
-/

namespace SyncForge.Desk

open Effect Effect.Prog Store Relational

variable {env : Env} {ev : Event} {w : World} {e : GoError} {r : RetryEntry}

/-! ## The store is up -/

def Up (w : World) : Prop := ∀ n, ∃ pick, w.storeTape n = .ok pick

theorem Up.run {α : Type} {p : Sync α} (h : Up w) : Up (run (World.handle env) p w).2 := by
  induction p generalizing w with
  | pure | throw => exact h
  | call o k ih =>
    refine ih _ (fun n => ?_)
    rw [World.handle_tapes.2.1]
    exact h n

theorem Up.stmt (env : Env) (h : Up w) (o : StoreOp) :
    ∃ pick, Prog.run (World.handle env) (stmt o) w
    = ((Database.exec w.now pick o w.db).1, w.executed pick o) := by
  obtain ⟨pick, hpick⟩ := h w.calls
  rcases World.handle_store env w o with ⟨text, htext, _⟩ | ⟨pick', _, hanswer⟩
  · rw [hpick] at htext
    cases htext
  · exact ⟨pick', (run_perform ..).trans hanswer⟩

theorem Up.tryStmt (env : Env) (h : Up w) (o : StoreOp) :
    ∃ pick, Prog.run (World.handle env) (tryStmt o) w = (.ok (), w.executed pick o) := by
  obtain ⟨pick, hrun⟩ := h.stmt env o
  refine ⟨pick, ?_⟩
  rw [Store.tryStmt, run_bind_ok _ (run_attempt ..), hrun]
  rfl

/-! ## A failed attempt -/

theorem enqueued {db : Database} {now : Time} {delay : Duration} (old : Option RetryEntry)
    (hold : db.retryQueue.get? r.key = old) :
    ∃ r', (db.retryQueue.upsert (db.retryRow now r delay)).get? r.key = some r' ∧ r'.state = r.state ∧
      r'.attempt = old.elim 1 (·.attempt + 1) ∧
      r'.maxAttempts = old.elim r.maxAttempts RetryEntry.maxAttempts := by
  refine ⟨db.retryRow now r delay, ?_, Database.retryRow_state _ _, ?_⟩
  · rw [Table.get?_upsert, Database.retryRow_key, if_pos rfl]
  · unfold Database.retryRow
    rw [hold]
    cases old <;> exact ⟨rfl, rfl⟩

/-- **A failed re-run** counts one attempt more, and at the limit leaves an open dead letter in place of the
    row. -/
theorem reschedule_row (hup : Up w) (hrow : w.db.retryQueue.get? r.key = some r)
    (hretry : e.classify.1.shouldRetry = true) : let db' :=
    (run (World.handle env) (Retry.reschedule env r e) w).2.db
    if r.maxAttempts ≤ r.attempt + 1 then
      db'.retryQueue.get? r.key = none ∧ ∃ d, db'.deadLetters r.key = some d ∧ d.status = .open ∧ d.payload = r.state
    else ∃ r', db'.retryQueue.get? r.key = some r' ∧ r'.state = r.state ∧ r'.attempt = r.attempt + 1 ∧
      r'.maxAttempts = r.maxAttempts := by
  intro db'
  have hif : (e.classify.1.shouldRetry = false ∨ r.maxAttempts ≤ r.attempt + 1) ↔
    r.maxAttempts ≤ r.attempt + 1 := by
    rw [hretry]
    simp
  simp only [db', Retry.reschedule, hif]
  split_ifs with hlimit
  · -- the dead letter, the status of the event, and the row goes
    let d : DeadLetter :=
      { tenantID := r.tenantID, eventID := r.eventID, reason := e.error, errorClass := e.classify.1.string, payload := r.state }
    let o : StoreOp := .setSourceEventStatusTo r.tenantID r.eventID .dlq
    obtain ⟨p1, h1⟩ := hup.stmt env (.insertDeadLetter d)
    obtain ⟨p2, h2⟩ := Up.tryStmt env (w := w.executed p1 (.insertDeadLetter d)) hup o
    obtain ⟨p3, h3⟩ := Up.tryStmt env (w := (w.executed p1 (.insertDeadLetter d)).executed p2 o) hup
      (.deleteRetry r.key)
    have hdead : run (World.handle env) (Retry.deadLetter r e.error e.classify.1.string) w
        = (.ok (), (w.executed p1 (.insertDeadLetter d)).executed p2 o) := by
      rwa [Retry.deadLetter, run_bind_ok _ (run_attempt ..), h1]
    rw [run_bind_ok _ hdead, Retry.discard, h3]
    exact ⟨Table.get?_delete_self, _, Function.update_self .., rfl, rfl⟩
  · have hrandom : run (World.handle env) (perform (S := sig) .random) w
      = (.ok (w.randomTape w.calls), w.called) := run_perform ..
    rw [run_bind_ok _ hrandom]
    obtain ⟨pick, hput⟩ := (show Up w.called from hup).tryStmt env (.enqueueRetry
      { tenantID := r.tenantID, eventID := r.eventID, maxAttempts := r.maxAttempts, lastError := e.error
        errorClass := e.classify.1.string, state := r.state }
      (retryDelay env.options (r.attempt + 1) e.classify.2 (w.randomTape w.calls)))
    rw [hput]
    exact enqueued (some r) hrow

theorem processRetry_failed (hstate : r.state = .event ev)
    (hfail : (run (World.handle env) (process env ev) w).1 = .error e) :
      run (World.handle env) (Retry.processRetry env r) w = run (World.handle env) (Retry.reschedule env r e)
      (run (World.handle env) (process env ev) w).2 := by
  unfold Retry.processRetry
  rw [hstate]
  show run (World.handle env) ((process env ev).attempt >>= _) w = _
  rw [run_bind_ok _ (run_attempt ..), hfail]

end SyncForge.Desk
