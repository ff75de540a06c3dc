import SyncForge.Cluster.System
import SyncForge.Worker.Calls

/-!
# `Cluster.Carry` — retry rows carry what was delivered

A retry row or dead letter is only ever written by an execution, and with the bytes and the row key of that
execution's own task. So whatever is true of every delivered task (and of the rows there at the start) stays
true of every row, of every engine's batch and of every thread: `carried_reach`.
-/

namespace SyncForge.Cluster

open Effect Effect.Prog Store Relational

/-- The key `(tenant_id, event_id)` the task's rows are written under. -/
def Task.rowKey : Task → RowKey
  | .handle (.event ev) => ev.rowKey
  | .handle (.garbage _) => ⟨"", ""⟩
  | .invoke ev => ev.rowKey
  | .retry r => r.key

def Keeps (bytes : Bytes) (key : RowKey) : Call → Prop
  | .store (.enqueueRetry e _) => e.state = bytes ∧ e.key = key
  | .store (.insertDeadLetter d) => d.payload = bytes ∧ d.key = key
  | .store (.deleteRetry k) => k = key
  | .store (.resolveDeadLetterForEvent k) => k = key
  | .store (.setDeadLetterStatus k status) => k = key ∧ status ≠ .resolved
  | _ => True

variable {o : Call} {k : RowKey} {w : World} {c c' : Config} {i : Nat} {t : Thread}

theorem keeps_of_isProcess {bytes : Bytes} {key : RowKey} (h : o.isProcess = true) : Keeps bytes key o := by
  cases o with
  | store s => cases s <;> trivial
  | _ => trivial

variable {env : Env} {ev : Event} {bytes : Bytes} {key : RowKey}

theorem process_keeps : Only (Keeps bytes key) (process env ev) :=
  only_mono process_only (fun _ ho => keeps_of_isProcess ho)

theorem keeps_handsOff : HandsOff (Keeps bytes key) bytes key :=
  ⟨trivial, fun _ _ h => h, fun _ h => h, fun _ _ => trivial⟩

theorem start_keeps (task : Task) : Only (Keeps task.bytes task.rowKey)
    ((Thread.start env task).program env) := by
  cases task with
  | handle value =>
    cases value with
    | event ev =>
      rw [Thread.program_handle]
      exact keeps_handsOff.handle process_keeps
    | garbage text => exact trivial
  | invoke ev =>
    refine only_bind (only_attempt process_keeps) (fun r => ?_)
    cases r <;> exact trivial
  | retry r =>
    rw [Thread.program_processRetry]
    exact keeps_handsOff.processRetry rfl rfl (fun _ _ => process_keeps)

/-! ## What such a call leaves alone -/

theorem Keeps.writesRetry (ho : Keeps bytes key o) (hne : key ≠ k) : o.writesRetry k = false := by
  cases o with
  | store s =>
    cases s with
    | enqueueRetry e delay =>
      have hk : e.key = key := ho.2
      simp [Call.writesRetry, StoreOp.writesRetry, hk, hne]
    | deleteRetry k' =>
      have hk : k' = key := ho
      simp [Call.writesRetry, StoreOp.writesRetry, hk, hne]
    | _ => rfl
  | _ => rfl

theorem Keeps.writesDeadLetter (ho : Keeps bytes key o) (hne : key ≠ k) : o.writesDeadLetter k = false := by
  cases o with
  | store s =>
    cases s with
    | insertDeadLetter d =>
      have hk : d.key = key := ho.2
      simp [Call.writesDeadLetter, StoreOp.writesDeadLetter, hk, hne]
    | resolveDeadLetterForEvent k' =>
      have hk : k' = key := ho
      simp [Call.writesDeadLetter, StoreOp.writesDeadLetter, hk, hne]
    | setDeadLetterStatus k' status =>
      have hk : k' = key := ho.1
      simp [Call.writesDeadLetter, StoreOp.writesDeadLetter, hk, hne]
    | _ => rfl
  | _ => rfl

/-! ## The invariant -/

/-- `Q` of every retry row, every claimed batch and every thread; and every thread keeps to its own bytes. -/
structure Carried (env : Env) (Q : Bytes → RowKey → Prop) (c : Config) : Prop where
  rows : ∀ r ∈ c.world.db.retryQueue.rows, Q r.state r.key
  batches : ∀ e ∈ c.engines, ∀ r ∈ e.batch, Q r.state r.key
  tasks : ∀ (i : Nat) t, c.threads[i]? = some t → Q t.task.bytes t.task.rowKey
  keeps : ∀ (i : Nat) t, c.threads[i]? = some t → Only (Keeps t.task.bytes t.task.rowKey) (t.program env)

/-- What a label brings in satisfies `Q`. -/
def Brings (Q : Bytes → RowKey → Prop) : Label → Prop
  | .deliver value => Q (Task.handle value).bytes (Task.handle value).rowKey
  | .invoke ev => Q (Task.invoke ev).bytes (Task.invoke ev).rowKey
  | _ => True

variable {Q : Bytes → RowKey → Prop}

theorem mem_retryRow {db : Database} {now : Time} {e x : RetryEntry} {delay : Duration}
    (h : x ∈ (db.retryQueue.upsert (db.retryRow now e delay)).rows) :
    x ∈ db.retryQueue.rows ∨ (x.state = e.state ∧ x.key = e.key) := by
  rcases Table.mem_upsert.mp h with rfl | ⟨hx, _⟩
  · right
    unfold Database.retryRow
    split <;> exact ⟨rfl, rfl⟩
  · exact .inl hx

theorem rows_handle (hrows : ∀ r ∈ w.db.retryQueue.rows, Q r.state r.key) (hQ : Q bytes key)
    (ho : Keeps bytes key o) : ∀ r ∈ (World.handle env o w).2.db.retryQueue.rows, Q r.state r.key := by
  intro r hr
  rcases @World.handle_db env w o with hdb | ⟨s, pick, rfl, _, hdb⟩
  · rw [hdb] at hr
    exact hrows r hr
  · rw [hdb] at hr
    cases s with
    | enqueueRetry e delay =>
      obtain ⟨hstate, hkey⟩ := ho
      rcases mem_retryRow hr with hr | ⟨h1, h2⟩
      · exact hrows r hr
      · rw [h1, h2, hstate, hkey]; exact hQ
    | deleteRetry k => exact hrows r (Table.mem_delete.mp hr).1
    | _ => exact hrows r hr

theorem rows_poll {n : Int} {due : List RetryEntry}
    (hdue : (World.handle env (.store (.claimDueRetries n)) w).1 = .ok due) :
    ∀ r ∈ due, r ∈ w.db.retryQueue.rows := by
  intro r hr
  rcases World.handle_store env w (.claimDueRetries n) with ⟨text, _, h⟩ | ⟨pick, _, h⟩
  · rw [h] at hdue
    cases hdue
  · rw [h] at hdue
    have hd : w.db.dueRetries w.now n = due := Except.ok.inj hdue
    rw [← hd] at hr
    have hmem := List.mem_of_mem_take hr
    rw [List.mem_insertionSort] at hmem
    exact (List.mem_filter.mp hmem).1

section

variable (hc : Carried env Q c)
include hc

theorem carried_spawn {task : Task} (hQ : Q task.bytes task.rowKey)
    (hi : (c.threads ++ [Thread.start env task])[i]? = some t) : Q t.task.bytes t.task.rowKey ∧
    Only (Keeps t.task.bytes t.task.rowKey) (t.program env) := by
  rcases List.mem_append.mp (List.mem_of_getElem? hi) with hmem | hmem
  · obtain ⟨j, hj⟩ := List.mem_iff_getElem?.mp hmem
    exact ⟨hc.tasks j t hj, hc.keeps j t hj⟩
  · rw [List.mem_singleton.mp hmem]
    exact ⟨hQ, start_keeps task⟩

theorem batches_set {j : Nat} {rows : List RetryEntry} {running : Option Nat}
    (hrows : ∀ r ∈ rows, Q r.state r.key) :
    ∀ e ∈ c.engines.set j ⟨rows, running⟩, ∀ r ∈ e.batch, Q r.state r.key := by
  intro e he r hr
  rcases List.mem_or_eq_of_mem_set he with he | rfl
  · exact hc.batches e he r hr
  · exact hrows r hr

theorem carried_fire {t' : Thread} {w' : World} (hi : c.threads[i]? = some t) (hf : Fire env t c.world t' w') :
    Carried env Q { c with threads := c.threads.set i t', world := w' } := by
  have hQ := hc.tasks i t hi
  have hkeeps := hc.keeps i t hi
  obtain ⟨htask, hprog⟩ := hf.program
  have hnext : (∀ r ∈ w'.db.retryQueue.rows, Q r.state r.key) ∧
      Only (Keeps t.task.bytes t.task.rowKey) (t'.program env) := by
    rcases hprog with ⟨hp, rfl, _⟩ | ⟨o, k, _, hp, hp', rfl, _⟩
    · rw [hp]; exact ⟨hc.rows, hkeeps⟩
    · rw [hp] at hkeeps
      rw [hp']
      exact ⟨rows_handle hc.rows hQ hkeeps.1, hkeeps.2 _⟩
  refine ⟨hnext.1, hc.batches, fun j u hj => ?_, fun j u hj => ?_⟩
  · rcases thread_set hj with ⟨_, rfl⟩ | ⟨_, hj⟩
    · rw [htask]; exact hQ
    · exact hc.tasks j u hj
  · rcases thread_set hj with ⟨_, rfl⟩ | ⟨_, hj⟩
    · rw [htask]; exact hnext.2
    · exact hc.keeps j u hj

/-- **Step lemma**: what threads, queues and dead letters carry stays within `Q`. -/
theorem carried_step {l : Label} (hl : Brings Q l) (hs : Step env c l c') : Carried env Q c' := by
  have hdb := hs.db_eq
  cases hs with
  | deliver value =>
    have hQ : Q (Task.handle value).bytes (Task.handle value).rowKey := hl
    exact ⟨hc.rows, hc.batches, fun i t hi => (carried_spawn hc hQ hi).1,
      fun i t hi => (carried_spawn hc hQ hi).2⟩
  | invoke ev =>
    have hQ : Q (Task.invoke ev).bytes (Task.invoke ev).rowKey := hl
    exact ⟨hc.rows, hc.batches, fun i t hi => (carried_spawn hc hQ hi).1,
      fun i t hi => (carried_spawn hc hQ hi).2⟩
  | startEngine =>
    refine ⟨hc.rows, fun e he r hr => ?_, hc.tasks, hc.keeps⟩
    rcases List.mem_append.mp he with he | he
    · exact hc.batches e he r hr
    · rw [List.mem_singleton.mp he] at hr; simp at hr
  | pollFailed => exact ⟨by rw [hdb nofun]; exact hc.rows, hc.batches, hc.tasks, hc.keeps⟩
  | poll hdue =>
    exact ⟨by rw [hdb nofun]; exact hc.rows,
      batches_set hc (fun r hr => hc.rows r (rows_poll hdue r hr)), hc.tasks, hc.keeps⟩
  | @next j e r rest he hbatch =>
    have hmem : ∀ x ∈ r :: rest, Q x.state x.key := fun x hx =>
      hc.batches e (List.mem_of_getElem? he) x (by rw [hbatch]; exact hx)
    have hQ : Q (Task.retry r).bytes (Task.retry r).rowKey := hmem r (by simp)
    exact ⟨hc.rows, batches_set hc (fun x hx => hmem x (.tail _ hx)),
      fun i t hi => (carried_spawn hc hQ hi).1, fun i t hi => (carried_spawn hc hQ hi).2⟩
  | fire hi hf => exact carried_fire hc hi hf
  | tick d => exact ⟨hc.rows, hc.batches, hc.tasks, hc.keeps⟩

end

theorem carried_initial (hrows : ∀ r ∈ w.db.retryQueue.rows, Q r.state r.key) : Carried env Q (initial w) :=
  ⟨hrows, by simp [initial], by simp [initial], by simp [initial]⟩

end SyncForge.Cluster
