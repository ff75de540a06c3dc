import SyncForge.Api.DeadLetter
import SyncForge.Deployment
import SyncForge.Effect.Pool
import SyncForge.Worker.Calls

/-!
# `Retry.Discard` — what a discard ends

Workers, retry engines and the operator's two requests on dead letters, interleaved call by call; statements,
messages and provider requests may fail. A discard only sets the status of the entry. It is final if, when it
has returned, no row carries the event any more and nobody holds it: no engine that was handed its row, no
replay of the entry and no worker with its message is still under way (`discard_final`). A row that a replay
queued before outlives it (`discarded_rerun`).
-/

namespace SyncForge.Discard

open Effect Effect.Prog Store Relational
open Transition (Run)
open Function (update update_of_ne update_self)

/-! ## The system -/

inductive Task where
  | worker (value : Bytes)
  | engine (batchSize : Int)
  | retry (key : RowKey)
  | discard (key : RowKey)

def Task.body (env : Env) : Task → Sync Unit
  | .worker value => handle env value
  | .engine batchSize => do
    let _ ← Retry.drain env batchSize
    return ()
  | .retry key => do
    let _ ← Api.handleDLQRetry env key
    return ()
  | .discard key => do
    let _ ← Api.handleDLQDiscard key
    return ()

inductive Move where
  | tick (now : Time)
  | provider (ep : Endpoint) (server : SimServer)

def Move.apply (w : World) : Move → World
  | .tick now => { w with now := now }
  | .provider ep server => { w with sims := update w.sims ep server }

def desk (env : Env) : Pool.Setup sig GoError Task World Move where
  handle := World.handle env
  body := Task.body env
  move m w := some (m.apply w)

abbrev Desk := Pool sig GoError Task World

variable {env : Env} {w w0 : World} {key : RowKey} {A : RowKey → Prop} {o : Call} {c c' : Desk} {task : Task}
  {b : Bytes} {ev : Event}

/-- The payload is the event it is filed under, if it is an event at all. -/
def Filed (b : Bytes) (key : RowKey) : Prop := ∀ ev, b.unmarshal = .ok ev → ev.rowKey = key

structure Kept (db : Database) : Prop where
  rows : ∀ r ∈ db.retryQueue.rows, Filed r.state r.key
  letters : ∀ k d, db.deadLetters k = some d → d.key = k ∧ Filed d.payload k

/-- The task is a message of the event, or sends its entry back. -/
def Task.concerns (A : RowKey → Prop) : Task → Prop
  | .worker value => ∃ ev, value.unmarshal = .ok ev ∧ A ev.rowKey
  | .retry key => A key
  | _ => False

def fetched (key : RowKey) : Entry sig GoError → Bool
  | ⟨.store (.claimDueRetries _), .ok rows⟩ => rows.any (fun r => r.key = key)
  | _ => false

/-- The thread may still run the event, or queue it: it is about the event, or was handed its row. -/
def Holds (key : RowKey) (t : Thread sig GoError Task) : Prop :=
  t.task.concerns (· = key) ∨ t.log.any (fetched key) = true

/-- The call starts an execution of the event. -/
def executes (key : RowKey) : Call → Bool
  | .store (.claimProcessedEvent k) => (⟨k.tenantID, k.eventID⟩ : RowKey) = key
  | _ => false

def executionsOf (key : RowKey) (t : Thread sig GoError Task) :
    Nat := t.log.countP (fun e => executes key e.op)

/-- How often an execution of the event was started. -/
def executions (key : RowKey) (c : Desk) : Nat := (c.threads.map (executionsOf key)).sum

def status (key : RowKey) (c : Desk) : Option DeadLetterStatus :=
    (c.state.db.deadLetters key).map DeadLetter.status

/-- No operator sends the entry back, and the event does not come in again. -/
def untouched (key : RowKey) (_ : Desk) : Act Task Move → Prop
  | .start task => ¬ task.concerns (· = key)
  | _ => True

/-! ## What the tasks do -/

/-- The calls of those who do not touch the rows in `A`, as long as they are not handed them. -/
def scope (A : RowKey → Prop) : Scope sig where
  may
    | .store (.claimProcessedEvent k) => ¬ A ⟨k.tenantID, k.eventID⟩
    | .store (.enqueueRetry e _) => ¬ A e.key ∧ Filed e.state e.key
    | .store (.insertDeadLetter d) => ¬ A d.key ∧ Filed d.payload d.key
    | .store (.setDeadLetterStatus k new) => A k → new = .discarded
    | _ => True
  gives
    | .store (.claimDueRetries _), rows => ∀ r ∈ rows, ¬ A r.key ∧ Filed r.state r.key
    | .store (.getDeadLetter k), d => d.key = k ∧ Filed d.payload k
    | _, _ => True

theorem may_of_isWork (ho : o.isWork = true) : (scope A).may o := by
  cases o with
  | store s => cases s <;> trivial
  | _ => trivial

theorem filed_marshal : Filed (.marshal ev) ev.rowKey := fun _ h => by rw [Except.ok.inj h]

theorem process_may (h : ¬ A ev.rowKey) : Only (scope A).may (process env ev) :=
  process_only_of h trivial (fun _ => trivial) (only_mono dispatch_only (fun _ => may_of_isWork))

theorem handsOff (hkey : ¬ A key) (hfiled : Filed b key) : HandsOff (scope A).may b key where
  random := trivial
  enqueue := by
    rintro e _ ⟨rfl, rfl⟩
    exact ⟨hkey, hfiled⟩
  park := by
    rintro d ⟨rfl, rfl⟩
    exact ⟨hkey, hfiled⟩
  status _ _ := trivial

theorem drainRows_within {rows : List RetryEntry} (hrows : ∀ r ∈ rows, ¬ A r.key ∧ Filed r.state r.key) :
    (scope A).within (Retry.drainRows env rows) (fun _ => True) := by
  induction rows with
  | nil => trivial
  | cons r rest ih =>
    obtain ⟨⟨hkey, hfiled⟩, hrest⟩ := List.forall_mem_cons.mp hrows
    have hretry : Only (scope A).may (Retry.processRetry env r) :=
      (handsOff hkey hfiled).processRetry trivial trivial (fun ev hev => process_may ((hfiled ev hev).symm ▸ hkey))
    exact Scope.within_bind (Scope.within_of_only hretry (fun _ h => h)) (fun _ _ => ih hrest)

theorem withItem_within {next : DeadLetter → Sync Api.Response}
    (hnext : ∀ d, d.key = key → Filed d.payload key → (scope A).within (next d) (fun _ => True)) :
    (scope A).within (Api.withItem key next) (fun _ => True) := by
  refine Scope.within_attempt (Scope.within_perform trivial (fun _ h => h)) (fun d hd => hnext d hd.1 hd.2)
    (fun e => ?_)
  cases e <;> trivial

/-- **A task that is about another event** leaves this one alone. -/
theorem body_within (h : ¬ task.concerns A) : (scope A).within (task.body env) (fun _ => True) := by
  cases task with
  | worker value =>
    cases value with
    | garbage text => trivial
    | event ev =>
      have hkey : ¬ A ev.rowKey := fun hA => h ⟨ev, rfl, hA⟩
      exact Scope.within_of_only ((handsOff hkey filed_marshal).handle (process_may hkey)) (fun _ h => h)
  | engine batchSize =>
    refine Scope.within_bind (?_ : (scope A).within _ (fun _ => True)) (fun _ _ => trivial)
    refine Scope.within_attempt (Scope.within_perform trivial (fun _ h => h)) (fun rows hrows => ?_)
      (fun _ => trivial)
    exact Scope.within_bind (drainRows_within hrows) (fun _ _ => trivial)
  | retry key =>
    refine Scope.within_bind (withItem_within (fun d hkey hfiled => ?_)) (fun _ _ => trivial)
    have hd : ¬ A d.key ∧ Filed d.payload d.key := by
      rw [hkey]
      exact ⟨h, hfiled⟩
    refine Scope.within_attempt (Scope.within_perform (fun hA => absurd hA h) (fun _ h => h)) (fun _ _ => ?_)
      (fun _ => trivial)
    exact Scope.within_attempt (Scope.within_perform hd (fun _ h => h)) (fun _ _ => trivial) (fun _ => trivial)
  | discard key =>
    refine Scope.within_bind (withItem_within (fun _ _ _ => ?_)) (fun _ _ => trivial)
    exact Scope.within_attempt (Scope.within_perform (fun _ => rfl) (fun _ h => h)) (fun _ _ => trivial)
      (fun _ => trivial)

/-! ## What a call does -/

theorem letters_map {letters : RowKey → Option DeadLetter} {f : DeadLetter → DeadLetter}
    (hf : ∀ d, (f d).key = d.key ∧ (f d).payload = d.payload)
    (h : ∀ k d, letters k = some d → d.key = k ∧ Filed d.payload k) :
    ∀ k d, update letters key ((letters key).map f) k = some d → d.key = k ∧
      Filed d.payload k := by
  intro k d hd
  by_cases hk : k = key
  · rw [hk, update_self] at hd
    obtain ⟨d', hd', rfl⟩ := Option.map_eq_some_iff.mp hd
    rw [(hf d').1, (hf d').2, hk]
    exact h key d' hd'
  · rw [update_of_ne hk] at hd
    exact h k d hd

theorem kept_call (ho : (scope A).may o) (h : Kept w.db) : Kept (World.handle env o w).2.db := by
  rcases @World.handle_db env w o with hdb | ⟨s, pick, rfl, _, hdb⟩
  · rw [hdb]
    exact h
  · rw [hdb]
    cases s with
    | enqueueRetry e delay =>
      refine ⟨fun r hr => ?_, h.letters⟩
      rcases Table.mem_upsert.mp hr with rfl | ⟨hr, _⟩
      · rw [Database.retryRow_state, Database.retryRow_key]
        exact ho.2
      · exact h.rows r hr
    | deleteRetry k => exact ⟨fun r hr => h.rows r (List.mem_filter.mp hr).1, h.letters⟩
    | insertDeadLetter d =>
      refine ⟨h.rows, fun k d' hd' => ?_⟩
      by_cases hk : k = d.key
      · subst hk
        cases (update_self ..).symm.trans hd'
        exact ⟨rfl, ho.2⟩
      · exact h.letters k d' ((update_of_ne hk ..).symm.trans hd')
    | resolveDeadLetterForEvent k => exact ⟨h.rows, letters_map (fun d => by split_ifs <;> exact ⟨rfl, rfl⟩) h.letters⟩
    | setDeadLetterStatus k new => exact ⟨h.rows, letters_map (fun d => ⟨rfl, rfl⟩) h.letters⟩
    | _ => exact ⟨h.rows, h.letters⟩

/-- **What is handed out** is filed right, and in reach of those who were not handed the event. -/
theorem gives_of_kept (h : Kept w.db) :
    ∀ a, (World.handle env o w).1 = .ok a → (scope (fun _ => False)).gives o a ∧
      (fetched key ⟨o, (World.handle env o w).1⟩ = false → (scope (· = key)).gives o a) := by
  cases o with
  | store s =>
    rcases World.handle_store env w s with ⟨_, _, hcall⟩ | ⟨pick, _, hcall⟩
    · rw [hcall]
      nofun
    · rw [hcall]
      cases s with
      | claimDueRetries limit =>
        rintro _ ⟨⟩
        have hmem : ∀ r ∈ w.db.dueRetries w.now limit, r ∈ w.db.retryQueue.rows := fun r hr =>
          (List.mem_filter.mp (List.mem_insertionSort _ |>.mp (List.mem_of_mem_take hr))).1
        refine ⟨fun r hr => ⟨id, h.rows r (hmem r hr)⟩, fun hnot r hr => ⟨fun hkey => ?_, h.rows r (hmem r hr)⟩⟩
        exact List.any_eq_false.mp hnot r hr (decide_eq_true hkey)
      | getDeadLetter k =>
        intro d hd
        have hletter := h.letters k d (Database.rowOrNotFound_ok hd)
        exact ⟨hletter, fun _ => hletter⟩
      | _ => exact fun _ _ => ⟨trivial, fun _ => trivial⟩
  | _ => exact fun _ _ => ⟨trivial, fun _ => trivial⟩

theorem not_fetched (hrow : w.db.retryQueue.get? key = none) :
    fetched key ⟨o, (World.handle env o w).1⟩ = false := by
  cases o with
  | store s =>
    rcases World.handle_store env w s with ⟨_, _, hcall⟩ | ⟨pick, _, hcall⟩
    · rw [hcall]
      cases s <;> rfl
    · rw [hcall]
      cases s with
      | claimDueRetries limit =>
        refine List.any_eq_false.mpr (fun r hr hkey => ?_)
        have hmem : r ∈ w.db.retryQueue.rows :=
          (List.mem_filter.mp (List.mem_insertionSort _ |>.mp (List.mem_of_mem_take hr))).1
        have hget := Table.get?_of_mem hmem
        rw [of_decide_eq_true hkey, hrow] at hget
        cases hget
      | _ => rfl
  | _ => rfl

/-- The entry is discarded, and nothing is queued for it. -/
structure Rests (key : RowKey) (db : Database) : Prop where
  entry : (db.deadLetters key).map DeadLetter.status = some .discarded
  row : db.retryQueue.get? key = none

theorem rests_call (ho : (scope (· = key)).may o) (h : Rests key w.db) :
    Rests key (World.handle env o w).2.db := by
  rcases @World.handle_db env w o with hdb | ⟨s, pick, rfl, _, hdb⟩
  · rw [hdb]
    exact h
  · rw [hdb]
    cases s with
    | enqueueRetry e delay =>
      refine ⟨h.entry, (Table.get?_upsert_ne ?_).trans h.row⟩
      rw [Database.retryRow_key]
      exact Ne.symm ho.1
    | deleteRetry k =>
      refine ⟨h.entry, ?_⟩
      by_cases hk : key = k
      · rw [hk]
        exact Table.get?_delete_self
      · exact (Table.get?_delete_ne hk).trans h.row
    | insertDeadLetter d =>
      exact ⟨(congrArg (Option.map DeadLetter.status) (update_of_ne (Ne.symm ho.1) ..)).trans h.entry, h.row⟩
    | resolveDeadLetterForEvent k =>
      refine ⟨?_, h.row⟩
      show (update w.db.deadLetters k _ key).map DeadLetter.status = _
      by_cases hk : key = k
      · subst hk
        obtain ⟨d, hd, hstatus⟩ := Option.map_eq_some_iff.mp h.entry
        rw [update_self, hd, Option.map_some, if_pos hstatus, Option.map_some, hstatus]
      · rw [update_of_ne hk]
        exact h.entry
    | setDeadLetterStatus k new =>
      refine ⟨?_, h.row⟩
      show (update w.db.deadLetters k _ key).map DeadLetter.status = _
      by_cases hk : key = k
      · obtain ⟨d, hd, _⟩ := Option.map_eq_some_iff.mp h.entry
        rw [← hk, update_self, hd, Option.map_some, Option.map_some, ho hk.symm]
      · rw [update_of_ne hk]
        exact h.entry
    | _ => exact ⟨h.entry, h.row⟩

/-! ## Before the discard -/

/-- Whoever does not hold the event leaves it alone from now on. -/
structure Sound (key : RowKey) (c : Desk) : Prop where
  kept : Kept c.state.db
  filed : ∀ t ∈ c.threads, (scope (fun _ => False)).within t.prog (fun _ => True)
  apart : ∀ t ∈ c.threads, Holds key t ∨ (scope (· = key)).within t.prog (fun _ => True)

theorem within_next {P : Scope sig} {k : Except GoError (sig.Res o) → Sync Unit}
    {r : Except GoError (sig.Res o)} (h : P.within (.call o k) (fun _ => True)) (hgives : ∀ a, r = .ok a →
      P.gives o a) : P.within (k r) (fun _ => True) := by
  cases r with
  | ok a => exact h.2.1 a (hgives a rfl)
  | error e => exact h.2.2 e

theorem move_db (m : Move) : (m.apply w).db = w.db := by
  cases m <;> rfl

/-- **Step lemma**: each program still holds the event, or leaves it alone. -/
theorem sound_step {a : Act Task Move} (h : Sound key c) (hstep : Pool.step (desk env) c a = some c') :
    Sound key c' := by
  rcases Pool.step_cases hstep with ⟨task, rfl, rfl⟩ | ⟨i, t, o, k, rfl, hi, hprog, rfl⟩ | ⟨m, s, rfl, hs, rfl⟩
  · have hnone : ¬ task.concerns (fun _ => False) := by
      cases task <;> simp [Task.concerns]
    refine ⟨h.kept, List.forall_mem_append.mpr ⟨h.filed, List.forall_mem_singleton.mpr (body_within hnone)⟩,
      List.forall_mem_append.mpr ⟨h.apart, List.forall_mem_singleton.mpr ?_⟩⟩
    by_cases hconcerns : task.concerns (· = key)
    · exact .inl (.inl hconcerns)
    · exact .inr (body_within hconcerns)
  · have hmem := List.mem_of_getElem? hi
    have hfiled := h.filed t hmem
    rw [hprog] at hfiled
    have hgives := @gives_of_kept env c.state key o h.kept
    refine ⟨kept_call hfiled.1 h.kept, fun u hu => ?_, fun u hu => ?_⟩
    · rcases List.mem_or_eq_of_mem_set hu with hu | rfl
      · exact h.filed u hu
      · exact within_next hfiled (fun a ha => (hgives a ha).1)
    · rcases List.mem_or_eq_of_mem_set hu with hu | rfl
      · exact h.apart u hu
      · cases hfetched : fetched key ⟨o, (World.handle env o c.state).1⟩ with
        | true =>
          refine .inl (.inr ?_)
          show (t.log ++ [(⟨o, (World.handle env o c.state).1⟩ : Entry sig GoError)]).any (fetched key) = true
          rw [List.any_append, List.any_cons, hfetched, Bool.true_or, Bool.or_true]
        | false =>
          rcases h.apart t hmem with (hconcerns | hlog) | hwithin
          · exact .inl (.inl hconcerns)
          · refine .inl (.inr ?_)
            show (t.log ++ [(⟨o, (World.handle env o c.state).1⟩ : Entry sig GoError)]).any (fetched key) = true
            rw [List.any_append, hlog, Bool.true_or]
          · rw [hprog] at hwithin
            exact .inr (within_next hwithin (fun a ha => (hgives a ha).2 hfetched))
  · cases hs
    refine ⟨?_, h.filed, h.apart⟩
    rw [move_db]
    exact h.kept

/-! ## After the discard -/

structure Buried (key : RowKey) (n : Nat) (c : Desk) : Prop where
  kept : Kept c.state.db
  rests : Rests key c.state.db
  apart : ∀ t ∈ c.threads, (scope (· = key)).within t.prog (fun _ => True)
  idle : executions key c = n

theorem executions_set {i : Nat} {t t' : Thread sig GoError Task} (hi : c.threads[i]? = some t)
    (h : executionsOf key t' = executionsOf key t) :
    (List.map (executionsOf key) (c.threads.set i t')).sum = executions key c := by
  obtain ⟨hlt, rfl⟩ := List.getElem?_eq_some_iff.mp hi
  rw [List.map_set, h, ← List.getElem_map (executionsOf key) (h := by rwa [List.length_map]),
    List.set_getElem_self]
  rfl

/-- **Step lemma**: nothing runs a discarded event, and nothing takes it out again. -/
theorem buried_step {n : Nat} {a : Act Task Move} (h : Buried key n c) (ha : untouched key c a)
    (hstep : Pool.step (desk env) c a = some c') : Buried key n c' := by
  rcases Pool.step_cases hstep with ⟨task, rfl, rfl⟩ | ⟨i, t, o, k, rfl, hi, hprog, rfl⟩ | ⟨m, s, rfl, hs, rfl⟩
  · refine ⟨h.kept, h.rests, List.forall_mem_append.mpr ⟨h.apart, List.forall_mem_singleton.mpr (body_within ha)⟩, ?_⟩
    rw [executions, List.map_append, List.sum_append]
    exact h.idle
  · have hmem := List.mem_of_getElem? hi
    have hapart := h.apart t hmem
    rw [hprog] at hapart
    have hgives := @gives_of_kept env c.state key o h.kept
    refine ⟨kept_call hapart.1 h.kept, rests_call hapart.1 h.rests, fun u hu => ?_, ?_⟩
    · rcases List.mem_or_eq_of_mem_set hu with hu | rfl
      · exact h.apart u hu
      · exact within_next hapart (fun a ha => (hgives a ha).2 (not_fetched h.rests.row))
    · refine (executions_set hi ?_).trans h.idle
      have hno : executes key o = false := by
        unfold executes
        split
        · exact decide_eq_false hapart.1
        · rfl
      show (t.log ++ [_]).countP _ = t.log.countP _
      rw [List.countP_append, List.countP_singleton, if_neg (by rw [hno]; exact Bool.false_ne_true), Nat.add_zero]
  · cases hs
    refine ⟨?_, ?_, h.apart, h.idle⟩
    · rw [move_db]
      exact h.kept
    · rw [move_db]
      exact h.rests

open Deployment (annCreated policy tenant)

/-- Both providers refuse every request, with an error that is not retried. -/
def lockedOut : World :=
  { Deployment.world [policy "salesforce" "hubspot"] with providerTape := fun _ => some ⟨.auth, "denied", 0, none⟩ }

theorem lockedOut_kept : Kept lockedOut.db := ⟨fun _ hr => absurd hr List.not_mem_nil, fun _ _ hd => nomatch hd⟩

/-- Thread `i` starts the task and makes `n` calls. -/
def wholly (i n : Nat) (task : Task) : List (Act Task Move) := .start task :: List.replicate n (.fire i)

/-- The event fails, and its entry is discarded. -/
def given : List (Act Task Move) := wholly 0 13 (.worker (.event annCreated)) ++ wholly 1 2
    (.discard annCreated.rowKey)

/-- Another event fails, is sent back while an engine polls, and is run again. -/
def meanwhile : List (Act Task Move) :=
  .move (.tick 10) :: wholly 2 13 (.worker (.event { annCreated with eventID := "e2" })) ++
    [.start (.retry ⟨tenant, "e2"⟩), .start (.engine 100), .fire 3, .fire 4, .fire 3, .fire 3] ++ wholly 5 15
      (.engine 100)

/-- The event fails, and its entry is sent back and then discarded. -/
def sentBack : List (Act Task Move) :=
  wholly 0 13 (.worker (.event annCreated)) ++ wholly 1 3 (.retry annCreated.rowKey) ++ wholly 2 2
    (.discard annCreated.rowKey)

theorem run_of_test (as bs : List (Act Task Move)) (test : Desk → Desk → Bool)
    (h : ((Transition.exec (Pool.step (desk Deployment.env)) (fun _ _ => true) as ⟨[], lockedOut⟩).bind
      (fun c =>
      (Transition.exec (Pool.step (desk Deployment.env)) (fun _ _ => true) bs c).map (test c))) = some true)
    (hbs : ∀ c, ∀ a ∈ bs, untouched annCreated.rowKey c a) :
    ∃ c c', Run (Pool.step (desk Deployment.env)) (fun _ _ => True) ⟨[], lockedOut⟩ as c ∧
      Run (Pool.step (desk Deployment.env)) (untouched annCreated.rowKey) c bs c' ∧ test c c' = true := by
  obtain ⟨c, hc, hrest⟩ := Option.bind_eq_some_iff.mp h
  obtain ⟨c', hc', htest⟩ := Option.map_eq_some_iff.mp hrest
  exact ⟨c, c', Transition.exec_run hc, (Transition.run_of_exec hc').mono (fun c a ha _ => hbs c a ha), htest⟩

end SyncForge.Discard
