import SyncForge.Cluster.Claim

/-!
# `Cluster.Debt` — what one execution owes its event

An execution that gives its claim up after a failure owes the event a durable place: a retry row or a dead
letter. `Debt` is where it stands with that. On a store that does not fail, `process_debt` says how `Process`
leaves it, and `finish_debt` that a worker or a retry engine always pays.
-/

namespace SyncForge.Cluster

open Effect Effect.Prog Store
open Monitor (wp_mono wp_perform wp_seq)

/-! ## The debt -/

/-- Where an execution stands with its event: not started, refused the claim, holding it, released after a
    failure with nothing stored yet, stored as a retry row, stored as a dead letter. -/
inductive Debt where
  | fresh | refused | held | owing | queued | parked
deriving DecidableEq, Repr

def Debt.next (d : Debt) (o : Call) (r : Except GoError (sig.Res o)) : Debt :=
  match d, o, r with
  | .fresh, .store (.claimProcessedEvent _), .ok true => .held
  | .fresh, .store (.claimProcessedEvent _), _ => .refused
  | .held, .store (.releaseProcessedEvent _), _ => .owing
  | .owing, .store (.enqueueRetry _ _), .ok _ => .queued
  | .owing, .store (.insertDeadLetter _), .ok _ => .parked
  | d, _, _ => d

def Debt.toHold : Debt → Hold
  | .fresh => .fresh
  | .refused => .refused
  | .held => .held
  | .owing | .queued | .parked => .released

def debt (log : List (Entry sig GoError)) : Debt := log.foldl (fun d e => d.next e.op e.answer) .fresh

@[simp] theorem debt_snoc (log : List (Entry sig GoError)) (e : Entry sig GoError) :
    debt (log ++ [e]) = (debt log).next e.op e.answer := by
  simp [debt]

theorem next_toHold (d : Debt) (o : Call) (r : Except GoError (sig.Res o)) :
    (d.next o r).toHold = d.toHold.next o r := by
  cases o with
  | store s =>
    cases s with
    | claimProcessedEvent key =>
      cases d with
      | fresh =>
        match r with
        | .ok true => rfl
        | .ok false => rfl
        | .error _ => rfl
      | _ => rfl
    | enqueueRetry e delay => cases d <;> cases r <;> rfl
    | insertDeadLetter l => cases d <;> cases r <;> rfl
    | _ => cases d <;> rfl
  | _ => cases d <;> rfl

theorem hold_eq_toHold (log : List (Entry sig GoError)) : hold log = (debt log).toHold := by
  induction log using List.reverseRecOn with
  | nil => rfl
  | append_singleton log e ih => rw [hold_snoc, debt_snoc, next_toHold, ih]

theorem debt_held {log : List (Entry sig GoError)} : debt log = .held ↔ hold log = .held := by
  rw [hold_eq_toHold]
  cases debt log <;> simp [Debt.toHold]

def MatchesNoPolicy (env : Env) (db : Database) (ev : Event) : Prop :=
  ev.provenance.reconcileFindingID = "" ∧
    ∃ adapter, env.registry ev.source = some adapter ∧
      targets ev adapter.canonicalEntityType (db.policiesOf ev.tenantID) = []

def Reliable (db : Database) : (o : Call) → Except GoError (sig.Res o) → Prop
  | .store (.listPolicies tenant), .ok policies => policies = db.policiesOf tenant
  | .store (.getConnectionByProvider _ provider), .ok conn => conn.provider = provider
  | .store (.claimProcessedEvent _), .error _ => False
  | .store (.enqueueRetry _ _), .error _ => False
  | .store (.insertDeadLetter _), .error _ => False
  | .random, .error _ => False
  | _, _ => True

def debtMonitor (db : Database) (rerun : Bool) : Monitor sig GoError Debt where
  next := Debt.next
  may d o :=
    match o with
    | .store (.deleteRetry _) => rerun = true ∧ (d = .held ∨ d = .refused ∨ d = .parked)
    | .store (.resolveDeadLetterForEvent _) => rerun = true ∧ (d = .held ∨ d = .refused)
    | _ => True
  adm _ := Reliable db

/-- How `Process` leaves the debt, when its event has policies. -/
def Settlement (d : Debt) : Except GoError Outcome → Prop
  | .ok .duplicate => d = .refused
  | .ok .noPolicy => False
  | .ok .applied => d = .held
  | .ok .reconciled => d = .held
  | .error _ => d = .owing

variable {env : Env} {db : Database} {ev : Event} {rerun : Bool}

theorem work_debt {α : Type} {p : Sync α} (hp : OnlyWork p) :
    (debtMonitor db rerun).wp p (fun d _ => d = .held) .held := by
  refine wp_of_only hp (fun d o hd ho => ?_) rfl
  subst hd
  cases o with
  | store s => cases s <;> first | exact ⟨trivial, fun _ _ => rfl⟩ | cases ho
  | random => cases ho
  | _ => exact ⟨trivial, fun _ _ => rfl⟩

theorem entityType_debt : (debtMonitor db rerun).wp (canonicalEntityType env ev)
      (fun d r => d = .held ∧ ∀ entityType, r = .ok entityType →
        ∃ adapter, env.registry ev.source = some adapter ∧ adapter.canonicalEntityType = entityType) .held := by
  have hconnect : (debtMonitor db rerun).wp (connect env ev.tenantID ev.source)
      (fun d r => d = .held ∧ ∀ src, r = .ok src → env.registry ev.source = some src.adapter) .held := by
    refine wp_connect.mpr ⟨trivial, fun r hr => ⟨rfl, fun src hsrc => ?_⟩⟩
    cases r with
    | error e => cases hsrc
    | ok conn =>
      have hprov : conn.provider = ev.source := hr
      rw [← hprov]
      exact (adapterFor_ok hsrc).2
  refine wp_seq hconnect (fun d src h => ⟨h.1, fun entityType he => ?_⟩) (fun _ _ h => ⟨h.1, nofun⟩)
  cases he
  exact ⟨src.adapter, h.2 src rfl, rfl⟩

theorem dispatch_debt (hpolicy : ¬ MatchesNoPolicy env db ev) :
    (debtMonitor db rerun).wp (dispatch env ev) (fun d r => d = .held ∧ r ≠ .ok .noPolicy) .held := by
  have hlist : (debtMonitor db rerun).wp (stmt (.listPolicies ev.tenantID))
      (fun d r => d = .held ∧ ∀ policies, r = .ok policies → policies = db.policiesOf ev.tenantID) .held := by
    refine (wp_perform _).mpr ⟨trivial, fun r hr => ⟨rfl, ?_⟩⟩
    rintro policies rfl
    exact hr
  refine wp_seq hlist (fun d policies h => ?_) (fun _ _ h => ⟨h.1, nofun⟩)
  obtain ⟨rfl, hpolicies⟩ := h
  refine wp_seq entityType_debt (fun d entityType h => ?_) (fun _ _ h => ⟨h.1, nofun⟩)
  obtain ⟨rfl, hadapter⟩ := h
  obtain ⟨adapter, hreg, rfl⟩ := hadapter entityType rfl
  have hwork : ∀ {p : Sync Unit} {outcome : Dispatched}, OnlyWork p → outcome ≠ .noPolicy →
      (debtMonitor db rerun).wp (p >>= fun _ => (Pure.pure outcome : Sync Dispatched))
        (fun d r => d = .held ∧ r ≠ .ok .noPolicy) .held := by
    intro p outcome hp hne
    refine wp_seq (work_debt hp) (fun d _ h => ⟨h, ?_⟩) (fun _ _ h => ⟨h, nofun⟩)
    intro heq
    cases heq
    exact hne rfl
  show (debtMonitor db rerun).wp (ite _ _ _) _ _
  split
  · exact hwork applyReconcileFinding_only nofun
  · rename_i hrec
    split
    · rename_i hnone
      rw [hpolicies policies rfl] at hnone
      exact absurd ⟨not_not.mp hrec, adapter, hreg, hnone⟩ hpolicy
    · split
      · exact hwork applyDelete_only nofun
      · exact hwork applyUpsert_only nofun

/-- **`Process` and its debt**: a failure leaves it owing, everything else settles it. -/
theorem process_debt (hpolicy : ¬ MatchesNoPolicy env db ev) :
    (debtMonitor db rerun).wp (process env ev) Settlement .fresh := by
  have hclaim : (debtMonitor db rerun).wp (stmt (.claimProcessedEvent ev.key))
      (fun d r => r = .ok true ∧ d = .held ∨ r = .ok false ∧ d = .refused) .fresh := by
    refine (wp_perform _).mpr ⟨trivial, fun r hr => ?_⟩
    match r, hr with
    | .ok true, _ => exact .inl ⟨rfl, rfl⟩
    | .ok false, _ => exact .inr ⟨rfl, rfl⟩
  have hmark : ∀ {status : SourceEventStatus} {d : Debt} {outcome : Outcome}, Settlement d (.ok outcome) →
      (debtMonitor db rerun).wp (mark ev status >>= fun _ => (Pure.pure outcome : Sync Outcome)) Settlement d := by
    intro status d outcome hd
    have hnext : (debtMonitor db rerun).wp (mark ev status) (fun d' r => d' = d ∧ r = .ok ()) d :=
      wp_tryStmt.mpr ⟨trivial, fun r _ => ⟨by cases d <;> rfl, rfl⟩⟩
    exact wp_seq hnext (fun d' _ h => by rw [h.1]; exact hd) (fun _ _ h => absurd h.2 nofun)
  refine wp_seq hclaim (fun d claimed h => ?_) ?_
  · rcases h with ⟨hc, rfl⟩ | ⟨hc, rfl⟩
    · cases hc
      refine Monitor.wp_seq_attempt (dispatch_debt hpolicy) (fun d r h => ?_)
      obtain ⟨rfl, hnone⟩ := h
      split
      · -- the failure path: the claim is given up, and the error goes to the caller
        have hgive : (debtMonitor db rerun).wp (tryStmt (.releaseProcessedEvent ev.key))
            (fun d _ => d = .owing) .held := wp_tryStmt.mpr ⟨trivial, fun _ _ => rfl⟩
        have hrelease : (debtMonitor db rerun).wp (release ev .failed) (fun d _ => d = .owing) .held := by
          refine wp_seq hgive (fun d _ h => ?_) (fun _ _ h => h)
          exact wp_tryStmt.mpr ⟨trivial, fun _ _ => by rw [h]; rfl⟩
        exact wp_seq hrelease (fun d _ h => h) (fun _ _ h => h)
      · exact absurd rfl hnone
      · exact hmark rfl
      · exact hmark rfl
    · cases hc
      exact rfl
  · intro d e h
    rcases h with ⟨hc, _⟩ | ⟨hc, _⟩ <;> cases hc

def Task.isRerun : Task → Bool
  | .retry _ => true
  | _ => false

theorem random_debt : (debtMonitor db rerun).wp (perform (S := sig) .random)
    (fun d r => d = .owing ∧ ∃ n, r = .ok n) .owing := by
  refine (wp_perform _).mpr ⟨trivial, fun r hr => ?_⟩
  cases r with
  | ok n => exact ⟨rfl, n, rfl⟩
  | error e => cases hr

theorem enqueue_debt (e : RetryEntry) (delay : Duration) :
    (debtMonitor db rerun).wp (stmt (.enqueueRetry e delay)) (fun d _ => d = .queued) .owing := by
  refine (wp_perform _).mpr ⟨trivial, fun r hr => ?_⟩
  cases r with
  | ok _ => rfl
  | error e => cases hr

theorem park_debt (l : DeadLetter) :
    (debtMonitor db rerun).wp (stmt (.insertDeadLetter l)) (fun d r => d = .parked ∧ r = .ok ()) .owing := by
  refine (wp_perform _).mpr ⟨trivial, fun r hr => ?_⟩
  cases r with
  | ok _ => exact ⟨rfl, rfl⟩
  | error e => cases hr

theorem status_debt {tenantID eventID : String} {status : SourceEventStatus} {d : Debt} :
    (debtMonitor db rerun).wp (tryStmt (.setSourceEventStatusTo tenantID eventID status))
      (fun d' r => d' = d ∧ r = .ok ()) d :=
  wp_tryStmt.mpr ⟨trivial, fun r _ => ⟨by cases d <;> rfl, rfl⟩⟩

/-- The task is a delivery to `Handle`. -/
def Task.isHandle : Task → Bool
  | .handle _ => true
  | _ => false

theorem dispatchFailure_debt (e : GoError) : (debtMonitor db rerun).wp (dispatchFailure env ev e)
    (fun d _ => d ≠ .owing) .owing := by
  show (debtMonitor db rerun).wp (ite _ _ _) _ _
  split
  · refine wp_seq random_debt (fun d jitter h => ?_) (fun _ _ h => ?_)
    · rw [h.1]
      exact wp_mono (enqueue_debt _ _) (fun d _ h => by rw [h]; nofun)
    · obtain ⟨_, n, hn⟩ := h
      cases hn
  · refine wp_seq (park_debt _) (fun d _ h => ?_) (fun _ _ h => absurd h.2 nofun)
    exact wp_mono status_debt (fun d' _ h' => by rw [h'.1, h.1]; nofun)

theorem reschedule_debt (row : RetryEntry) (e : GoError) :
    (debtMonitor db true).wp (Retry.reschedule env row e) (fun d _ => d ≠ .owing) .owing := by
  have hpark : (debtMonitor db true).wp (Retry.deadLetter row e.error e.classify.1.string)
      (fun d r => d = .parked ∧ r = .ok ()) .owing := by
    refine Monitor.wp_seq_attempt (park_debt _) (fun d r h => ?_)
    obtain ⟨rfl, rfl⟩ := h
    exact status_debt
  show (debtMonitor db true).wp (ite _ _ _) _ _
  split
  · refine wp_seq hpark (fun d _ h => ?_) (fun _ _ h => absurd h.2 nofun)
    rw [h.1]
    exact wp_tryStmt.mpr ⟨⟨rfl, .inr (.inr rfl)⟩, fun _ _ => nofun⟩
  · refine wp_seq random_debt (fun d jitter h => ?_) (fun _ _ h => ?_)
    · rw [h.1]
      refine wp_tryStmt.mpr ⟨trivial, fun r hr => ?_⟩
      cases r with
      | ok _ => nofun
      | error e => cases hr
    · obtain ⟨_, n, hn⟩ := h
      cases hn

/-- A re-run that returned `nil` clears the row and the dead letter. -/
theorem settle_debt (row : RetryEntry) {d : Debt} (hd : d = .held ∨ d = .refused) :
    (debtMonitor db true).wp (Retry.settle row) (fun d _ => d ≠ .owing) d := by
  have hdelete : (debtMonitor db true).wp (tryStmt (.deleteRetry row.key)) (fun d' r => d' = d ∧
    r = .ok ()) d := by
    refine wp_tryStmt.mpr ⟨⟨rfl, ?_⟩, fun _ _ => ⟨by cases d <;> rfl, rfl⟩⟩
    rcases hd with h | h
    · exact .inl h
    · exact .inr (.inl h)
  refine wp_seq hdelete (fun d' _ h => ?_) (fun _ _ h => absurd h.2 nofun)
  rw [h.1]
  refine wp_tryStmt.mpr ⟨⟨rfl, hd⟩, fun _ _ => ?_⟩
  rcases hd with rfl | rfl
  · nofun
  · nofun

theorem finish_debt {task : Task} (htask : ∀ e, task ≠ .invoke e) {d : Debt} {r : Except GoError Outcome}
    (hd : Settlement d r) : (debtMonitor db task.isRerun).wp (task.finish env ev r)
    (fun d _ => d ≠ .owing) d := by
  cases r with
  | error e =>
    have howing : d = .owing := hd
    subst howing
    cases task with
    | handle value => exact dispatchFailure_debt e
    | invoke ev' => exact absurd rfl (htask ev')
    | retry row => exact reschedule_debt row e
  | ok outcome =>
    have hcase : d = .held ∨ d = .refused := by
      cases outcome with
      | duplicate => exact .inr hd
      | noPolicy => cases hd
      | applied => exact .inl hd
      | reconciled => exact .inl hd
    cases task with
    | retry row => exact settle_debt row hcase
    | handle value => rcases hcase with rfl | rfl <;> exact nofun
    | invoke ev' => exact absurd rfl (htask ev')

end SyncForge.Cluster
