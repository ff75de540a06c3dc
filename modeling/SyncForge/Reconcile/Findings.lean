import SyncForge.Deployment
import SyncForge.Effect.Pool
import SyncForge.Reconcile.Engine
import SyncForge.Worker.Rewrites

/-!
# `Reconcile.Findings` — a closed finding is not repaired again

No statement reopens a finding that is applied, skipped or dismissed. Any number of programs share the
database, one call at a time, and nothing is assumed of them; time passes and the providers do as they like. A
worker or retry engine that handles an event for such a finding then leaves the providers alone
(`closed_not_repaired`).
-/

namespace SyncForge.Findings

open Effect Effect.Prog Scope Store
open Database (exec)
open Deployment (annCreated sweepJob sweepOf world)

variable {tenantID id : String} {db : Database} {env : Env} {ev : Event}

/-- The finding is applied, skipped or dismissed. -/
def Closed (tenantID id : String) (db : Database) : Prop :=
  ∃ f, db.findings.find? (fun g => g.tenantID = tenantID ∧ g.id = id) = some f ∧ f.status ≠ .pending ∧
    f.status ≠ .failed

/-- **No statement reopens it.** -/
theorem exec_closed (now : Time) (pick : Nat) (o : StoreOp) (h : Closed tenantID id db) :
    Closed tenantID id (exec now pick o db).2 := by
  obtain ⟨f, hf, hclosed⟩ := h
  cases o with
  | setReconciliationFindingStatus t i status error =>
    refine ⟨_, Database.find?_map hf (fun g => ?_), ?_⟩
    · split_ifs <;> exact ⟨rfl, rfl⟩
    · -- the statement passes over what is neither pending nor failed
      rwa [if_neg (fun h => h.2.2.elim hclosed.1 (fun h => hclosed.2 h.1))]
  | setReconciliationFindingDirection t i direction =>
    refine ⟨_, Database.find?_map hf (fun g => ?_), ?_⟩
    · split_ifs <;> exact ⟨rfl, rfl⟩
    · split_ifs <;> exact hclosed
  | insertReconciliationFinding g =>
    refine ⟨f, ?_, hclosed⟩
    show (db.insertFinding g).findings.find? _ = _
    unfold Database.insertFinding
    split
    · exact hf
    · rw [List.find?_append, hf]
      rfl
  | _ => exact ⟨f, hf, hclosed⟩

/-- No request changes a provider, given that the finding is not pending. -/
def harmless (tenantID id : String) : Scope sig where
  may o := o.isProvider = false
  gives
    | .store (.getReconciliationFinding t i), f => t = tenantID → i = id → f.status ≠ .pending
    | _, _ => True

theorem handle_harmless {w : World} {o : Call} (h : Closed tenantID id w.db) {a : sig.Res o}
    (ha : (World.handle env o w).1 = .ok a) : (harmless tenantID id).gives o a := by
  cases o with
  | store s =>
    cases s with
    | getReconciliationFinding t i =>
      rintro rfl rfl
      obtain ⟨f, hf, hclosed⟩ := h
      rcases World.handle_store env w (.getReconciliationFinding t i) with ⟨text, _, h⟩ | ⟨pick, _, h⟩
      · rw [h] at ha
        cases ha
      · rw [h] at ha
        have hfound := Database.rowOrNotFound_ok ha
        rw [hf] at hfound
        cases hfound
        exact hclosed.1
    | _ => trivial
  | _ => trivial

/-- The event asks for the repair of the finding. -/
def Asks (tenantID id : String) (ev : Event) : Prop := ev.tenantID = tenantID ∧
    ev.provenance.reconcileFindingID = id

theorem process_harmless (hid : id ≠ "") (hev : Asks tenantID id ev) :
    (harmless tenantID id).within (process env ev) (fun _ => True) := by
  obtain ⟨rfl, rfl⟩ := hev
  refine process_within_of rfl rfl (fun _ => rfl) ?_
  have hread : Only (fun o : Call => o.isProvider = false) (canonicalEntityType env ev) :=
    only_bind (only_bind (only_stmt rfl) (fun _ => only_ofExcept _)) (fun _ => trivial)
  refine within_bind (within_perform rfl (fun _ _ => trivial)) (fun policies (_ : True) => ?_)
  refine within_bind (within_of_only hread (fun _ h => h)) (fun entityType _ => ?_)
  have hrepair : (harmless ev.tenantID ev.provenance.reconcileFindingID).within
      (applyReconcileFinding env ev entityType policies) (fun _ => True) := by
    refine within_attempt (within_perform rfl (fun _ h => h)) (fun f hf => ?_) (fun e => ?_)
    · show Scope.within _ (ite _ _ _) _
      rw [if_pos (hf rfl rfl)]
      trivial
    · cases e <;> trivial
  rw [if_pos hid]
  exact within_bind hrepair (fun _ _ => trivial)

theorem bookkeeping_harmless {α : Type} {p : Sync α} (hp : OnlyBookkeeping p) :
    (harmless tenantID id).within p (fun _ => True) := by
  refine within_of_only hp (fun o ho => ?_)
  cases o with
  | create | update | delete => cases ho
  | _ => rfl

/-- The programs that run `Process` for such an event: a worker's and a retry engine's. -/
inductive Runs (env : Env) (tenantID id : String) : Sync Unit → Prop where
  | handle {ev : Event} : Asks tenantID id ev → Runs env tenantID id (handle env (.marshal ev))
  | retry {ev : Event} {r : RetryEntry} : Asks tenantID id ev → r.state = .marshal ev →
      Runs env tenantID id (Retry.processRetry env r)

theorem Runs.harmless {p : Sync Unit} (hid : id ≠ "") (h : Runs env tenantID id p) :
    (harmless tenantID id).within p (fun _ => True) := by
  cases h with
  | handle hev =>
    show Scope.within _ (attempt (process env _) >>= _) _
    exact within_attempt (process_harmless hid hev) (fun _ _ => trivial)
      (fun _ => bookkeeping_harmless dispatchFailure_only)
  | retry hev hr =>
    unfold Retry.processRetry
    rw [hr]
    exact within_attempt (process_harmless hid hev) (fun _ _ => bookkeeping_harmless (Retry.settle_only _))
      (fun _ => bookkeeping_harmless (Retry.reschedule_only _ _))

/-! ## Among other programs -/

/-- The time that passes, the providers after it and the webhooks on their way. -/
structure Move where
  elapsed : Nat
  sims : Endpoint → SimServer
  outbox : List Event

def system (env : Env) : Pool.Setup sig GoError (Sync Unit) World Move where
  handle := World.handle env
  body p := p
  move m w := some { w with now := w.now + m.elapsed, sims := m.sims, outbox := m.outbox }

def lasting (env : Env) (tenantID id : String) : Rely sig GoError World :=
  { Rely.free (World.handle env) with inv := fun w => Closed tenantID id w.db }

def promise (env : Env) (tenantID id : String) (p : Sync Unit) : Promise sig GoError World Unit where
  may _ o _ := Runs env tenantID id p → o.isProvider = false
  post _ _ _ := True

theorem handle_closed {w : World} (call : Call) (h : Closed tenantID id w.db) :
    Closed tenantID id (World.handle env call w).2.db := by
  rcases @World.handle_db env w call with hsame | ⟨s, pick, rfl, _, hexec⟩
  · rwa [hsame]
  · rw [hexec]
    exact exec_closed _ pick s h

theorem start_safe (hid : id ≠ "") (p : Sync Unit) (w : World) :
    (lasting env tenantID id).safe (promise env tenantID id p).may p (promise env tenantID id p).post [] w := by
  by_cases hp : Runs env tenantID id p
  · refine Rely.safe_of_within (I := fun _ _ => True) (hp.harmless hid) (fun o t a _ h ha => handle_harmless h ha)
      (fun _ _ _ _ _ => trivial) (fun log o t ho h _ _ => ?_) trivial
    exact ⟨fun _ => ho, ⟨trivial, handle_closed o h⟩, trivial⟩
  · refine Rely.safe_of_only (I := fun _ _ => True) (only_true p) (fun _ _ _ _ _ => trivial) (fun log o t _ h _ _ => ?_) trivial
    exact ⟨fun h => absurd h hp, ⟨trivial, handle_closed o h⟩, trivial⟩

/-- **A closed finding is not repaired again**: among any other programs, a worker or retry engine that
    handles an event for it makes no request that changes a provider. -/
theorem closed_not_repaired {w : World} (hid : id ≠ "") (hclosed : Closed tenantID id w.db)
    (acts : List (Act (Sync Unit) Move)) :
      ∀ t ∈ (Transition.follow (Pool.step (system env)) acts ⟨[], w⟩).threads, Runs env tenantID id t.task →
      ∀ e ∈ t.log, e.op.isProvider = false := by
  have hsafe : Pool.Safe (lasting env tenantID id) (promise env tenantID id)
      (Transition.follow (Pool.step (system env)) acts ⟨[], w⟩) := by
    refine Transition.follow_stable (fun c a c' hstep hc => ?_) acts (Pool.safe_nil hclosed)
    have hok : Pool.permits (lasting env tenantID id).ok (fun _ _ => True) c a := by
      cases a with
      | fire i => exact fun _ _ _ _ => trivial
      | _ => trivial
    refine Pool.safe_step (P := system env) rfl (fun w p _ _ => start_safe hid p w)
      (fun m w w' h hm => ?_) hc hok hstep
    cases hm
    exact ⟨trivial, h⟩
  intro t ht hruns e he
  obtain ⟨pre, post, hlog⟩ := List.append_of_mem he
  obtain ⟨_, _, hmay, _⟩ := hsafe.made t ht pre e post hlog
  exact hmay hruns

def dismissed : ReconciliationFinding :=
  { Reconcile.finding (sweepOf .manual) sweepJob .drift "sf-1" 1 none (fun _ => none) with
    id := "f1", status := .dismissed }

def reviewed : World := { world [] with db := { (world []).db with findings := [dismissed] } }

theorem closed_not_repaired_dismissed : Closed "t1" "f1" reviewed.db ∧
    ∀ t ∈ (Transition.follow (Pool.step (system Deployment.env))
    (.start (handle Deployment.env (.marshal { annCreated with provenance := { reconcileFindingID := "f1" } })) ::
      List.replicate 5 (.fire 0)) ⟨[], reviewed⟩).threads,
    Runs Deployment.env "t1" "f1" t.task → ∀ e ∈ t.log, e.op.isProvider = false := by
  have hclosed : Closed "t1" "f1" reviewed.db := ⟨dismissed, rfl, by decide, by decide⟩
  exact ⟨hclosed, closed_not_repaired (by decide) hclosed _⟩

end SyncForge.Findings
