import SyncForge.Effect.Pool
import SyncForge.Worker.Calls

/-!
# `Worker.Interference` — the calls of SyncForge among other threads

The rules of `Effect.Rely` for the calls of `World`: a statement fails and changes nothing, or it is executed;
a message fails and changes nothing, or it is on the topic. Failing is always allowed here (`Tolerant`).
-/

namespace SyncForge

open Effect Effect.Prog Store

structure Tolerant (env : Env) (R : Rely sig GoError World) : Prop where
  handle : R.handle = World.handle env
  called : ∀ w, R.inv w → R.change w w.called ∧ R.inv w.called

variable {env : Env} {R : Rely sig GoError World} {may : List (Entry sig GoError) → Call → World → Prop}
  {w : World} {log : List (Entry sig GoError)} {s : StoreOp}

theorem Tolerant.later_called {u v : World} (hR : Tolerant env R) (hu : R.later w u)
    (hv : R.later u.called v) : R.later w v :=
  Rely.later_trans (R.trans _ _ _ hu.1 (hR.called u hu.2).1) hv

def Executes (R : Rely sig GoError World) (s : StoreOp) (log : List (Entry sig GoError)) (w : World)
    (post : List (Entry sig GoError) → Except GoError s.Res → World → Prop) : Prop :=
  ∀ u pick, R.later w u → R.ok (.store s) u → (R.change u (u.executed pick s) ∧ R.inv (u.executed pick s)) ∧
    ∀ v, R.later (u.executed pick s) v → post (log ++ [⟨.store s, (Database.exec u.now pick s u.db).1⟩])
      (Database.exec u.now pick s u.db).1 v

variable {post : List (Entry sig GoError) → Except GoError s.Res → World → Prop}
  {post' : List (Entry sig GoError) → Except GoError Unit → World → Prop}

theorem safe_answered (hR : Tolerant env R)
    (hfail : ∀ u v e, R.later w u → (∃ text, u.storeTape u.calls = .error text) → R.later w v →
      post (log ++ [⟨.store s, .error e⟩]) (.error e) v)
    (hmay : ∀ u, R.later w u → R.ok (.store s) u → may log (.store s) u) (hok : Executes R s log w post) :
    R.safe may (stmt s) post log w := by
  refine Rely.safe_perform (fun u hu hgo => ⟨hmay u hu hgo, ?_⟩)
  unfold Rely.keeps
  rw [hR.handle]
  rcases World.handle_store env u s with ⟨text, htext, h⟩ | ⟨pick, _, h⟩
  · rw [h]
    exact ⟨hR.called u hu.2, fun v hv => hfail u v _ hu ⟨text, htext⟩ (hR.later_called hu hv)⟩
  · rw [h]
    exact hok u pick hu hgo

theorem safe_stmt (hR : Tolerant env R)
    (hfail : ∀ v e, R.later w v → post (log ++ [⟨.store s, .error e⟩]) (.error e) v)
    (hmay : ∀ u, R.later w u → R.ok (.store s) u → may log (.store s) u) (hok : Executes R s log w post) : R.safe may (stmt s) post log w :=
  safe_answered hR (fun _ v e _ _ hv => hfail v e hv) hmay hok

/-- **Statement rule** where statements do not fail. -/
theorem safe_executed (hR : Tolerant env R) (htape : ∀ u, R.inv u → ∃ pick, u.storeTape u.calls = .ok pick)
    (hmay : ∀ u, R.later w u → R.ok (.store s) u → may log (.store s) u) (hok : Executes R s log w post) :
    R.safe may (stmt s) post log w := by
  refine safe_answered hR (fun u _ _ hu hfails _ => ?_) hmay hok
  obtain ⟨_, hpick⟩ := htape u hu.2
  obtain ⟨_, htext⟩ := hfails
  cases hpick.symm.trans htext

theorem safe_ignored (hw : R.inv w) (h : R.safe may (stmt s)
    (fun log _ v => ∀ v', R.later v v' → post' log (.ok ()) v') log w) : R.safe may (tryStmt s) post' log w :=
  Rely.safe_attempt h (fun _ _ _ hmid _ => hmid) hw

theorem Executes.later (h : Executes R s log w (fun log _ => post' log (.ok ()))) :
    Executes R s log w (fun log _ v => ∀ v', R.later v v' → post' log (.ok ()) v') :=
  fun u pick hu hgo => ⟨(h u pick hu hgo).1,
    fun _ hv v' hv' => (h u pick hu hgo).2 v' (Rely.later_trans hv.1 hv')⟩

/-- **Statement rule** for a statement whose error is ignored. -/
theorem safe_tryStmt (hR : Tolerant env R) (hw : R.inv w)
    (hfail : ∀ v e, R.later w v → post' (log ++ [⟨.store s, .error e⟩]) (.ok ()) v)
    (hmay : ∀ u, R.later w u → R.ok (.store s) u → may log (.store s) u)
    (hok : Executes R s log w (fun log _ => post' log (.ok ()))) :
      R.safe may (tryStmt s) post' log w :=
  safe_ignored hw (safe_stmt hR (fun _ e hv v' hv' => hfail v' e (Rely.later_trans hv.1 hv')) hmay hok.later)

theorem safe_tryExecuted (hR : Tolerant env R) (htape : ∀ u, R.inv u → ∃ pick, u.storeTape u.calls = .ok pick)
    (hw : R.inv w) (hmay : ∀ u, R.later w u → R.ok (.store s) u → may log (.store s) u)
    (hok : Executes R s log w (fun log _ => post' log (.ok ()))) : R.safe may (tryStmt s) post' log w :=
  safe_ignored hw (safe_executed hR htape hmay hok.later)

theorem safe_publish {key : String} {value : Bytes} (hR : Tolerant env R)
    (hfail : ∀ v e, R.later w v → post' (log ++ [⟨.publish key value, .error e⟩]) (.error e) v)
    (hmay : ∀ u, R.later w u → R.ok (.publish key value) u → may log (.publish key value) u)
    (hok : ∀ u, R.later w u → R.ok (.publish key value) u →
      (R.change u (u.published key value) ∧ R.inv (u.published key value)) ∧
        ∀ v, R.later (u.published key value) v → post' (log ++ [⟨.publish key value, .ok ()⟩]) (.ok ()) v) :
    R.safe may (perform (S := sig) (.publish key value)) post' log w := by
  refine Rely.safe_perform (fun u hu hgo => ⟨hmay u hu hgo, ?_⟩)
  unfold Rely.keeps
  rw [hR.handle]
  rcases World.handle_publish env u key value with ⟨text, h⟩ | h
  · rw [h]
    exact ⟨hR.called u hu.2, fun v hv => hfail v _ (hR.later_called hu hv)⟩
  · rw [h]
    exact hok u hu hgo

end SyncForge
