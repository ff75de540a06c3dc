import SyncForge.Auth.Requests
import SyncForge.Effect.History

/-!
# `Auth.Sessions` — what the calls do to the session rows

`Changes` lists it: a row is added under a new id, one unrevoked row is revoked, all rows of a user are
revoked, or nothing. From it: ids stay distinct, a row keeps its user, tenant and role, and a revoked row
stays revoked.
-/

namespace SyncForge.Auth

open Effect
open State (exec handle isSession)

/-- What a call with its answer makes of the sessions of `s`. -/
inductive Changes (s : State) : Entry sig GoError → List Session → Prop where
  | created (x : Session) (hnew : ∀ y ∈ s.sessions, y.jti ≠ x.jti) :
      Changes s ⟨.store (.createSession x), .ok x⟩ (s.sessions ++ [x])
  | revoked (tenantID jti : String) (hlive : ∃ y ∈ s.sessions, y.jti = jti ∧ y.tenantID = tenantID ∧
      y.revokedAt = none) :
      Changes s ⟨.store (.revokeSession tenantID jti), .ok ()⟩ (s.revoke (isSession tenantID jti))
  | bulk (tenantID userID : String) :
      Changes s ⟨.store (.revokeUserSessions tenantID userID), .ok ()⟩
        (s.revoke (fun x => x.userID = userID ∧ x.tenantID = tenantID))
  | same (e : Entry sig GoError) (hcreated : ∀ x, e ≠ ⟨.store (.createSession x), .ok x⟩)
      (hrevoked : ∀ tenantID jti, e ≠ ⟨.store (.revokeSession tenantID jti), .ok ()⟩)
      (hbulk : ∀ tenantID userID, e ≠ ⟨.store (.revokeUserSessions tenantID userID), .ok ()⟩) :
      Changes s e s.sessions

section Changes

variable {env : Env} {s : State} {α : Type} {x y : Session} {tenantID : String}

theorem revoke_none {p : Session → Bool} (h : ∀ x ∈ s.sessions, ¬ (p x = true ∧ x.revokedAt = none)) :
    s.revoke p = s.sessions := by
  unfold State.revoke
  conv_rhs => rw [← List.map_id s.sessions]
  exact List.map_congr_left (fun x hx => if_neg (h x hx))

theorem updated_eq_ok {rows : List α} {p : α → Bool} (h : rows.any p = true) :
    State.updated rows p = .ok () :=
  if_pos h

theorem updated_eq_error {rows : List α} {p : α → Bool} (h : ¬ rows.any p = true) :
    State.updated rows p = .error .notFound := if_neg h

def writesSessions : Call → Bool
  | .store (.createSession _) | .store (.revokeSession _ _) | .store (.revokeUserSessions _ _) => true
  | _ => false

theorem changes_of_other {e : Entry sig GoError} (h : writesSessions e.op = false) :
    Changes s e s.sessions := by
  refine .same e (fun x he => ?_) (fun tenantID jti he => ?_) (fun tenantID userID he => ?_)
  all_goals
    rw [he] at h
    cases h

theorem changes_of_error {o : Call} {err : GoError} : Changes s ⟨o, .error err⟩ s.sessions := by
  refine .same _ (fun x he => ?_) (fun tenantID jti he => ?_) (fun tenantID userID he => ?_)
  all_goals
    obtain ⟨rfl, h⟩ := Entry.mk.inj he
    cases eq_of_heq h

theorem exec_changes (o : Stmt) : Changes s ⟨.store o, (exec o s).1⟩ (exec o s).2.sessions := by
  cases o with
  | createSession x =>
    rw [exec]
    by_cases hany : s.sessions.any (fun y => y.jti = x.jti) = true
    · rw [if_pos hany]
      exact changes_of_error
    · rw [if_neg hany]
      refine .created x (fun y hy hjti => hany ?_)
      exact List.any_eq_true.mpr ⟨y, hy, decide_eq_true hjti⟩
  | revokeSession tenantID jti =>
    rw [exec]
    by_cases hany : s.sessions.any (fun x => isSession tenantID jti x ∧ x.revokedAt = none) = true
    · rw [updated_eq_ok hany]
      obtain ⟨y, hy, hlive⟩ := List.any_eq_true.mp hany
      obtain ⟨hsession, hlive⟩ := of_decide_eq_true hlive
      obtain ⟨hjti, htenant⟩ := of_decide_eq_true hsession
      exact .revoked tenantID jti ⟨y, hy, hjti, htenant, hlive⟩
    · rw [updated_eq_error hany]
      dsimp only
      rw [revoke_none (fun x hx hlive => hany (List.any_eq_true.mpr ⟨x, hx, decide_eq_true hlive⟩))]
      exact changes_of_error
  | revokeUserSessions tenantID userID => exact .bulk tenantID userID
  | createUser tenantID email hash role =>
    rw [exec]
    split_ifs <;> exact changes_of_other rfl
  | _ => exact changes_of_other rfl

theorem handle_changes (o : Call) : Changes s ⟨o, (handle env o s).1⟩ (handle env o s).2.sessions := by
  cases o with
  | store o =>
    rw [handle]
    split
    · exact changes_of_error
    · exact exec_changes o
  | incr key =>
    rw [handle]
    split <;> exact changes_of_other rfl
  | expire key ttl =>
    rw [handle]
    split <;> exact changes_of_other rfl
  | _ => exact changes_of_other rfl

theorem exec_tape (o : Stmt) : (exec o s).2.tape = s.tape := by
  cases o with
  | createUser tenantID email hash role =>
    rw [exec]
    split_ifs <;> rfl
  | createSession x =>
    rw [exec]
    split_ifs <;> rfl
  | _ => rfl

theorem handle_tape (o : Call) : (handle env o s).2.tape = s.tape := by
  cases o with
  | store o =>
    rw [handle]
    split
    · rfl
    · exact exec_tape o
  | incr key =>
    rw [handle]
    split <;> rfl
  | expire key ttl =>
    rw [handle]
    split <;> rfl
  | _ => rfl

/-! ## Rows over time -/

def Becomes (x y : Session) : Prop := y = x ∨ x.revokedAt = none ∧ ∃ at_, y = { x with revokedAt := some at_ }

theorem Becomes.trans {z : Session} (h : Becomes x y) (h' : Becomes y z) : Becomes x z := by
  rcases h with rfl | ⟨hx, at_, rfl⟩
  · exact h'
  · rcases h' with rfl | ⟨hy, -⟩
    · exact .inr ⟨hx, at_, rfl⟩
    · cases hy

theorem Becomes.same (h : Becomes x y) : y.jti = x.jti ∧ y.userID = x.userID ∧ y.tenantID = x.tenantID ∧
    y.role = x.role := by
  rcases h with rfl | ⟨-, at_, rfl⟩ <;> exact ⟨rfl, rfl, rfl, rfl⟩

theorem Becomes.revoked (h : Becomes x y) (hx : x.revokedAt ≠ none) : y.revokedAt ≠ none := by
  rcases h with rfl | ⟨hnone, -⟩
  · exact hx
  · exact absurd hnone hx

variable {e : Entry sig GoError} {rows : List Session}

theorem revoke_becomes {p : Session → Bool} :
    ∃ f : Session → Session, s.revoke p = s.sessions.map f ∧ ∀ x, Becomes x (f x) ∧
    (p x = true → (f x).revokedAt ≠ none) := by
  refine ⟨_, rfl, fun x => ?_⟩
  by_cases h : p x = true ∧ x.revokedAt = none
  · rw [if_pos h]
    exact ⟨.inr ⟨h.2, s.now, rfl⟩, fun _ => nofun⟩
  · rw [if_neg h]
    exact ⟨.inl rfl, fun hp hnone => h ⟨hp, hnone⟩⟩

theorem Changes.rows_cases (h : Changes s e rows) :
    (∃ x, e = ⟨.store (.createSession x), .ok x⟩ ∧ (∀ y ∈ s.sessions, y.jti ≠ x.jti) ∧
      rows = s.sessions ++ [x]) ∨
      (∀ x, e ≠ ⟨.store (.createSession x), .ok x⟩) ∧ ∃ f : Session → Session, rows = s.sessions.map f ∧ ∀ x, Becomes x (f x) := by
  cases h with
  | created x hnew => exact .inl ⟨x, rfl, hnew, rfl⟩
  | revoked tenantID jti hlive =>
    obtain ⟨f, hf, hbecomes⟩ := revoke_becomes (s := s) (p := isSession tenantID jti)
    exact .inr ⟨(fun _ h => nomatch h), f, hf, fun x => (hbecomes x).1⟩
  | bulk tenantID userID =>
    obtain ⟨f, hf, hbecomes⟩ := revoke_becomes (s := s) (p := fun x => x.userID = userID ∧
      x.tenantID = tenantID)
    exact .inr ⟨(fun _ h => nomatch h), f, hf, fun x => (hbecomes x).1⟩
  | same _ hcreated => exact .inr ⟨hcreated, id, (List.map_id _).symm, fun x => .inl rfl⟩

theorem Changes.stays (h : Changes s e rows) (hx : x ∈ s.sessions) : ∃ y ∈ rows, Becomes x y := by
  rcases h.rows_cases with ⟨x', -, -, rfl⟩ | ⟨-, f, rfl, hf⟩
  · exact ⟨x, List.mem_append_left _ hx, .inl rfl⟩
  · exact ⟨f x, List.mem_map_of_mem hx, hf x⟩

theorem Changes.source (h : Changes s e rows) (hy : y ∈ rows) :
    (∃ x ∈ s.sessions, Becomes x y) ∨ e = ⟨.store (.createSession y), .ok y⟩ := by
  rcases h.rows_cases with ⟨x', rfl, -, rfl⟩ | ⟨-, f, rfl, hf⟩
  · rcases List.mem_append.mp hy with hy | hy
    · exact .inl ⟨y, hy, .inl rfl⟩
    · obtain rfl := List.mem_singleton.mp hy
      exact .inr rfl
  · obtain ⟨x, hx, rfl⟩ := List.mem_map.mp hy
    exact .inl ⟨x, hx, hf x⟩

theorem Changes.of_revoked {jti : String}
    (h : Changes s ⟨.store (.revokeSession tenantID jti), .ok ()⟩ rows) :
    (∃ x ∈ s.sessions, x.jti = jti ∧ x.revokedAt = none) ∧ ∃ y ∈ rows, y.jti = jti ∧ y.revokedAt ≠ none := by
  cases h with
  | revoked _ _ hlive =>
    obtain ⟨x, hx, hjti, htenant, hnone⟩ := hlive
    obtain ⟨f, hrows, hf⟩ := revoke_becomes (s := s) (p := isSession tenantID jti)
    refine ⟨⟨x, hx, hjti, hnone⟩, f x, ?_, (hf x).1.same.1.trans hjti,
      (hf x).2 (decide_eq_true ⟨hjti, htenant⟩)⟩
    rw [hrows]
    exact List.mem_map_of_mem hx
  | same _ _ hrevoked _ => exact absurd rfl (hrevoked tenantID jti)

theorem Changes.of_bulk {userID : String}
    (h : Changes s ⟨.store (.revokeUserSessions tenantID userID), .ok ()⟩ rows) (hy : y ∈ rows)
    (huser : y.userID = userID) (htenant : y.tenantID = tenantID) : y.revokedAt ≠ none := by
  cases h with
  | bulk _ _ =>
    obtain ⟨f, hrows, hf⟩ := revoke_becomes (s := s) (p := fun x => x.userID = userID ∧ x.tenantID = tenantID)
    rw [hrows] at hy
    obtain ⟨x, hx, rfl⟩ := List.mem_map.mp hy
    have hsame := (hf x).1.same
    exact (hf x).2 (decide_eq_true ⟨hsame.2.1.symm.trans huser, hsame.2.2.1.symm.trans htenant⟩)
  | same _ _ _ hbulk => exact absurd rfl (hbulk tenantID userID)

theorem Changes.of_created (h : Changes s ⟨.store (.createSession x), .ok x⟩ rows) : x ∈ rows := by
  cases h with
  | created _ _ => exact List.mem_concat_self
  | same _ hcreated _ _ => exact absurd rfl (hcreated x)

theorem Changes.distinct (h : Changes s e rows) (hs : (s.sessions.map Session.jti).Nodup) :
    (rows.map Session.jti).Nodup := by
  rcases h.rows_cases with ⟨x', rfl, hnew, rfl⟩ | ⟨-, f, rfl, hf⟩
  · rw [List.map_append, List.nodup_append]
    refine ⟨hs, List.nodup_singleton _, fun a ha b hb => ?_⟩
    obtain ⟨y, hy, rfl⟩ := List.mem_map.mp ha
    obtain rfl := List.mem_singleton.mp hb
    exact hnew y hy
  · have hjti : Session.jti ∘ f = Session.jti := funext (fun x => (hf x).same.1)
    rwa [List.map_map, hjti]

end Changes

theorem eq_of_jti {rows : List Session} (h : (rows.map Session.jti).Nodup) {x y : Session} (hx : x ∈ rows)
    (hy : y ∈ rows) (hjti : x.jti = y.jti) : x = y := List.inj_on_of_nodup_map h hx hy hjti

/-! ## Steps of the server -/

section Steps

variable {env : Env} {c c' : Server} {a : Act Request Move} {x : Session}

theorem fires_changes {j : Nat} {e : Entry sig GoError} (h : Pool.Fires (system env) j e c c') :
    Changes c.state e c'.state.sessions := by
  have he : e = ⟨e.op, (handle env e.op c.state).1⟩ := by
    conv_lhs => rw [show e = ⟨e.op, e.answer⟩ from rfl, h.answer]
    rfl
  rw [h.state, he]
  exact handle_changes e.op

section

variable (h : Pool.step (system env) c a = some c')
include h

theorem step_sessions : c'.state.sessions = c.state.sessions ∨ ∃ e, Changes c.state e c'.state.sessions := by
  rcases Pool.step_cases h with ⟨task, rfl, rfl⟩ | ⟨i, t, o, k, rfl, hi, hprog, rfl⟩ | ⟨m, s, rfl, hs, rfl⟩
  · exact .inl rfl
  · exact .inr ⟨_, handle_changes o⟩
  · cases m with
    | clock now =>
      cases hs
      exact .inl rfl

theorem step_stays (hx : x ∈ c.state.sessions) : ∃ y ∈ c'.state.sessions, Becomes x y := by
  rcases step_sessions h with heq | ⟨e, hchanges⟩
  · rw [heq]
    exact ⟨x, hx, .inl rfl⟩
  · exact hchanges.stays hx

theorem step_distinct (hc : (c.state.sessions.map Session.jti).Nodup) :
    (c'.state.sessions.map Session.jti).Nodup := by
  rcases step_sessions h with heq | ⟨e, hchanges⟩
  · rwa [heq]
  · exact hchanges.distinct hc

end

variable {acts : List (Act Request Move)} {ok : Server → Act Request Move → Prop}

theorem run_stays (h : Transition.Run (Pool.step (system env)) ok c acts c') (hx : x ∈ c.state.sessions) :
    ∃ y ∈ c'.state.sessions, Becomes x y := by
  refine h.invariant (P := fun _ c' => ∃ y ∈ c'.state.sessions, Becomes x y) ⟨x, hx, .inl rfl⟩ ?_
  rintro _ d a d' ⟨y, hy, hbecomes⟩ - hstep
  obtain ⟨z, hz, hbecomes'⟩ := step_stays hstep hy
  exact ⟨z, hz, hbecomes.trans hbecomes'⟩

theorem run_distinct (h : Transition.Run (Pool.step (system env)) ok c acts c')
    (hc : (c.state.sessions.map Session.jti).Nodup) : (c'.state.sessions.map Session.jti).Nodup :=
  h.invariant (P := fun _ c => (c.state.sessions.map Session.jti).Nodup) hc
    (fun _ _ _ _ hd _ hstep => step_distinct hstep hd)

end Steps

end SyncForge.Auth
