import SyncForge.Auth.Users
import SyncForge.Auth.Revocation

/-!
# `Auth.Roles` — the role a token carries

A login copies the user's role into the session and the token, and a refresh copies it on from the old token.
`handleChangeRole` changes the user's row and revokes nothing. So a token that is accepted carries the role
the user has now as long as a role is changed only while the user has no unrevoked session and no request is
about to create one, and a demotion in any other case leaves the old role in force.
-/

namespace SyncForge.Auth

open Effect
open Transition (Run)
open State (handle)

def State.role? (s : State) (tenantID userID : String) : Option Role :=
    (s.user? tenantID userID).map User.role

/-- A role is changed only while the user has no unrevoked session and no request is about to create one. An
    expired session counts as well: a refresh that verified its token before the expiry still renews it. -/
def RoleSettled (c : Server) : Act Request Move → Prop
  | .fire i => ∀ t tenantID userID role, c.threads[i]? = some t →
      t.next? = some (.store (.setUserRole tenantID userID role)) → c.state.role? tenantID userID = some role ∨
        (∀ x ∈ c.state.sessions, x.userID = userID → x.tenantID = tenantID → x.revokedAt ≠ none) ∧
          ∀ u ∈ c.threads, ∀ x : Session, x.userID = userID → x.tenantID = tenantID → ¬ Pending u x
  | _ => True

structure Current (c : Server) : Prop where
  users : (c.state.users.map User.id).Nodup
  distinct : (c.state.sessions.map Session.jti).Nodup
  sessions : ∀ x ∈ c.state.sessions, x.revokedAt = none → c.state.role? x.tenantID x.userID = some x.role
  pending : ∀ t ∈ c.threads, ∀ x : Session, Pending t x → c.state.role? x.tenantID x.userID = some x.role

section Step

variable {env : Env} {s : State} {c c' : Server} {tenantID userID : String}
  {request : Request} {x : Session} {o : Call} {i : Nat} {t : Thread}

theorem role_handle (env : Env) (o : Call) {r : Role} (h : s.role? tenantID userID = some r) :
    (handle env o s).2.role? tenantID userID = some r ∨
      ∃ role, o = .store (.setUserRole tenantID userID role) ∧
      (handle env o s).2.role? tenantID userID = some role := by
  obtain ⟨u, hu, rfl⟩ := Option.map_eq_some_iff.mp h
  rcases user_handle env o hu with hsame | ⟨st, f, rfl, hupdate, hafter⟩
  · exact .inl (by rw [State.role?, hsame]; rfl)
  · rw [State.role?, hafter, Option.map_some]
    cases st with
    | setUserRole tenantID' userID' role =>
      cases hupdate
      exact .inr ⟨role, rfl, rfl⟩
    | setUserPassword _ _ _ => cases hupdate; exact .inl rfl
    | setTOTPSecret _ _ _ => cases hupdate; exact .inl rfl
    | setTOTPEnabled _ _ _ => cases hupdate; exact .inl rfl
    | setBackupCodes _ _ _ => cases hupdate; exact .inl rfl
    | consumeBackupCode _ _ _ => cases hupdate; exact .inl rfl
    | _ => cases hupdate

theorem grounds_snoc {log : Log} {e : Entry sig GoError} (h : Grounds request (log ++ [e]) x) :
    Grounds request log x ∨
      (∃ user, Found [e] user ∧ x.userID = user.id ∧ x.tenantID = user.tenantID ∧ x.role = user.role) ∨
      ∃ claims : Claims, request.token? = some (.signed claims) ∧ Revoked [e] claims.tenantID claims.jti ∧
        x.userID = claims.userID ∧ x.tenantID = claims.tenantID ∧ x.role = claims.role := by
  have found : ∀ user, Found (log ++ [e]) user → Found log user ∨ Found [e] user := by
    rintro user (⟨tenantID, email, hmem⟩ | ⟨tenantID, email, hash, role, hmem⟩)
    · exact (List.mem_append.mp hmem).imp (fun h => .inl ⟨_, _, h⟩) (fun h => .inl ⟨_, _, h⟩)
    · exact (List.mem_append.mp hmem).imp (fun h => .inr ⟨_, _, _, _, h⟩) (fun h => .inr ⟨_, _, _, _, h⟩)
  cases request with
  | login ip body =>
    obtain ⟨user, hfound, hfields⟩ := h
    exact (found user hfound).imp (fun h => ⟨user, h, hfields⟩) (fun h => .inl ⟨user, h, hfields⟩)
  | oidcLogin body =>
    obtain ⟨user, hfound, hfields⟩ := h
    exact (found user hfound).imp (fun h => ⟨user, h, hfields⟩) (fun h => .inl ⟨user, h, hfields⟩)
  | refresh token =>
    obtain ⟨claims, rfl, hrevoked, hfields⟩ := h
    exact (List.mem_append.mp hrevoked).imp (fun h => ⟨claims, rfl, h, hfields⟩)
      (fun h => .inr ⟨claims, rfl, h, hfields⟩)
  | _ => exact False.elim h

theorem found_handle {user : User} (h : Found [⟨o, (handle env o s).1⟩] user) :
    user ∈ (handle env o s).2.users := by
  rcases h with ⟨tenantID, email, hmem⟩ | ⟨tenantID, email, hash, role, hmem⟩
  · obtain ⟨rfl, hanswer⟩ := Entry.mk.inj (List.mem_singleton.mp hmem)
    have hok := eq_of_heq hanswer
    rw [handle] at hok ⊢
    split at hok
    · cases hok
    · exact List.mem_of_find?_eq_some (Database.rowOrNotFound_ok hok.symm)
  · obtain ⟨rfl, hanswer⟩ := Entry.mk.inj (List.mem_singleton.mp hmem)
    have hok := eq_of_heq hanswer
    rw [handle] at hok ⊢
    split at hok
    · cases hok
    · dsimp only at hok ⊢
      rw [State.exec] at hok ⊢
      by_cases htaken : s.users.any (fun u => u.tenantID = tenantID ∧ u.email = email) = true
      · rw [if_pos htaken] at hok
        cases hok
      · rw [if_neg htaken] at hok ⊢
        cases Except.ok.inj hok
        exact List.mem_concat_self

theorem not_grounds_nil : ¬ Grounds request [] x := by
  intro h
  cases request with
  | login ip body =>
    obtain ⟨user, hfound, -⟩ := h
    rcases hfound with ⟨_, _, h⟩ | ⟨_, _, _, _, h⟩ <;> exact absurd h List.not_mem_nil
  | oidcLogin body =>
    obtain ⟨user, hfound, -⟩ := h
    rcases hfound with ⟨_, _, h⟩ | ⟨_, _, _, _, h⟩ <;> exact absurd h List.not_mem_nil
  | refresh token =>
    obtain ⟨claims, -, hrevoked, -⟩ := h
    exact absurd hrevoked List.not_mem_nil
  | _ => exact False.elim h

theorem Current.role_kept (hok : RoleSettled c (.fire i)) (hi : c.threads[i]? = some t)
    (hnext : t.next? = some o) (hx : x ∈ c.state.sessions ∧ x.revokedAt = none ∨ ∃ u ∈ c.threads, Pending u x)
    (hrole : c.state.role? x.tenantID x.userID = some x.role) :
    (handle env o c.state).2.role? x.tenantID x.userID = some x.role := by
  rcases role_handle env o hrole with hkept | ⟨role, rfl, hset⟩
  · exact hkept
  · rcases hok t x.tenantID x.userID role hi hnext with hsame | ⟨hnone, hidle⟩
    · rw [hset, ← hsame, hrole]
    · rcases hx with ⟨hmem, hlive⟩ | ⟨u, hu, hpending⟩
      · exact absurd hlive (hnone x hmem rfl rfl)
      · exact absurd hpending (hidle u hu x rfl rfl)

variable {k : Except GoError o.Res → Http Unit}

theorem Current.sessions_call (hc : Current c) (hsafe : Pool.Safe (Rely.free (handle env)) (promise env) c)
    (hok : RoleSettled c (.fire i)) (hi : c.threads[i]? = some t) (hprog : t.prog = .call o k) {y : Session}
    (hy : y ∈ (handle env o c.state).2.sessions) (hlive : y.revokedAt = none) :
    (handle env o c.state).2.role? y.tenantID y.userID = some y.role := by
  rcases (handle_changes o).source hy with ⟨x, hx, hbecomes⟩ | hcreated
  · have hxlive : x.revokedAt = none := by
      by_contra hrevoked
      exact hbecomes.revoked hrevoked hlive
    obtain ⟨-, huser, htenant, hrole⟩ := hbecomes.same
    rw [huser, htenant, hrole]
    exact Current.role_kept hok hi (Thread.next_eq hprog) (.inl ⟨hx, hxlive⟩) (hc.sessions x hx hxlive)
  · -- the thread was about to create it
    have hmay := hsafe.may_next (List.mem_of_getElem? hi) hprog
    obtain ⟨rfl, -⟩ := Entry.mk.inj hcreated
    have hpending : Pending t y := ⟨Thread.not_done hprog, hmay.1, hmay.2.2.1⟩
    have hmem := List.mem_of_getElem? hi
    exact Current.role_kept hok hi (Thread.next_eq hprog) (.inr ⟨t, hmem, hpending⟩)
      (hc.pending t hmem y hpending)

theorem Current.pending_call (hc : Current c)
    (hgenuine : ∀ claims, t.task.token? = some (.signed claims) →
      claims.genuine c.state) (hok : RoleSettled c (.fire i)) (hi : c.threads[i]? = some t)
    (hprog : t.prog = .call o k) (hno : NoCreate t.log)
    (hgrounds : Grounds t.task (t.log ++ [⟨o, (handle env o c.state).1⟩]) x) :
      (handle env o c.state).2.role? x.tenantID x.userID = some x.role := by
  have hmem := List.mem_of_getElem? hi
  rcases grounds_snoc hgrounds with hbefore | ⟨user, hfound, huser, htenant, hrole⟩ |
    ⟨claims, htoken, hrevoked, huser, htenant, hrole⟩
  · have hpending : Pending t x := ⟨Thread.not_done hprog, hno, hbefore⟩
    exact Current.role_kept hok hi (Thread.next_eq hprog) (.inr ⟨t, hmem, hpending⟩)
      (hc.pending t hmem x hpending)
  · -- the row it found
    rw [huser, htenant, hrole, State.role?, user_of_mem (users_distinct o hc.users) (found_handle hfound)]
    rfl
  · -- the session it revoked, whose claims it presents
    have hentry := List.mem_singleton.mp hrevoked
    obtain ⟨hop, -⟩ := Entry.mk.inj hentry
    have hchanges : Changes c.state ⟨o, (handle env o c.state).1⟩ _ := handle_changes o
    rw [← hentry] at hchanges
    obtain ⟨⟨y, hy, hyjti, hylive⟩, -⟩ := hchanges.of_revoked
    obtain ⟨z, hz, hzjti, hzuser, hztenant, hzrole⟩ := hgenuine claims htoken
    obtain rfl := eq_of_jti hc.distinct hy hz (hyjti.trans hzjti.symm)
    have hbefore := hc.sessions y hy hylive
    rw [huser, htenant, hrole, ← hzuser, ← hztenant, ← hzrole]
    exact Current.role_kept hok hi (Thread.next_eq hprog) (.inl ⟨hy, hylive⟩) hbefore

/-- **Step lemma**: unrevoked sessions, and those about to be created, carry the role in the row. -/
theorem current_step {a : Act Request Move} (hc : Current c)
    (hsafe : Pool.Safe (Rely.free (handle env)) (promise env) c)
    (hgenuine : ∀ t ∈ c.threads, ∀ claims, t.task.token? = some (.signed claims) → claims.genuine c.state)
    (hok : RoleSettled c a)
    (h : Pool.step (system env) c a = some c') : Current c' := by
  rcases Pool.step_cases h with ⟨task, rfl, rfl⟩ | ⟨i, t, o, k, rfl, hi, hprog, rfl⟩ | ⟨m, s, rfl, hs, rfl⟩
  · refine ⟨hc.users, hc.distinct, hc.sessions, List.forall_mem_append.mpr ⟨hc.pending, ?_⟩⟩
    refine List.forall_mem_singleton.mpr (fun x hpending => ?_)
    exact absurd hpending.2.2 not_grounds_nil
  · refine ⟨users_distinct o hc.users, (handle_changes o).distinct hc.distinct,
      fun y hy hlive => hc.sessions_call hsafe hok hi hprog hy hlive, fun u hu x hpending => ?_⟩
    rcases List.mem_or_eq_of_mem_set hu with hu | rfl
    · exact Current.role_kept hok hi (Thread.next_eq hprog) (.inr ⟨u, hu, hpending⟩) (hc.pending u hu x hpending)
    · have hno : NoCreate t.log := fun e he => hpending.2.1 e (List.mem_append_left _ he)
      exact hc.pending_call (hgenuine t (List.mem_of_getElem? hi)) hok hi hprog hno hpending.2.2
  · cases m with
    | clock now =>
      cases hs
      exact ⟨hc.users, hc.distinct, hc.sessions, hc.pending⟩

theorem current_run {acts : List (Act Request Move)} (husers : (s.users.map User.id).Nodup)
    (hdistinct : (s.sessions.map Session.jti).Nodup)
    (hsessions : ∀ x ∈ s.sessions, x.revokedAt = none → s.role? x.tenantID x.userID = some x.role)
    (h : Run (Pool.step (system env)) (fun c a => Presents c a ∧
      RoleSettled c a) ⟨[], s⟩ acts c) : Current c := by
  induction h with
  | refl => exact ⟨husers, hdistinct, hsessions, fun _ ht => absurd ht List.not_mem_nil⟩
  | tail hrun hok hstep ih =>
    refine current_step ih (run_safe hrun) (fun t ht claims htoken => ?_) hok.2 hstep
    exact presented_genuine hrun (fun _ _ h => h.1) ht htoken

end Step

/-! ## Accepted tokens -/

section Accepted

variable {env : Env} {s : State}

/-- `GetLiveSession` returns an unrevoked session. -/
theorem getLiveSession_ok {tenantID jti : String} {x : Session}
    (h : (Prog.run (handle env) (getLiveSession tenantID jti) s).1 = .ok x) : x ∈ s.sessions ∧ x.jti = jti ∧
    x.revokedAt = none := by
  unfold getLiveSession at h
  cases hrow : handle env (.store (.getSession tenantID jti)) s with
  | mk r s1 =>
    have hrun : Prog.run (handle env) (stmt (.getSession tenantID jti)) s = (r, s1) :=
      (Prog.run_perform (handle env) _ s).trans hrow
    cases r with
    | error e =>
      rw [Prog.run_bind_error _ hrun] at h
      cases h
    | ok row =>
      rw [Prog.run_bind_ok _ hrun] at h
      by_cases hrevoked : row.revokedAt.isSome = true
      · rw [if_pos hrevoked] at h
        cases h
      · rw [if_neg hrevoked] at h
        have hnow : Prog.run (handle env) timeNow s1 = (.ok s1.now, s1.called) := rfl
        rw [Prog.run_bind_ok _ hnow] at h
        by_cases hexpired : row.expiresAt < s1.now
        · rw [if_pos hexpired] at h
          cases h
        · rw [if_neg hexpired] at h
          obtain rfl := Except.ok.inj h
          have hfound : Database.rowOrNotFound (s.sessions.find? (State.isSession tenantID jti)) = .ok row := by
            rw [handle] at hrow
            split at hrow
            · cases hrow
            · exact congrArg Prod.fst hrow
          have hsome := Database.rowOrNotFound_ok hfound
          have hsession : State.isSession tenantID jti row = true := List.find?_some hsome
          refine ⟨List.mem_of_find?_eq_some hsome, (of_decide_eq_true hsession).1, ?_⟩
          exact Option.not_isSome_iff_eq_none.mp hrevoked

theorem verifySessionToken_ok {token : Token} {claims : Claims}
    (h : (Prog.run (handle env) (verifySessionToken token) s).1 = .ok claims) :
    token = .signed claims ∧ ∃ x ∈ s.sessions, x.jti = claims.jti ∧ x.revokedAt = none := by
  cases token with
  | other text => cases h
  | signed c =>
    unfold verifySessionToken at h
    dsimp only at h
    by_cases hempty : c.jti = "" ∨ c.userID = "" ∨ c.tenantID = ""
    · rw [if_pos hempty] at h
      cases h
    · rw [if_neg hempty] at h
      have hnow : Prog.run (handle env) timeNow s = (.ok s.now, s.called) := rfl
      rw [Prog.run_bind_ok _ hnow] at h
      by_cases hexpired : c.exp < unix s.now
      · rw [if_pos hexpired] at h
        cases h
      · rw [if_neg hexpired, Prog.run_bind_ok _ (Prog.run_attempt _ _ _)] at h
        cases hlive : (Prog.run (handle env) (getLiveSession c.tenantID c.jti) s.called).1 with
        | error e =>
          rw [hlive] at h
          cases h
        | ok x =>
          rw [hlive] at h
          cases h
          obtain ⟨hx, hjti, hnone⟩ := getLiveSession_ok hlive
          exact ⟨rfl, x, hx, hjti, hnone⟩

/-- **A token that is accepted carries the user's role**, in every state that requests lead to, as long as
    roles are changed only while the user has no unrevoked session and no request is about to create one. -/
theorem accepted_role {acts : List (Act Request Move)} {c : Server} (husers : (s.users.map User.id).Nodup)
    (hdistinct : (s.sessions.map Session.jti).Nodup)
    (hsessions : ∀ x ∈ s.sessions, x.revokedAt = none → s.role? x.tenantID x.userID = some x.role)
    (hrun : Run (Pool.step (system env)) (fun c a => Presents c a ∧ RoleSettled c a) ⟨[], s⟩ acts c)
    {token : Token} (hsigned : ∀ claims, token = .signed claims → claims.genuine c.state) {claims : Claims}
    (haccepted : (Prog.run (handle env) (verifySessionToken token) c.state).1 = .ok claims) :
    c.state.role? claims.tenantID claims.userID = some claims.role := by
  have hc := current_run husers hdistinct hsessions hrun
  obtain ⟨htoken, x, hx, hjti, hlive⟩ := verifySessionToken_ok haccepted
  obtain ⟨y, hy, hyjti, hyuser, hytenant, hyrole⟩ := hsigned claims htoken
  obtain rfl := eq_of_jti hc.distinct hx hy (hjti.trans hyjti.symm)
  rw [← hyuser, ← hytenant, ← hyrole]
  exact hc.sessions x hx hlive

/-- **A revoked token stays refused**, whatever requests are served meanwhile and in whatever order their
    calls are made. -/
theorem revoked_token_refused {ok : Server → Act Request Move → Prop} {acts : List (Act Request Move)}
    {c c' : Server} {x : Session} (hrun : Run (Pool.step (system env)) ok c acts c')
    (hdistinct : (c.state.sessions.map Session.jti).Nodup) (hx : x ∈ c.state.sessions)
    (hrevoked : x.revokedAt ≠ none) {token : Token} {claims : Claims}
    (haccepted : (Prog.run (handle env) (verifySessionToken token) c'.state).1 = .ok claims) :
    claims.jti ≠ x.jti := by
  intro hjti
  obtain ⟨-, y, hy, hyjti, hlive⟩ := verifySessionToken_ok haccepted
  obtain ⟨z, hz, hbecomes⟩ := run_stays hrun hx
  obtain rfl := eq_of_jti (run_distinct hrun hdistinct) hy hz (hyjti.trans (hjti.trans hbecomes.same.1.symm))
  exact hbecomes.revoked hrevoked hlive

end Accepted

/-! ## A demotion in the office -/

def roleSettled (c : Server) : Act Request Move → Bool
  | .fire i => ((c.threads[i]?).bind Thread.next?).all (fun
      | .store (.setUserRole _ _ _) => c.state.sessions.all (fun x => x.revokedAt.isSome) ∧
          c.threads.all (fun u => u.done ∨ opensSession u.task = false)
      | _ => true)
  | _ => true

variable {c : Server}

theorem roleSettled_of_test {a : Act Request Move} (h : roleSettled c a = true) : RoleSettled c a := by
  cases a with
  | start request => trivial
  | fire i =>
    intro t tenantID userID role ht hnext
    rw [roleSettled, ht, Option.bind_some, hnext] at h
    obtain ⟨hsessions, hidle⟩ := of_decide_eq_true h
    refine .inr ⟨fun x hx _ _ hnone => ?_, fun u hu x _ _ => ?_⟩
    · have hsome := List.all_eq_true.mp hsessions x hx
      rw [hnone] at hsome
      cases hsome
    · exact not_pending_of_test (of_decide_eq_true (List.all_eq_true.mp hidle u hu))
  | move m => trivial

def demoteAnn : Request := .changeRole { apiKey := "key" } "ann" "VIEWER"

def demoted : List (Act Request Move) :=
  [.start annLogin] ++ calls 0 9 ++ [.start revokeAnn] ++ calls 1 4 ++ [.start demoteAnn] ++ calls 2 4
    ++ [.start annLogin] ++ calls 3 9

def annClaims (jti : String) (role : Role) : Claims :=
    { jti, userID := "ann", tenantID := "t1", role, exp := 43200 }

def accepts (c : Server) (claims : Claims) : Bool :=
  (Prog.run (handle officeEnv) (verifySessionToken (.signed claims)) c.state).1.toOption = some claims

def genuine (c : Server) (claims : Claims) : Bool :=
  c.state.sessions.any (fun x =>
    x.jti = claims.jti ∧ x.userID = claims.userID ∧ x.tenantID = claims.tenantID ∧ x.role = claims.role)

theorem genuine_of_test {claims : Claims} (h : genuine c claims = true) : claims.genuine c.state := by
  obtain ⟨x, hx, hfields⟩ := List.any_eq_true.mp h
  exact ⟨x, hx, of_decide_eq_true hfields⟩

theorem accepted_role_office : ∃ c,
    Run (Pool.step (system officeEnv)) (fun c a => Presents c a ∧ RoleSettled c a) ⟨[], office⟩ demoted c ∧
      (Prog.run (handle officeEnv) (verifySessionToken (.signed (annClaims "uu" .viewer))) c.state).1 =
        .ok (annClaims "uu" .viewer) ∧ c.state.role? "t1" "ann" = some .viewer := by
  refine Transition.exists_run (b := fun c a => presents c a && roleSettled c a)
    (f := fun c => accepts c (annClaims "uu" .viewer) && genuine c (annClaims "uu" .viewer))
      (by decide +kernel)
    (fun c a h => ?_) (fun c hrun htest => ?_)
  · obtain ⟨hpresents, hsettled⟩ := Bool.and_eq_true_iff.mp h
    exact ⟨presents_of_test hpresents, roleSettled_of_test hsettled⟩
  · obtain ⟨haccepts, hgenuine⟩ := Bool.and_eq_true_iff.mp htest
    have haccepted := ok_of_toOption (of_decide_eq_true haccepts)
    refine ⟨haccepted, accepted_role (by decide) (by decide) (by decide) hrun
      (fun claims htoken => ?_) haccepted⟩
    cases htoken
    exact genuine_of_test hgenuine

def revokedSession : Session :=
  { jti := "old", userID := "ann", tenantID := "t1", role := .admin, expiresAt := 43200, revokedAt := some 0 }

theorem revoked_token_refused_office : ∃ c, Run (Pool.step (system officeEnv)) (fun _ _ => True)
    ⟨[], { office with sessions := [revokedSession] }⟩ ([.start annLogin] ++ calls 0 9) c ∧
      (Prog.run (handle officeEnv) (verifySessionToken (.signed (annClaims "u" .admin))) c.state).1 =
        .ok (annClaims "u" .admin) ∧ (annClaims "u" .admin).jti ≠ revokedSession.jti := by
  refine Transition.exists_run (b := fun _ _ => true) (f := fun c => accepts c (annClaims "u" .admin))
    (by decide +kernel) (fun _ _ _ => trivial) (fun c hrun htest => ?_)
  have haccepted := ok_of_toOption (of_decide_eq_true htest)
  exact ⟨haccepted, revoked_token_refused hrun (by decide) (.head _) (by decide) haccepted⟩

/-- A test for an entry of the log of `demoteAnn`. -/
def tellsDemoted : Entry sig GoError → Bool
  | ⟨.reply r, .ok _⟩ => r = ⟨200, .roleChanged "ann" .viewer⟩
  | _ => false

/-- **A demotion does not reach the sessions**: Ann logs in as an administrator and is made a viewer, which
    the response confirms, and the token is still accepted as an administrator's. -/
theorem demotion_ignored : ∃ c,
    Run (Pool.step (system officeEnv)) Presents ⟨[], office⟩
      ([.start annLogin] ++ calls 0 9 ++ [.start demoteAnn] ++ calls 1 4) c ∧
      (∃ t, c.threads[1]? = some t ∧ (⟨.reply ⟨200, .roleChanged "ann" .viewer⟩, .ok ()⟩ : Entry sig GoError) ∈ t.log) ∧
      (annClaims "u" .admin).genuine c.state ∧
      (Prog.run (handle officeEnv) (verifySessionToken (.signed (annClaims "u" .admin))) c.state).1 =
        .ok (annClaims "u" .admin) ∧ c.state.role? "t1" "ann" = some .viewer := by
  refine Transition.exists_run (b := presents) (f := fun c => accepts c (annClaims "u" .admin) &&
    genuine c (annClaims "u" .admin) && (decide (c.state.role? "t1" "ann" = some .viewer) &&
      (c.threads[1]?).any (fun t => t.log.any tellsDemoted))) (by decide +kernel) (fun _ _ h => presents_of_test h) (fun c _ htest => ?_)
  obtain ⟨htest, hrest⟩ := Bool.and_eq_true_iff.mp htest
  obtain ⟨haccepts, hgenuine⟩ := Bool.and_eq_true_iff.mp htest
  obtain ⟨hrole, hreplied⟩ := Bool.and_eq_true_iff.mp hrest
  obtain ⟨t, ht, hlog⟩ := (Option.any_eq_true _ _).mp hreplied
  obtain ⟨e, he, htells⟩ := List.any_eq_true.mp hlog
  refine ⟨⟨t, ht, ?_⟩, genuine_of_test hgenuine, ok_of_toOption (of_decide_eq_true haccepts),
    of_decide_eq_true hrole⟩
  unfold tellsDemoted at htells
  split at htells
  · rename_i r _
    obtain rfl := of_decide_eq_true htells
    exact he
  · cases htells

end SyncForge.Auth
