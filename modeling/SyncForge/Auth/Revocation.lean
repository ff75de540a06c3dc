import SyncForge.Auth.Rotation

/-!
# `Auth.Revocation` — sessions after a bulk revocation

A login reads the user's row first and stores its session later; a refresh revokes the old session first and
stores the new one later. A bulk revocation that finds no such request under way is final; one that does find
one is outrun.
-/

namespace SyncForge.Auth

open Effect
open Transition (Run)
open Transition (exec run_of_exec)

/-! ## Tokens -/

def Claims.genuine (c : Claims) (s : State) : Prop :=
  ∃ x ∈ s.sessions, x.jti = c.jti ∧ x.userID = c.userID ∧ x.tenantID = c.tenantID ∧ x.role = c.role

def Presents (c : Server) : Act Request Move → Prop
  | .start request => ∀ claims, request.token? = some (.signed claims) → claims.genuine c.state
  | _ => True

section Tokens

variable {env : Env} {c c' : Server} {a : Act Request Move} {acts : List (Act Request Move)}
  {ok : Server → Act Request Move → Prop} {s : State} {claims : Claims} {t : Thread}

theorem genuine_stays {s' : State} (hstays : ∀ x ∈ s.sessions, ∃ y ∈ s'.sessions, Becomes x y)
    (h : claims.genuine s) : claims.genuine s' := by
  obtain ⟨x, hx, hjti, huser, htenant, hrole⟩ := h
  obtain ⟨y, hy, hbecomes⟩ := hstays x hx
  obtain ⟨hyjti, hyuser, hytenant, hyrole⟩ := hbecomes.same
  exact ⟨y, hy, hyjti.trans hjti, hyuser.trans huser, hytenant.trans htenant, hyrole.trans hrole⟩

theorem created_stays (h : Run (Pool.step (system env)) ok ⟨[], s⟩ acts c) (ht : t ∈ c.threads)
    {x : Session} (hx : Created t.log x) : ∃ y ∈ c.state.sessions, Becomes x y := by
  obtain ⟨j, hj⟩ := List.getElem?_of_mem ht
  rcases Pool.exists_moment h hj hx with ⟨t0, ht0, -⟩ | ⟨_, _, d, d', -, -, -, hfires, hafter⟩
  · cases ht0
  · exact run_stays hafter (fires_changes hfires).of_created

theorem presented_genuine (h : Run (Pool.step (system env)) ok ⟨[], s⟩ acts c)
    (hok : ∀ c a, ok c a → Presents c a) (ht : t ∈ c.threads)
    (htoken : t.task.token? = some (.signed claims)) : claims.genuine c.state := by
  obtain ⟨j, hj⟩ := List.getElem?_of_mem ht
  revert hj htoken
  refine h.invariant (P := fun _ c => ∀ {t : Thread}, t ∈ c.threads → t.task.token? = some (.signed claims) →
    c.threads[j]? = some t → claims.genuine c.state) ?_ ?_ ht
  · exact fun ht => absurd ht List.not_mem_nil
  · intro _ d a d' hd hokd hstep t _ htoken hj
    have hstays : ∀ x ∈ d.state.sessions, ∃ y ∈ d'.state.sessions, Becomes x y :=
      fun x hx => step_stays hstep hx
    rcases Pool.thread_step hstep hj with ⟨-, rfl, -⟩ | ht | ⟨u, e, hu, htask, -, -, -⟩
    · exact genuine_stays hstays (hok d _ hokd claims htoken)
    · exact genuine_stays hstays (hd (List.mem_of_getElem? ht) htoken ht)
    · exact genuine_stays hstays (hd (List.mem_of_getElem? hu) (htask ▸ htoken) hu)

end Tokens

/-! ## Requests under way -/

def Pending (t : Thread) (x : Session) : Prop := t.done = false ∧ NoCreate t.log ∧ Grounds t.task t.log x

def Undisturbed (c : Server) : Act Request Move → Prop
  | .fire i => ∀ t tenantID userID, c.threads[i]? = some t →
      t.next? = some (.store (.revokeUserSessions tenantID userID)) → ∀ u ∈ c.threads, ∀ x :
      Session, x.userID = userID → x.tenantID = tenantID → ¬ Pending u x
  | _ => True

def Answered (log : Log) (tenantID userID : String) : Prop :=
  ∃ pre post r, log = pre ++ ⟨.reply r, .ok ()⟩ :: post ∧ r.body.saysRevoked = true ∧
    Looked pre tenantID userID

/-- The session is that of a login which had read the user's row, and so checked the password against it, in
    `d`. -/
def CheckedBefore (d c : Server) (x : Session) : Prop :=
  ∃ (j : Nat) (u0 u : Thread) (user : User), d.threads[j]? = some u0 ∧ c.threads[j]? = some u ∧
    u0.task.token? = none ∧ Found u0.log user ∧ user.id = x.userID ∧ user.tenantID = x.tenantID ∧
      Created u.log x

/-- The session is that of a refresh of a session that was there in `d`. -/
def RefreshedFrom (d c : Server) (x : Session) : Prop :=
  ∃ u ∈ c.threads, ∃ claims, u.task = .refresh (.signed claims) ∧ Created u.log x ∧
    ∃ y ∈ d.state.sessions, y.jti = claims.jti

section Undisturbed

variable {env : Env} {c c' d d' : Server} {acts : List (Act Request Move)}
  {ok : Server → Act Request Move → Prop}

theorem created_before (hsafe : Pool.Safe (Rely.free (State.handle env)) (promise env) c)
    (h : Run (Pool.step (system env)) ok d acts c) {j : Nat} {u0 u : Thread} (hu0 : d.threads[j]? = some u0)
    (hu : c.threads[j]? = some u) {x y : Session} (hgrounds : Grounds u0.task u0.log y)
    (hpending : ¬ Pending u0 y) (hcreated : Created u.log x) : Created u0.log x := by
  by_cases hdone : u0.done = true
  · cases (Pool.done_stays h hu0 hdone).symm.trans hu
    exact hcreated
  · have hcreate : ∃ e ∈ u0.log, isCreate e.op = true := by
      by_contra hnone
      refine hpending ⟨Bool.eq_false_iff.mpr hdone, fun e he => Bool.eq_false_iff.mpr (fun htrue => ?_), hgrounds⟩
      exact hnone ⟨e, he, htrue⟩
    obtain ⟨e, he, htrue⟩ := hcreate
    obtain ⟨u', hu', -, hlog⟩ := Pool.thread_stays h hu0
    cases hu.symm.trans hu'
    rwa [create_unique hsafe (List.mem_of_getElem? hu) (hlog he) hcreated htrue rfl] at he

/-- A run from `s` to `c` that goes through a bulk revocation, in `d`, undisturbed. -/
structure Cut (env : Env) (ok : Server → Act Request Move → Prop) (s : State) (tenantID userID : String)
    (i : Nat) (d d' c : Server) : Prop where
  distinct : (s.sessions.map Session.jti).Nodup
  orderly : ∀ c a, ok c a → Presents c a ∧ Undisturbed c a
  before : ∃ acts, Run (Pool.step (system env)) ok ⟨[], s⟩ acts d
  go : ok d (.fire i)
  fires : Pool.Fires (system env) i ⟨.store (.revokeUserSessions tenantID userID), .ok ()⟩ d d'
  rest : ∃ acts, Run (Pool.step (system env)) ok d' acts c

namespace Cut

variable {s : State} {tenantID userID : String} {i : Nat} {x y : Session} {u : Thread}

section

variable (h : Cut env ok s tenantID userID i d d' c)
include h

theorem onward : ∃ acts, Run (Pool.step (system env)) ok d acts c := by
  obtain ⟨rest, hrest⟩ := h.rest
  exact ⟨_, .head h.go h.fires.step hrest⟩

theorem whole : ∃ acts, Run (Pool.step (system env)) ok ⟨[], s⟩ acts c := by
  obtain ⟨before, hbefore⟩ := h.before
  obtain ⟨rest, hrest⟩ := h.onward
  exact ⟨_, hbefore.trans hrest⟩

theorem dead (hy : y ∈ d.state.sessions) (huser : y.userID = userID)
    (htenant : y.tenantID = tenantID) : ∃ z ∈ d'.state.sessions, z.jti = y.jti ∧ z.revokedAt ≠ none := by
  obtain ⟨z, hz, hbecomes⟩ := (fires_changes h.fires).stays hy
  obtain ⟨hjti, hzuser, hztenant, -⟩ := hbecomes.same
  exact ⟨z, hz, hjti, (fires_changes h.fires).of_bulk hz (hzuser.trans huser) (hztenant.trans htenant)⟩

theorem not_old (hx : x ∈ c.state.sessions) (hlive : x.revokedAt = none)
    (hy : y ∈ d.state.sessions) (huser : y.userID = userID) (htenant : y.tenantID = tenantID) :
    y.jti ≠ x.jti := by
  intro hjti
  obtain ⟨_, hwhole⟩ := h.whole
  obtain ⟨_, hrest⟩ := h.rest
  obtain ⟨z, hz, hzjti, hrevoked⟩ := h.dead hy huser htenant
  obtain ⟨w, hw, hzw⟩ := run_stays hrest hz
  obtain rfl := eq_of_jti (run_distinct hwhole h.distinct) hw hx ((hzw.same.1.trans hzjti).trans hjti)
  exact hzw.revoked hrevoked hlive

theorem not_pending (hu : u ∈ d.threads) (huser : x.userID = userID) (htenant : x.tenantID = tenantID) :
    ¬ Pending u x := by
  obtain ⟨t, k, ht, hprog⟩ := h.fires.call
  exact (h.orderly d _ h.go).2 t tenantID userID ht (Thread.next_eq hprog) u hu x huser htenant

section

variable (hx : x ∈ c.state.sessions) (huser : x.userID = userID) (htenant : x.tenantID = tenantID)
  (hlive : x.revokedAt = none)
include hx huser htenant hlive

theorem not_created {j : Nat} {u0 : Thread} (hu0 : d.threads[j]? = some u0)
    (hu : c.threads[j]? = some u) (hyuser : y.userID = userID) (hytenant : y.tenantID = tenantID)
    (hgrounds : Grounds u0.task u0.log y) : ¬ Created u.log x := by
  intro hcreated
  obtain ⟨_, hbefore⟩ := h.before
  obtain ⟨_, honward⟩ := h.onward
  obtain ⟨_, hwhole⟩ := h.whole
  have hmem := List.mem_of_getElem? hu0
  have hearly : Created u0.log x :=
    created_before (run_safe hwhole) honward hu0 hu hgrounds (h.not_pending hmem hyuser hytenant) hcreated
  obtain ⟨z, hz, hbecomes⟩ := created_stays hbefore hmem hearly
  obtain ⟨hjti, hzuser, hztenant, -⟩ := hbecomes.same
  exact h.not_old hx hlive hz (hzuser.trans huser) (hztenant.trans htenant) hjti

theorem not_checkedBefore : ¬ CheckedBefore d c x := by
  rintro ⟨j, u0, u, user, hu0, hu, hlogin, hfound, hid, hutenant, hcreated⟩
  have hgrounds : Grounds u0.task u0.log { x with role := user.role } :=
    grounds_found hlogin hfound (List.Subset.refl _) hid.symm hutenant.symm rfl
  exact h.not_created (y := { x with role := user.role }) hx huser htenant hlive hu0 hu huser htenant hgrounds
    hcreated

end

theorem presented_user (hu : u ∈ c.threads) {claims : Claims}
    (htask : u.task = .refresh (.signed claims)) (hy : y ∈ d.state.sessions) (hjti : y.jti = claims.jti) :
    y.userID = claims.userID ∧ y.tenantID = claims.tenantID := by
  obtain ⟨_, hwhole⟩ := h.whole
  obtain ⟨_, honward⟩ := h.onward
  have hgenuine : claims.genuine c.state := by
    refine presented_genuine hwhole (fun c a hca => (h.orderly c a hca).1) hu ?_
    rw [htask]
    rfl
  obtain ⟨w, hw, hwjti, hwuser, hwtenant, -⟩ := hgenuine
  obtain ⟨z, hz, hyz⟩ := run_stays honward hy
  obtain rfl := eq_of_jti (run_distinct hwhole h.distinct) hz hw ((hyz.same.1.trans hjti).trans hwjti.symm)
  exact ⟨hyz.same.2.1.symm.trans hwuser, hyz.same.2.2.1.symm.trans hwtenant⟩

theorem not_refreshedFrom (hx : x ∈ c.state.sessions)
    (huser : x.userID = userID) (htenant : x.tenantID = tenantID) (hlive : x.revokedAt = none) :
    ¬ RefreshedFrom d c x := by
  rintro ⟨u, hu, claims, htask, hcreated, y, hy, hyjti⟩
  obtain ⟨_, hbefore⟩ := h.before
  obtain ⟨_, hrest⟩ := h.rest
  obtain ⟨_, hwhole⟩ := h.whole
  obtain ⟨-, hgrounds⟩ := of_created (run_safe hwhole) hu hcreated
  rw [htask] at hgrounds
  obtain ⟨claims', htoken, hrevoked, hcuser, hctenant, hcrole⟩ := hgrounds
  cases htoken
  obtain ⟨hyuser, hytenant⟩ := h.presented_user hu htask hy hyjti
  obtain ⟨j, hj⟩ := List.getElem?_of_mem hu
  rcases Pool.exists_moment hrest hj hrevoked with ⟨u1, hu1, hrevoked1⟩ |
    ⟨_, _, f, f', -, hto, -, hrevokes, -⟩
  · -- the refresh had revoked the session before: it was under way, or had created the new one
    obtain ⟨u0, hu0, htask0, hrevoked0⟩ := h.fires.mem_before hu1 hrevoked1 (fun hop => nomatch hop)
    obtain ⟨u2, hu2, htask2, -⟩ := Pool.thread_stays hrest hu1
    cases hj.symm.trans hu2
    have hgrounds : Grounds u0.task u0.log x := by
      rw [htask0, ← htask2, htask]
      exact ⟨claims, rfl, hrevoked0, hcuser, hctenant, hcrole⟩
    exact h.not_created hx huser htenant hlive hu0 hj huser htenant hgrounds hcreated
  · -- it cannot revoke it after: it is revoked
    obtain ⟨⟨w, hw, hwjti, hwlive⟩, -⟩ := (fires_changes hrevokes).of_revoked
    obtain ⟨z, hz, hzjti, hzrevoked⟩ :=
      h.dead hy (hyuser.trans (hcuser.symm.trans huser)) (hytenant.trans (hctenant.symm.trans htenant))
    obtain ⟨z', hz', hzz'⟩ := run_stays hto hz
    have hdistinct := run_distinct (hbefore.trans (.head h.go h.fires.step hto)) h.distinct
    obtain rfl := eq_of_jti hdistinct hz' hw (((hzz'.same.1.trans hzjti).trans hyjti).trans hwjti.symm)
    exact hzz'.revoked hzrevoked hwlive

end

end Cut

/-! ## The result -/

theorem tape_stays (h : Run (Pool.step (system env)) ok d acts c) : c.state.tape = d.state.tape := by
  refine h.invariant (P := fun _ c => c.state.tape = d.state.tape) rfl ?_
  intro _ f a f' hf _ hstep
  rcases Pool.step_cases hstep with ⟨task, rfl, rfl⟩ | ⟨j, t, o, k, rfl, hj, hprog, rfl⟩ |
    ⟨m, s, rfl, hs, rfl⟩
  · exact hf
  · exact (handle_tape o).trans hf
  · cases m with
    | clock now =>
      cases hs
      exact hf

/-- **A bulk revocation that finds no request under way cannot be outrun.** When no statement fails and a
    change of password, a reset or a revocation has answered that the user's sessions are revoked, its bulk
    revocation was made at some moment of the run, and from then on no live session of the user is one that
    was created by a login which had read the user's row before that moment, or by a refresh of a session that
    existed before it. -/
theorem revocation_final {s : State} {i : Nat} {t : Thread} {tenantID userID : String}
    (hs : (s.sessions.map Session.jti).Nodup) (htape : ∀ n, s.tape n = none)
    (hrun : Run (Pool.step (system env)) (fun c a => Presents c a ∧ Undisturbed c a) ⟨[], s⟩ acts c)
    (hi : c.threads[i]? = some t) (hanswered : Answered t.log tenantID userID) :
    ∃ before rest d d', acts = before ++ .fire i :: rest ∧
      Run (Pool.step (system env)) (fun c a => Presents c a ∧ Undisturbed c a) ⟨[], s⟩ before d ∧
      Pool.Fires (system env) i ⟨.store (.revokeUserSessions tenantID userID), .ok ()⟩ d d' ∧
      Run (Pool.step (system env)) (fun c a => Presents c a ∧ Undisturbed c a) d' rest c ∧
      ∀ x ∈ c.state.sessions, x.userID = userID → x.tenantID = tenantID → x.revokedAt = none →
        ¬ CheckedBefore d c x ∧ ¬ RefreshedFrom d c x := by
  obtain ⟨pre, post, r, hlog, hreplied, hlooked⟩ := hanswered
  obtain ⟨answer, hbulk⟩ := (may_of_mem (run_safe hrun) (List.mem_of_getElem? hi) hlog).2 hreplied tenantID
    userID hlooked
  have hmem : (⟨.store (.revokeUserSessions tenantID userID), answer⟩ : Entry sig GoError) ∈ t.log := by
    rw [hlog]
    exact List.mem_append_left _ hbulk
  rcases Pool.exists_moment hrun hi hmem with ⟨t0, ht0, -⟩ |
    ⟨before, rest, d, d', hacts, hbefore, hgo, hfires, hrest⟩
  · cases ht0
  · have hok : answer = .ok () := by
      have htaped : d.state.tape d.state.calls = none := by
        rw [tape_stays hbefore]
        exact htape _
      have hanswer : answer = (State.handle env (.store (.revokeUserSessions tenantID userID)) d.state).1 := hfires.answer
      rw [hanswer, State.handle, htaped]
      rfl
    subst hok
    have hcut : Cut env (fun c a => Presents c a ∧ Undisturbed c a) s tenantID userID i d d' c :=
      ⟨hs, fun _ _ h => h, ⟨before, hbefore⟩, hgo, hfires, ⟨rest, hrest⟩⟩
    refine ⟨before, rest, d, d', hacts, hbefore, hfires, hrest, fun x hx huser htenant hlive => ?_⟩
    exact ⟨hcut.not_checkedBefore hx huser htenant hlive, hcut.not_refreshedFrom hx huser htenant hlive⟩

end Undisturbed

/-! ## Runs in the office -/

def opensSession : Request → Bool
  | .login _ _ | .oidcLogin _ | .refresh _ => true
  | _ => false

variable {x : Session} {log : Log}

theorem not_pending_of_test {t : Thread} (h : t.done = true ∨ opensSession t.task = false) :
    ¬ Pending t x := by
  rintro ⟨hdone, -, hgrounds⟩
  rcases h with h | h
  · rw [hdone] at h
    cases h
  · cases htask : t.task <;> rw [htask] at h hgrounds <;> first | exact False.elim hgrounds | cases h

def presents (c : Server) : Act Request Move → Bool
  | .start request =>
    match request.token? with
    | some (.signed claims) => c.state.sessions.any (fun x =>
        x.jti = claims.jti ∧ x.userID = claims.userID ∧ x.tenantID = claims.tenantID ∧ x.role = claims.role)
    | _ => true
  | _ => true

theorem presents_of_test {c : Server} {a : Act Request Move} (h : presents c a = true) : Presents c a := by
  cases a with
  | start request =>
    intro claims htoken
    rw [presents, htoken] at h
    obtain ⟨x, hx, hfields⟩ := List.any_eq_true.mp h
    exact ⟨x, hx, of_decide_eq_true hfields⟩
  | fire i => trivial
  | move m => trivial

def isBulk : Call → Bool
  | .store (.revokeUserSessions _ _) => true
  | _ => false

def undisturbed (c : Server) : Act Request Move → Bool
  | .fire i => ((c.threads[i]?).bind Thread.next?).all (fun o => ¬ isBulk o) ∨
      c.threads.all (fun u => u.done ∨ opensSession u.task = false)
  | _ => true

theorem undisturbed_of_test {c : Server} {a : Act Request Move} (h : undisturbed c a = true) :
    Undisturbed c a := by
  cases a with
  | start request => trivial
  | fire i =>
    intro t tenantID userID ht hnext u hu x _ _
    rcases of_decide_eq_true h with hother | hquiet
    · rw [ht, Option.bind_some, hnext] at hother
      cases hother
    · exact not_pending_of_test (of_decide_eq_true (List.all_eq_true.mp hquiet u hu))
  | move m => trivial

def revokeAnn : Request := .revokeUserSessions { apiKey := "key" } "ann"

/-- A test for the log of `revokeAnn`. -/
def tellsAnswered : Log → Bool
  | [_, ⟨.store (.getUser tenantID userID), .ok _⟩, _, ⟨.reply r, .ok _⟩] =>
    tenantID = "t1" ∧ userID = "ann" ∧ r.body.saysRevoked = true
  | _ => false

theorem answered_of_tells (h : tellsAnswered log = true) : Answered log "t1" "ann" := by
  unfold tellsAnswered at h
  split at h
  · rename_i e1 tenantID userID user e2 r _
    obtain ⟨rfl, rfl, hreplied⟩ := of_decide_eq_true h
    exact ⟨[e1, ⟨.store (.getUser "t1" "ann"), .ok user⟩, e2], [], r, rfl, hreplied, user, by simp⟩
  · cases h

def revoked : List (Act Request Move) :=
  [.start annLogin] ++ calls 0 9 ++ [.start revokeAnn] ++ calls 1 4 ++ [.start annLogin] ++ calls 2 9

theorem revocation_final_office : ∃ c t, c.threads[1]? = some t ∧ Answered t.log "t1" "ann" ∧
    ∃ before rest d d', revoked = before ++ .fire 1 :: rest ∧
      Run (Pool.step (system officeEnv)) (fun c a => Presents c a ∧ Undisturbed c a) ⟨[], office⟩ before d ∧
      Pool.Fires (system officeEnv) 1 ⟨.store (.revokeUserSessions "t1" "ann"), .ok ()⟩ d d' ∧
      Run (Pool.step (system officeEnv)) (fun c a => Presents c a ∧ Undisturbed c a) d' rest c ∧
      ∀ x ∈ c.state.sessions, x.userID = "ann" → x.tenantID = "t1" → x.revokedAt = none →
        ¬ CheckedBefore d c x ∧ ¬ RefreshedFrom d c x := by
  have hexec : (exec (Pool.step (system officeEnv)) (fun c a => presents c a && undisturbed c a) revoked
      ⟨[], office⟩).map (fun c => (c.threads[1]?).any (fun t => tellsAnswered t.log)) = some true := by
    decide +kernel
  obtain ⟨c, hrun, -, htest⟩ := Transition.run_of_test hexec
  obtain ⟨t, ht, htells⟩ := (Option.any_eq_true _ _).mp htest
  refine ⟨c, t, ht, answered_of_tells htells, ?_⟩
  refine revocation_final (by decide) (fun _ => rfl) (hrun.mono (fun c a _ h => ?_)) ht
    (answered_of_tells htells)
  obtain ⟨hpresents, hundisturbed⟩ := Bool.and_eq_true_iff.mp h
  exact ⟨presents_of_test hpresents, undisturbed_of_test hundisturbed⟩

/-- A bulk revocation of Ann's sessions is made by thread `i`, is answered, and yet a session of Ann is live
    that `bad` holds of. -/
def Outrun (before rest : List (Act Request Move)) (i : Nat) (bad : Server → Server → Session → Prop) :
    Prop :=
  ∃ d d' c t x, Run (Pool.step (system officeEnv)) Presents ⟨[], office⟩ before d ∧
    Pool.Fires (system officeEnv) i ⟨.store (.revokeUserSessions "t1" "ann"), .ok ()⟩ d d' ∧
    Run (Pool.step (system officeEnv)) Presents d' rest c ∧ c.threads[i]? = some t ∧
      Answered t.log "t1" "ann" ∧
    x ∈ c.state.sessions ∧ x.userID = "ann" ∧ x.tenantID = "t1" ∧ x.revokedAt = none ∧ bad d c x

/-- What is evaluated: `i` is about to make the bulk revocation, and in the end it has answered. -/
def outrunTest (before rest : List (Act Request Move)) (i : Nat) (test : Server → Server → Bool) : Bool :=
  ((exec (Pool.step (system officeEnv)) presents before ⟨[], office⟩).bind (fun d =>
    (Pool.step (system officeEnv) d (.fire i)).bind (fun d' =>
      (exec (Pool.step (system officeEnv)) presents rest d').map (fun c =>
        ((d.threads[i]?).bind Thread.next?).any (fun
          | .store (.revokeUserSessions tenantID userID) => tenantID = "t1" ∧ userID = "ann"
          | _ => false) && (c.threads[i]?).any (fun t => tellsAnswered t.log) && test d c)))).getD false

theorem outrun_of_test {before rest : List (Act Request Move)} {i : Nat} (test : Server → Server → Bool)
    {bad : Server → Server → Session → Prop} (h : outrunTest before rest i test = true)
    (hbad : ∀ d c, test d c = true → ∃ x ∈ c.state.sessions, x.userID = "ann" ∧ x.tenantID = "t1" ∧
      x.revokedAt = none ∧
      bad d c x) : Outrun before rest i bad := by
  unfold outrunTest at h
  cases hd : exec (Pool.step (system officeEnv)) presents before ⟨[], office⟩ with
  | none =>
    rw [hd] at h
    cases h
  | some d =>
    rw [hd, Option.bind_some] at h
    cases hd' : Pool.step (system officeEnv) d (.fire i) with
    | none =>
      rw [hd'] at h
      cases h
    | some d' =>
      rw [hd', Option.bind_some] at h
      cases hc : exec (Pool.step (system officeEnv)) presents rest d' with
      | none =>
        rw [hc] at h
        cases h
      | some c =>
        rw [hc, Option.map_some, Option.getD_some] at h
        obtain ⟨h, htest⟩ := Bool.and_eq_true_iff.mp h
        obtain ⟨hnext, hanswered⟩ := Bool.and_eq_true_iff.mp h
        obtain ⟨o, ho, hbulk⟩ := (Option.any_eq_true _ _).mp hnext
        obtain ⟨u, hu, hunext⟩ := Option.bind_eq_some_iff.mp ho
        obtain ⟨t, ht, htells⟩ := (Option.any_eq_true _ _).mp hanswered
        obtain ⟨x, hx, huser, htenant, hlive, hxbad⟩ := hbad d c htest
        have hbefore := (run_of_exec hd).mono (fun _ _ _ h => presents_of_test h)
        split at hbulk
        · obtain ⟨rfl, rfl⟩ := of_decide_eq_true hbulk
          have hfires := Pool.fires_of_next hd' hu hunext
          have hok : (State.handle officeEnv (.store (.revokeUserSessions "t1" "ann")) d.state).1 = .ok () := by
            rw [State.handle, tape_stays hbefore]
            rfl
          have hfires' : Pool.Fires (system officeEnv) i ⟨.store (.revokeUserSessions "t1" "ann"), .ok ()⟩ d d' := by
            rwa [← hok]
          exact ⟨d, d', c, t, x, hbefore, hfires', (run_of_exec hc).mono (fun _ _ _ h => presents_of_test h), ht,
            answered_of_tells htells, hx, huser, htenant, hlive, hxbad⟩
        · cases hbulk

def tellsFound : Entry sig GoError → Bool
  | ⟨.store (.getUserByEmail _ _), .ok user⟩ => user.id = "ann" ∧ user.tenantID = "t1"
  | _ => false

def tellsCreates (x : Session) : Entry sig GoError → Bool
  | ⟨.store (.createSession y), .ok z⟩ => y = x ∧ z = x
  | _ => false

theorem found_of_tells (h : log.any tellsFound = true) : ∃ user, Found log user ∧ user.id = "ann" ∧
    user.tenantID = "t1" := by
  obtain ⟨e, he, htells⟩ := List.any_eq_true.mp h
  unfold tellsFound at htells
  split at htells
  · rename_i tenantID email user
    exact ⟨user, .inl ⟨tenantID, email, he⟩, of_decide_eq_true htells⟩
  · cases htells

theorem created_of_creates (h : log.any (tellsCreates x) = true) : Created log x := by
  obtain ⟨e, he, htells⟩ := List.any_eq_true.mp h
  unfold tellsCreates at htells
  split at htells
  · rename_i y z
    obtain ⟨hy, hz⟩ := of_decide_eq_true htells
    rwa [hy, hz] at he
  · cases htells

/-- A live session of Ann that thread `j` created. -/
def createdLive (c : Server) (j : Nat) (x : Session) : Bool :=
  x.userID = "ann" ∧ x.tenantID = "t1" ∧ x.revokedAt = none ∧
    (c.threads[j]?).any (fun u => u.log.any (tellsCreates x)) = true

/-- The login has read Ann's row in `d`, and its session is live in `c`. -/
def loginOutruns (d c : Server) : Bool :=
  (d.threads[0]?).any (fun u => u.task.token?.isNone ∧ u.log.any tellsFound) ∧
    c.state.sessions.any (createdLive c 0)

/-- The refresh has revoked the session it was called with in `d`, and the new one is live in `c`. -/
def refreshOutruns (d c : Server) : Bool :=
  d.state.sessions.any (fun y => y.jti = "u") ∧
    (c.threads[1]?).any (fun u => u.task = .refresh (annToken "u")) ∧ c.state.sessions.any (createdLive c 1)

/-- **Both kinds of requests outrun the revocation**: a login that has checked the password, and a refresh
    that has revoked the old session, create a live session after all sessions of the user were revoked and
    the response was sent. -/
theorem revocation_outrun :
    Outrun ([.start annLogin] ++ calls 0 3 ++ [.start revokeAnn] ++ calls 1 2)
      (calls 1 1 ++ calls 0 6) 1 CheckedBefore ∧
      Outrun ([.start annLogin] ++ calls 0 9 ++ [.start (.refresh (annToken "u"))] ++ calls 1 4 ++ [.start revokeAnn] ++ calls 2 2)
        (calls 2 1 ++ calls 1 5) 2 RefreshedFrom := by
  refine ⟨outrun_of_test loginOutruns (by decide +kernel) (fun d c h => ?_),
    outrun_of_test refreshOutruns (by decide +kernel) (fun d c h => ?_)⟩
  · obtain ⟨hlogin, hlive⟩ := of_decide_eq_true h
    obtain ⟨u0, hu0, htest⟩ := (Option.any_eq_true _ _).mp hlogin
    obtain ⟨htoken, hfound⟩ := of_decide_eq_true htest
    obtain ⟨x, hx, hxlive⟩ := List.any_eq_true.mp hlive
    obtain ⟨huser, htenant, hnone, hcreated⟩ := of_decide_eq_true hxlive
    obtain ⟨u, hu, hcreates⟩ := (Option.any_eq_true _ _).mp hcreated
    obtain ⟨user, hfound, hid, hutenant⟩ := found_of_tells hfound
    exact ⟨x, hx, huser, htenant, hnone, 0, u0, u, user, hu0, hu, Option.isNone_iff_eq_none.mp htoken, hfound,
      hid.trans huser.symm, hutenant.trans htenant.symm, created_of_creates hcreates⟩
  · obtain ⟨hold, hrefresh, hlive⟩ := of_decide_eq_true h
    obtain ⟨y, hy, hjti⟩ := List.any_eq_true.mp hold
    obtain ⟨u, hu, htask⟩ := (Option.any_eq_true _ _).mp hrefresh
    obtain ⟨x, hx, hxlive⟩ := List.any_eq_true.mp hlive
    obtain ⟨huser, htenant, hnone, hcreated⟩ := of_decide_eq_true hxlive
    obtain ⟨u', hu', hcreates⟩ := (Option.any_eq_true _ _).mp hcreated
    cases hu.symm.trans hu'
    exact ⟨x, hx, huser, htenant, hnone, u, List.mem_of_getElem? hu, _, of_decide_eq_true htask,
      created_of_creates hcreates,
      y, hy, of_decide_eq_true hjti⟩

end SyncForge.Auth
