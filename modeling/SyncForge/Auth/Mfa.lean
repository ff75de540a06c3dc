import SyncForge.Auth.Roles

/-!
# `Auth.Mfa` — switching the second factor off

`handleMFADisable` asks for a code. `handleMFAEnroll` does not: it stores a new secret and switches the second
factor off, for whoever holds a session token. The law that the second factor is switched off only with a code
for the secret in force holds for runs in which enrolments find the second factor off, and in which the secret
is not replaced between the check of a code and the statement that follows it.
-/

namespace SyncForge.Auth

open Effect
open Transition (Run)

def Off (s : State) (tenantID userID : String) : Prop := ∀ u, s.user? tenantID userID = some u →
    u.totpEnabled = false

def ReadSecret (log : Log) (tenantID userID secret : String) : Prop :=
  (⟨.store (.getUserTOTPSecret tenantID userID), .ok secret⟩ : Entry sig GoError) ∈ log

def EnrolsOff (c : Server) : Act Request Move → Prop
  | .fire i => ∀ t tenantID userID, c.threads[i]? = some t →
      (∀ secret, t.next? = some (.store (.setTOTPSecret tenantID userID secret)) → Off c.state tenantID userID ∧
        ∀ u ∈ c.threads, u.done = false → ∀ secret', ¬ ReadSecret u.log tenantID userID secret') ∧
      (∀ token, t.task = .mfaEnroll token → t.next? = some (.store (.setTOTPEnabled tenantID userID false)) →
        Off c.state tenantID userID)
  | _ => True

def SecretsCurrent (c : Server) : Prop :=
  ∀ t ∈ c.threads, t.done = false → ∀ tenantID userID secret, ReadSecret t.log tenantID userID secret →
    ∃ u, c.state.user? tenantID userID = some u ∧ u.totpSecret = secret

section Step

variable {env : Env} {s : State} {c c' : Server} {tenantID userID : String}

theorem secret_handle (env : Env) (o : Call) {u : User} (h : s.user? tenantID userID = some u) :
    (∃ u', (State.handle env o s).2.user? tenantID userID = some u' ∧ u'.totpSecret = u.totpSecret) ∨
      ∃ secret, o = .store (.setTOTPSecret tenantID userID secret) := by
  rcases user_handle env o h with hsame | ⟨st, f, rfl, hupdate, hafter⟩
  · exact .inl ⟨u, hsame, rfl⟩
  · cases st with
    | setTOTPSecret _ _ secret =>
      cases hupdate
      exact .inr ⟨secret, rfl⟩
    | setUserPassword _ _ _ => cases hupdate; exact .inl ⟨_, hafter, rfl⟩
    | setUserRole _ _ _ => cases hupdate; exact .inl ⟨_, hafter, rfl⟩
    | setTOTPEnabled _ _ _ => cases hupdate; exact .inl ⟨_, hafter, rfl⟩
    | setBackupCodes _ _ _ => cases hupdate; exact .inl ⟨_, hafter, rfl⟩
    | consumeBackupCode _ _ _ => cases hupdate; exact .inl ⟨_, hafter, rfl⟩
    | _ => cases hupdate

theorem readSecret_handle {o : Call} {secret : String}
    (h : ReadSecret [⟨o, (State.handle env o s).1⟩] tenantID userID secret) :
    ∃ u, (State.handle env o s).2.user? tenantID userID = some u ∧ u.totpSecret = secret := by
  obtain ⟨rfl, hanswer⟩ := Entry.mk.inj (List.mem_singleton.mp h)
  have hok := eq_of_heq hanswer
  rw [State.handle] at hok ⊢
  split at hok
  · cases hok
  · dsimp only at hok ⊢
    rw [State.exec] at hok
    cases hrow : s.user? tenantID userID with
    | none =>
      rw [State.user?] at hrow
      rw [hrow] at hok
      cases hok
    | some u =>
      rw [State.user?] at hrow
      rw [hrow] at hok
      exact ⟨u, hrow, (Except.ok.inj hok).symm⟩

/-- **Step lemma**: the secret that a request under way has read is the one in the row. -/
theorem secretsCurrent_step {a : Act Request Move} (hc : SecretsCurrent c) (hok : EnrolsOff c a)
    (h : Pool.step (system env) c a = some c') : SecretsCurrent c' := by
  rcases Pool.step_cases h with ⟨task, rfl, rfl⟩ | ⟨i, t, o, k, rfl, hi, hprog, rfl⟩ | ⟨m, s, rfl, hs, rfl⟩
  · refine List.forall_mem_append.mpr ⟨hc, List.forall_mem_singleton.mpr (fun _ _ _ _ hread => ?_)⟩
    exact absurd hread List.not_mem_nil
  · -- what was read before the call is still there
    have kept : ∀ v ∈ c.threads, v.done = false →
      ∀ tenantID userID secret, ReadSecret v.log tenantID userID secret →
        ∃ u, (State.handle env o c.state).2.user? tenantID userID = some u ∧ u.totpSecret = secret := by
      intro v hv hdone tenantID userID secret hread
      obtain ⟨u, hu, hsecret⟩ := hc v hv hdone tenantID userID secret hread
      rcases secret_handle env o hu with ⟨u', hu', hsame⟩ | ⟨secret', rfl⟩
      · exact ⟨u', hu', hsame.trans hsecret⟩
      · have hquiet := ((hok t tenantID userID hi).1 secret' (Thread.next_eq hprog)).2
        exact absurd hread (hquiet v hv hdone secret)
    intro v hv hdone tenantID userID secret hread
    rcases List.mem_or_eq_of_mem_set hv with hv | rfl
    · exact kept v hv hdone tenantID userID secret hread
    · rcases List.mem_append.mp hread with hread | hread
      · exact kept t (List.mem_of_getElem? hi) (Thread.not_done hprog) tenantID userID secret hread
      · exact readSecret_handle hread
  · cases m with
    | clock now =>
      cases hs
      exact hc

theorem secretsCurrent_run {acts : List (Act Request Move)}
    (h : Run (Pool.step (system env)) EnrolsOff ⟨[], s⟩ acts c) : SecretsCurrent c :=
  h.invariant (P := fun _ c => SecretsCurrent c) (fun _ ht => absurd ht List.not_mem_nil)
    (fun _ _ _ _ hd hok hstep => secretsCurrent_step hd hok hstep)

def PresentedCode (env : Env) (t : Thread) (tenantID userID secret : String) : Prop :=
  ∃ token code now, t.task = .mfaDisable token (some code) ∧ Bears t.task tenantID userID ∧
    (⟨.timeNow, .ok now⟩ : Entry sig GoError) ∈ t.log ∧ env.totpValidate secret code now = .ok true

theorem presentedCode_of_switch {i : Nat} {t : Thread} {k : Except GoError Unit → Http Unit} {u : User}
    (hc : SecretsCurrent c) (hsafe : Pool.Safe (Rely.free (State.handle env)) (promise env) c)
    (hok : EnrolsOff c (.fire i)) (hi : c.threads[i]? = some t)
    (hprog : t.prog = .call (.store (.setTOTPEnabled tenantID userID false)) k)
    (hu : c.state.user? tenantID userID = some u) (hon : u.totpEnabled = true) :
    PresentedCode env t tenantID userID u.totpSecret := by
  have hmem := List.mem_of_getElem? hi
  obtain ⟨hbears, hswitches⟩ := hsafe.may_next hmem hprog
  cases htask : t.task with
  | mfaEnroll token =>
    have hoff := (hok t tenantID userID hi).2 token htask (Thread.next_eq hprog) u hu
    rw [hon] at hoff
    cases hoff
  | mfaDisable token body =>
    rw [htask] at hswitches
    obtain ⟨-, code, rfl, secret, now, hread, hnow, hvalid⟩ := hswitches
    obtain ⟨u', hu', rfl⟩ := hc t hmem (Thread.not_done hprog) tenantID userID secret hread
    cases hu.symm.trans hu'
    exact ⟨token, code, now, htask, hbears, hnow, hvalid⟩
  | mfaConfirm token body =>
    rw [htask] at hswitches
    exact Bool.noConfusion hswitches.1
  | _ =>
    rw [htask] at hswitches
    exact False.elim hswitches

/-- **The second factor is switched off only with a code.** In runs in which enrolments find it off, a step
    from a state in which the second factor of a user is on keeps the secret, and switches it off only if it
    is taken by a request that presented a code valid for that secret. -/
theorem mfa_kept {acts : List (Act Request Move)} {a : Act Request Move} {u : User}
    (hrun : Run (Pool.step (system env)) EnrolsOff ⟨[], s⟩ acts c) (hok : EnrolsOff c a)
    (hstep : Pool.step (system env) c a = some c') (hu : c.state.user? tenantID userID = some u)
      (hon : u.totpEnabled = true) :
    ∃ u', c'.state.user? tenantID userID = some u' ∧ u'.totpSecret = u.totpSecret ∧ (u'.totpEnabled = false →
      ∃ i t, a = .fire i ∧ c.threads[i]? = some t ∧ PresentedCode env t tenantID userID u.totpSecret) := by
  have same : ∀ u' : User, u'.totpEnabled = u.totpEnabled → u'.totpEnabled = false → ∃ i t, a = .fire i ∧
      c.threads[i]? = some t ∧ PresentedCode env t tenantID userID u.totpSecret := by
    intro u' hsame hoff
    rw [hsame, hon] at hoff
    cases hoff
  rcases Pool.step_cases hstep with ⟨task, rfl, rfl⟩ | ⟨i, t, o, k, rfl, hi, hprog, rfl⟩ |
    ⟨m, s', rfl, hs, rfl⟩
  · exact ⟨u, hu, rfl, same u rfl⟩
  · rcases user_handle env o hu with hsame | ⟨st, f, rfl, hupdate, hafter⟩
    · exact ⟨u, hsame, rfl, same u rfl⟩
    · cases st with
      | setTOTPSecret _ _ secret =>
        cases hupdate
        have hoff := ((hok t tenantID userID hi).1 secret (Thread.next_eq hprog)).1 u hu
        rw [hon] at hoff
        cases hoff
      | setTOTPEnabled _ _ enabled =>
        cases hupdate
        refine ⟨_, hafter, rfl, fun hoff => ⟨i, t, rfl, hi, ?_⟩⟩
        obtain rfl : enabled = false := hoff
        exact presentedCode_of_switch (secretsCurrent_run hrun) (run_safe hrun) hok hi hprog hu hon
      | setUserPassword _ _ _ => cases hupdate; exact ⟨_, hafter, rfl, same _ rfl⟩
      | setUserRole _ _ _ => cases hupdate; exact ⟨_, hafter, rfl, same _ rfl⟩
      | setBackupCodes _ _ _ => cases hupdate; exact ⟨_, hafter, rfl, same _ rfl⟩
      | consumeBackupCode _ _ _ => cases hupdate; exact ⟨_, hafter, rfl, same _ rfl⟩
      | _ => cases hupdate
  · cases m with
    | clock now =>
      cases hs
      exact ⟨u, hu, rfl, same u rfl⟩

end Step

/-! ## In the office -/

def guarded : State :=
  { office with
    users := [{ id := "ann", tenantID := "t1", email := "ann@x", passwordHash := "old", role := .admin, totpSecret := "123",
                totpEnabled := true }]
    sessions := [{ jti := "u", userID := "ann", tenantID := "t1", role := .admin, expiresAt := 43200000000000 }] }

def isEnrol : Request → Bool
  | .mfaEnroll _ => true
  | _ => false

def enrolsNone (c : Server) : Act Request Move → Bool
  | .fire i => ((c.threads[i]?).bind Thread.next?).all (fun
      | .store (.setTOTPSecret _ _ _) => false
      | _ => true) ∧ (c.threads[i]?).all (fun t => ¬ isEnrol t.task)
  | _ => true

theorem enrolsOff_of_test {c : Server} {a : Act Request Move} (h : enrolsNone c a = true) :
    EnrolsOff c a := by
  cases a with
  | start request => trivial
  | fire i =>
    intro t tenantID userID ht
    obtain ⟨hsecret, htask⟩ := of_decide_eq_true h
    rw [ht] at hsecret htask
    refine ⟨fun secret hnext => ?_, fun token htoken => ?_⟩
    · rw [Option.bind_some, hnext] at hsecret
      cases hsecret
    · have hnot := of_decide_eq_true htask
      rw [htoken] at hnot
      exact absurd rfl hnot
  | move m => trivial

theorem mfa_kept_office : ∃ c c' u u', Run (Pool.step (system officeEnv)) EnrolsOff ⟨[], guarded⟩
      ([.start (.mfaDisable (annToken "u") (some "123"))] ++ calls 0 5) c ∧
    Pool.step (system officeEnv) c (.fire 0) = some c' ∧ c.state.user? "t1" "ann" = some u ∧
    u.totpEnabled = true ∧ c'.state.user? "t1" "ann" = some u' ∧ u'.totpEnabled = false ∧
    ∃ i t, (.fire 0 : Act Request Move) = .fire i ∧ c.threads[i]? = some t ∧
    PresentedCode officeEnv t "t1" "ann" u.totpSecret := by
  have hexec : (Transition.exec (Pool.step (system officeEnv)) enrolsNone
      ([.start (.mfaDisable (annToken "u") (some "123"))] ++ calls 0 5) ⟨[], guarded⟩).map (fun c =>
        enrolsNone c (.fire 0) && ((c.state.user? "t1" "ann").any (fun u => u.totpEnabled) &&
          (Pool.step (system officeEnv) c (.fire 0)).any (fun c' =>
            (c'.state.user? "t1" "ann").any (fun u => ¬ u.totpEnabled)))) = some true := by
    decide +kernel
  obtain ⟨c, hrun, -, htest⟩ := Transition.run_of_test hexec
  obtain ⟨hok, htest⟩ := Bool.and_eq_true_iff.mp htest
  obtain ⟨hon, hoff⟩ := Bool.and_eq_true_iff.mp htest
  obtain ⟨u, hu, hon⟩ := (Option.any_eq_true _ _).mp hon
  obtain ⟨c', hstep, hoff⟩ := (Option.any_eq_true _ _).mp hoff
  obtain ⟨u', hu', hoff⟩ := (Option.any_eq_true _ _).mp hoff
  have hrun : Run (Pool.step (system officeEnv)) EnrolsOff ⟨[], guarded⟩
      ([.start (.mfaDisable (annToken "u") (some "123"))] ++ calls 0 5) c := hrun.mono (fun _ _ _ h => enrolsOff_of_test h)
  obtain ⟨u'', hu'', -, hcode⟩ := mfa_kept hrun (enrolsOff_of_test hok) hstep hu hon
  cases hu'.symm.trans hu''
  have hoff : u'.totpEnabled = false := Bool.eq_false_iff.mpr (of_decide_eq_true hoff)
  exact ⟨c, c', u, u', hrun, hstep, hu, hon, hu', hoff, hcode hoff⟩

/-- **A session token is enough to remove the second factor**: the only request is an enrolment with Ann's
    token; it presents no code, and afterwards the second factor is off and its secret replaced. -/
theorem enrol_removes_mfa : (guarded.user? "t1" "ann").map (fun u => (u.totpEnabled, u.totpSecret))
    = some (true, "123") ∧
      ∃ c, Run (Pool.step (system officeEnv)) Presents ⟨[], guarded⟩ ([.start (.mfaEnroll (annToken "u"))] ++ calls 0 7) c ∧
        (c.state.user? "t1" "ann").map (fun u => (u.totpEnabled, u.totpSecret)) = some (false, "fresh") := by
  refine ⟨by decide +kernel, Transition.exists_run (b := presents) (f := fun c => decide
    ((c.state.user? "t1" "ann").map (fun u => (u.totpEnabled, u.totpSecret)) = some (false, "fresh")))
      (by decide +kernel) ?_ ?_⟩
  · exact fun _ _ h => presents_of_test h
  · exact fun _ _ htest => of_decide_eq_true htest

end SyncForge.Auth
