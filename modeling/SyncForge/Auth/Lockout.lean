import SyncForge.Auth.Rotation

/-!
# `Auth.Lockout` — how many guesses an account allows

`handleLogin` counts the recent failures of an account in one statement and records its own in another, so
logins side by side all see the same number (`lockout_outrun`). If a login counts only when no other one for
the account is past its count, at most
`LoginMaxFailures` logins fail their check in any window without a successful one (`lockout_bounds`). What
failed is read off the logs of the logins, not off the table: that the table has a row for each of them is a
step of the proof (`fire_failed`).
-/

namespace SyncForge.Auth

open Effect Effect.Prog
open Rely (free free_keeps safe_attempt safe_mono safe_of_only safe_perform safe_return safe_seq)
open State (handle)
open Transition (Run exists_run)

def logins (env : Env) : Pool.Setup sig GoError (String × Option LoginRequest) State Move where
  handle := handle env
  body r := handleLogin env r.1 r.2
  move := move

abbrev Logins := Pool sig GoError (String × Option LoginRequest) State
abbrev Login := Effect.Thread sig GoError (String × Option LoginRequest)

variable {env : Env} {s : State} {T E : String} {log : Log} {c : Logins}

/-- The failures `CountRecentFailures` counts for an account. -/
def recent (env : Env) (T E : String) (s : State) : Nat :=
  (s.attempts.filter (fun a => State.isFailure T E a ∧
    s.now - env.config.loginLockoutMin * 60000000000 < a.attemptedAt)).length

def told (env : Env) (T E : String) : Entry sig GoError → Bool
  | ⟨.store (.countRecentFailures tenantID email _), r⟩ => tenantID = T ∧ email = E ∧ locked env r = false
  | _ => false

/-- What ends the check of a login: its failure is recorded, the failures are cleared, or it is answered. -/
def settles : Call → Bool
  | .store (.recordLoginAttempt _ _ _ _) | .store (.clearLoginFailures _ _) | .reply _ => true
  | _ => false

def counts : Call → Bool
  | .store (.countRecentFailures _ _ _) => true
  | _ => false

def unsettled (log : Log) : Bool := log.all (fun e => !settles e.op)

def underCheck (env : Env) (T E : String) (log : Log) : Bool := log.any (told env T E) && unsettled log

def checking (env : Env) (T E : String) (t : Login) : Bool := !t.done && underCheck env T E t.log

def refuses (T E : String) : Entry sig GoError → Bool
  | ⟨.reply r, _⟩ => r.status = 401
  | ⟨.store (.recordLoginAttempt tenantID email _ success), _⟩ => tenantID = T ∧ email = E ∧ success = false
  | _ => false

/-- The login was let past the count of the account, and its password or its code was wrong: it is answered
    401, or about to be, after `loginFailure`. -/
def failed (env : Env) (T E : String) (log : Log) : Bool := log.any (told env T E) && log.any (refuses T E)

def OneByOne (env : Env) (T E : String) (c : Logins) : Act (String × Option LoginRequest) Move → Prop
  | .fire i => ∀ t window, c.threads[i]? = some t →
      t.next? = some (.store (.countRecentFailures T E window)) → ∀ j u, c.threads[j]? = some u →
      checking env T E u = true → j = i
  | .move (.clock now) => c.state.now ≤ now
  | .start _ => True

/-- No login for the account succeeds. -/
def NoSuccess (T E : String) (c : Logins) : Act (String × Option LoginRequest) Move → Prop
  | .fire i => ∀ t, c.threads[i]? = some t → t.next? ≠ some (.store (.clearLoginFailures T E))
  | _ => True

/-! ## What a login does -/

/-- A failure is recorded only during a check, the count comes first, and a login that is let past it is
    answered 401 only after its failure has been recorded. -/
def heeds (env : Env) (T E : String) (log : Log) : Call → Prop
  | .store (.recordLoginAttempt tenantID email _ _) => underCheck env tenantID email log = true
  | .store (.countRecentFailures _ _ window) =>
    window = env.config.loginLockoutMin * 60000000000 ∧ unsettled log = true
  | .reply r => r.status = 401 → log.any (told env T E) = true → log.any (refuses T E) = true
  | _ => True

abbrev Heeds (env : Env) (T E : String) (p : Http Unit) (log : Log) : Prop :=
  ∀ s, (free (handle env)).safe (fun log o _ => heeds env T E log o) p (fun _ _ _ => True) log s

def quiet (o : Call) : Prop := settles o = false ∧ counts o = false

abbrev between (env : Env) (T E : String) (o : sig.Op) : Prop := quiet o ∧ ∀ log, heeds env T E log o

theorem unsettled_snoc {e : Entry sig GoError} (he : settles e.op = false) (h : unsettled log = true) :
    unsettled (log ++ [e]) = true := by
  unfold unsettled at h ⊢
  rw [List.all_append, h]
  simp [he]

theorem told_snoc {e : Entry sig GoError} (he : counts e.op = false) :
    (log ++ [e]).any (told env T E) = log.any (told env T E) := by
  have hnot : told env T E e = false := by
    unfold told
    split
    · cases he
    · rfl
  rw [List.any_append]
  simp [hnot]

theorem underCheck_snoc {e : Entry sig GoError} (he : settles e.op = false)
    (h : underCheck env T E log = true) : underCheck env T E (log ++ [e]) = true := by
  obtain ⟨htold, hall⟩ := Bool.and_eq_true_iff.mp h
  unfold underCheck
  rw [List.any_append, htold, unsettled_snoc he hall]
  rfl

variable {tenantID email : String}

/-- Before the count. -/
def Ahead (env : Env) (T E : String) (log : Log) : Prop := unsettled log = true ∧
    log.any (told env T E) = false

/-- Past the count of an account, and of no other. -/
def Past (env : Env) (T E tenantID email : String) (log : Log) : Prop :=
  underCheck env tenantID email log = true ∧ (log.any (told env T E) = true → T = tenantID ∧ E = email)

theorem Ahead.snoc (e : Entry sig GoError) (he : quiet e.op) (h : Ahead env T E log) :
    Ahead env T E (log ++ [e]) :=
  ⟨unsettled_snoc he.1 h.1, (told_snoc he.2).trans h.2⟩

theorem Past.snoc (e : Entry sig GoError) (he : quiet e.op) (h : Past env T E tenantID email log) :
    Past env T E tenantID email (log ++ [e]) :=
  ⟨underCheck_snoc he.1 h.1, fun htold => h.2 ((told_snoc he.2).symm.trans htold)⟩

theorem heeds_only {p : Http Unit} (hp : Only (fun o => ∀ log, heeds env T E log o) p) :
    Heeds env T E p log :=
  fun _ => safe_mono (safe_of_only (I := fun _ _ => True) hp (fun _ _ _ h _ => h)
    (fun log _ _ ho _ _ _ => ⟨ho log, free_keeps, trivial⟩) trivial) (fun _ _ _ _ => trivial)

theorem heeds_bind {α : Type} {p : Http α} {f : α → Http Unit} {I : Log → Prop}
    (hp : Only (between env T E) p)
    (hI : ∀ {log} (e : Entry sig GoError), quiet e.op → I log → I (log ++ [e])) (h : I log)
    (hf : ∀ log' a, I log' → Heeds env T E (f a) log') :
      Heeds env T E (p >>= f) log :=
  fun _ => safe_seq (safe_of_only (I := fun log _ => I log) hp (fun _ _ _ h _ => h)
    (fun log _ _ ho _ _ h => ⟨ho.2 log, free_keeps, hI _ ho.1 h⟩) h)
      (fun log' a t h _ => hf log' a h t) trivial

theorem count_bind {f : Except GoError Int → Http Unit} (hlog : Ahead env T E log)
    (hlocked : ∀ log' r, locked env r = true → Heeds env T E (f r) log')
    (hopen : ∀ log' r, locked env r = false → Past env T E tenantID email log' → Heeds env T E (f r) log') :
    Heeds env T E (attempt (stmt (.countRecentFailures tenantID email
      (env.config.loginLockoutMin * 60000000000))) >>= f) log := by
  intro s
  refine safe_attempt (Q := fun log' r _ => log' = log ++ [⟨.store (.countRecentFailures tenantID email
    (env.config.loginLockoutMin * 60000000000)), r⟩])
    (safe_perform (fun t _ _ => ⟨⟨rfl, hlog.1⟩, free_keeps, fun _ _ => rfl⟩)) ?_ trivial
  rintro _ r t rfl -
  cases h : locked env r with
  | true => exact hlocked _ r h t
  | false =>
    refine hopen _ r h ⟨?_, fun htold => ?_⟩ t
    · unfold underCheck
      rw [unsettled_snoc rfl hlog.1, List.any_append]
      simp [told, h]
    · rw [List.any_append, hlog.2, Bool.false_or, List.any_cons, List.any_nil, Bool.or_false] at htold
      obtain ⟨rfl, rfl, _⟩ := of_decide_eq_true htold
      exact ⟨rfl, rfl⟩

theorem between_stmt {o : Stmt} (h : between env T E (.store o)) :
    Only (between env T E) (attempt (stmt o)) :=
  only_attempt (only_perform h)

theorem loginThrottled_between {ip : String} : Only (between env T E) (loginThrottled env ip) := by
  unfold loginThrottled
  split_ifs
  · exact only_return _
  · refine only_bind (only_attempt (only_perform ⟨⟨rfl, rfl⟩, fun _ => trivial⟩)) (fun n => ?_)
    cases n with
    | error e => exact only_return _
    | ok n =>
      dsimp only
      split_ifs
      · exact only_bind (only_attempt (only_perform ⟨⟨rfl, rfl⟩, fun _ => trivial⟩)) (fun _ => only_return _)
      · exact only_return _

theorem secondFactor_between {user : User} {code : String} :
    Only (between env T E) (secondFactor env user code) := by
  unfold secondFactor
  split_ifs
  · exact only_return _
  · exact only_return _
  · refine only_bind (only_perform ⟨⟨rfl, rfl⟩, fun _ => trivial⟩) (fun now => ?_)
    split
    · exact only_return _
    · refine only_bind (between_stmt ⟨⟨rfl, rfl⟩, fun _ => trivial⟩) (fun r => ?_)
      split <;> exact only_return _

theorem writeError_heeds {status : Nat} {message : String} (h : status ≠ 401) :
    Heeds env T E (writeError status message) log :=
  heeds_only (only_perform (fun _ h' => absurd h' h))

/-- **A refusal** after the count: the failure is recorded, then the login is answered. -/
theorem refuse_heeds {ip message : String} (hT : T ≠ "")
    (h : tenantID ≠ "" → underCheck env tenantID email log = true)
    (htold : log.any (told env T E) = true → T = tenantID ∧ E = email) :
    Heeds env T E (do loginFailure ip tenantID email; writeError 401 message) log := by
  intro s
  unfold loginFailure
  split_ifs with hempty
  · refine safe_perform (fun t _ _ => ⟨fun _ hany => ?_, free_keeps, fun _ _ => trivial⟩)
    exact absurd ((htold hany).1.trans hempty) hT
  · refine safe_seq (Q := fun log' _ _ => ∃ r,
      log' = log ++ [⟨.store (.recordLoginAttempt tenantID email ip false), r⟩]) ?_ ?_
      trivial
    · refine safe_attempt (Q := fun log' _ _ => ∃ r, log' = log ++ [⟨.store (.recordLoginAttempt tenantID email ip false), r⟩])
        (safe_perform (fun t _ _ => ⟨h hempty, free_keeps, fun _ _ => ⟨_, rfl⟩⟩)) ?_ trivial
      exact fun _ _ _ hlog _ => safe_return (fun _ _ => hlog)
    · rintro _ _ t ⟨r, rfl⟩ _
      refine safe_perform (fun t _ _ => ⟨fun _ hany => ?_, free_keeps, fun _ _ => trivial⟩)
      rw [told_snoc rfl] at hany
      obtain ⟨rfl, rfl⟩ := htold hany
      rw [List.any_append]
      simp [refuses]

theorem startSession_heeds {user : User} : Only (fun o => ∀ log, heeds env T E log o)
    (startSession user) := by
  have hopen : Only (fun o => ∀ log, heeds env T E log o) (openSession user.id user.tenantID user.role) := by
    refine only_bind (only_perform (fun _ => trivial))
      (fun jti => only_bind (only_perform (fun _ => trivial)) (fun now => ?_))
    refine only_bind (only_attempt (only_perform (fun _ => trivial))) (fun x => ?_)
    cases x with
    | error e => exact only_return _
    | ok x => exact only_bind (only_bind (only_perform (fun _ => trivial)) (fun _ => only_return _)) (fun _ => only_return _)
  refine only_bind hopen (fun token => ?_)
  cases token <;> exact only_perform (fun _ h => absurd h (by simp))

theorem handleLogin_heeds {ip : String} {body : Option LoginRequest} (hT : T ≠ "") :
    Heeds env T E (handleLogin env ip body) [] := by
  unfold handleLogin
  split
  · exact writeError_heeds (by decide)
  · rename_i req _
    refine heeds_bind (I := Ahead env T E) loginThrottled_between Ahead.snoc ⟨rfl, rfl⟩ ?_
    intro log1 throttled h1
    cases throttled with
    | true => exact writeError_heeds (by decide)
    | false =>
      refine heeds_bind (I := Ahead env T E) (between_stmt ⟨⟨rfl, rfl⟩, fun _ => trivial⟩) Ahead.snoc h1 ?_
      intro log2 tenant h2
      cases tenant with
      | error e => exact refuse_heeds hT (fun h => absurd rfl h) (fun h => absurd (h.symm.trans h2.2) Bool.noConfusion)
      | ok tenant =>
        refine count_bind h2 (fun _ r hlocked => ?_) (fun log3 r hopen h3 => ?_)
        · rw [if_pos hlocked]
          exact writeError_heeds (by decide)
        · rw [if_neg (Bool.eq_false_iff.mp hopen)]
          refine heeds_bind (between_stmt ⟨⟨rfl, rfl⟩, fun _ => trivial⟩) Past.snoc h3 (fun log4 user h4 => ?_)
          cases user with
          | error e => exact refuse_heeds hT (fun _ => h4.1) h4.2
          | ok user =>
            dsimp only
            split_ifs
            · exact refuse_heeds hT (fun _ => h4.1) h4.2
            · refine heeds_bind secondFactor_between Past.snoc h4 (fun log5 message h5 => ?_)
              cases message with
              | some message => exact refuse_heeds hT (fun _ => h5.1) h5.2
              | none =>
                refine heeds_only (only_bind ?_ (fun _ => startSession_heeds))
                exact only_bind (only_attempt (only_perform (fun _ => trivial))) (fun _ => only_return _)

/-! ## The failures -/

/-- The table after a call that the store answers. -/
def attemptsAfter (s : State) : Call → List LoginAttempt
  | .store (.recordLoginAttempt tenantID email ip success) =>
      s.attempts ++ [⟨tenantID, email, ip, success, s.now⟩]
  | .store (.clearLoginFailures tenantID email) =>
      s.attempts.filter (fun a => ¬ State.isFailure tenantID email a)
  | _ => s.attempts

theorem handle_attempts (env : Env) (o : Call) (htape : s.tape s.calls = none) :
    (handle env o s).2.now = s.now ∧ (handle env o s).2.tape = s.tape ∧
    (handle env o s).2.attempts = attemptsAfter s o := by
  cases o with
  | store st =>
    rw [handle, htape]
    cases st with
    | createUser tenantID email hash role =>
      rw [State.exec]
      split_ifs <;> exact ⟨rfl, rfl, rfl⟩
    | createSession x =>
      rw [State.exec]
      split_ifs <;> exact ⟨rfl, rfl, rfl⟩
    | _ => exact ⟨rfl, rfl, rfl⟩
  | incr key =>
    rw [handle]
    split <;> exact ⟨rfl, rfl, rfl⟩
  | expire key ttl =>
    rw [handle]
    split <;> exact ⟨rfl, rfl, rfl⟩
  | _ => exact ⟨rfl, rfl, rfl⟩

theorem attemptsAfter_cases (s : State) (o : Call) : (attemptsAfter s o).Sublist s.attempts ∨
    ∃ tenantID email ip success, o = .store (.recordLoginAttempt tenantID email ip success) := by
  cases o with
  | store st =>
    cases st with
    | recordLoginAttempt tenantID email ip success => exact .inr ⟨_, _, _, _, rfl⟩
    | clearLoginFailures tenantID email => exact .inl List.filter_sublist
    | _ => exact .inl (List.Sublist.refl _)
  | _ => exact .inl (List.Sublist.refl _)

theorem recent_le {s' : State} (hnow : s.now ≤ s'.now) (hsub : s'.attempts.Sublist s.attempts) :
    recent env T E s' ≤ recent env T E s := by
  unfold recent
  refine ((hsub.filter _).length_le).trans ?_
  rw [← List.countP_eq_length_filter, ← List.countP_eq_length_filter]
  refine List.countP_mono_left (fun a _ ha => ?_)
  obtain ⟨hfailure, hwindow⟩ := of_decide_eq_true ha
  exact decide_eq_true ⟨hfailure, lt_of_le_of_lt (sub_le_sub_right hnow _) hwindow⟩

theorem recent_recorded {ip : String} {success : Bool} {s' : State} (hnow : s'.now = s.now)
    (hrows : s'.attempts = s.attempts ++ [⟨tenantID, email, ip, success, s.now⟩]) :
    recent env T E s' ≤ recent env T E s + if tenantID = T ∧ email = E then 1 else 0 := by
  unfold recent
  rw [hrows, hnow, List.filter_append, List.length_append]
  refine Nat.add_le_add_left ?_ _
  split_ifs with hsame
  · exact List.length_filter_le _ [_]
  · rw [List.filter_cons_of_neg]
    · rfl
    · exact fun h => hsame ⟨(of_decide_eq_true (of_decide_eq_true h).1).1, (of_decide_eq_true (of_decide_eq_true h).1).2.1⟩

/-- The failures of the account recorded at `t0` or later. -/
def since (T E : String) (t0 : Time) (s : State) : Nat :=
  s.attempts.countP (fun a => State.isFailure T E a ∧ t0 ≤ a.attemptedAt)

variable {t0 : Time}

theorem since_le_recent (h : s.now - env.config.loginLockoutMin * 60000000000 < t0) :
    since T E t0 s ≤ recent env T E s := by
  unfold since recent
  rw [← List.countP_eq_length_filter]
  refine List.countP_mono_left (fun a _ ha => ?_)
  obtain ⟨hfailure, hlater⟩ := of_decide_eq_true ha
  exact decide_eq_true ⟨hfailure, h.trans_le hlater⟩

theorem since_kept (o : Call) (htape : s.tape s.calls = none) (ho : o ≠ .store (.clearLoginFailures T E)) :
    since T E t0 s ≤ since T E t0 (handle env o s).2 := by
  unfold since
  rw [(handle_attempts env o htape).2.2]
  cases o with
  | store st =>
    cases st with
    | recordLoginAttempt tenantID email ip success =>
      exact (List.countP_append ▸ Nat.le_add_right _ _)
    | clearLoginFailures tenantID email =>
      rw [attemptsAfter, List.countP_filter]
      refine List.countP_mono_left (fun a _ ha => ?_)
      obtain ⟨hfailure, _⟩ := of_decide_eq_true ha
      obtain ⟨rfl, rfl, _⟩ := of_decide_eq_true hfailure
      have hother : State.isFailure tenantID email a = false :=
        decide_eq_false (fun h => ho (by rw [h.1, h.2.1]))
      rw [ha, hother]
      rfl
    | _ => exact le_rfl
  | _ => exact le_rfl

theorem since_recorded {ip : String} (htape : s.tape s.calls = none) (hnow : t0 ≤ s.now) :
    since T E t0 (handle env (.store (.recordLoginAttempt T E ip false)) s).2 = since T E t0 s + 1 := by
  unfold since
  rw [(handle_attempts env _ htape).2.2, attemptsAfter, List.countP_append, List.countP_singleton, if_pos]
  exact decide_eq_true ⟨decide_eq_true ⟨rfl, rfl, rfl⟩, hnow⟩

/-! ## The failed logins -/

theorem refuses_settles {e : Entry sig GoError} (h : refuses T E e = true) : settles e.op = true := by
  unfold refuses at h
  split at h
  · rfl
  · rfl
  · cases h

theorem not_refuses (h : unsettled log = true) : log.any (refuses T E) = false := by
  refine List.any_eq_false.mpr (fun e he hrefuses => ?_)
  have hnot := List.all_eq_true.mp h e he
  rw [refuses_settles hrefuses] at hnot
  cases hnot

/-- **A login fails its check** with the call that records the failure. -/
theorem failed_snoc {e : Entry sig GoError} (hheeds : heeds env T E log e.op)
    (h : failed env T E (log ++ [e]) = true) (hnot : failed env T E log = false) :
    ∃ ip, e.op = .store (.recordLoginAttempt T E ip false) := by
  obtain ⟨htold, hrefuses⟩ := Bool.and_eq_true_iff.mp h
  rw [List.any_append, List.any_cons, List.any_nil, Bool.or_false] at hrefuses
  obtain ⟨o, r⟩ := e
  cases hcounts : counts o with
  | true =>
    unfold counts at hcounts
    split at hcounts
    · rw [not_refuses hheeds.2] at hrefuses
      cases hrefuses
    · cases hcounts
  | false =>
    rw [told_snoc hcounts] at htold
    have hbefore : log.any (refuses T E) = false := by
      rw [failed, htold] at hnot
      exact hnot
    rw [hbefore, Bool.false_or] at hrefuses
    unfold refuses at hrefuses
    split at hrefuses
    · rename_i reply _ heq
      cases heq
      exact absurd (hbefore.symm.trans (hheeds (of_decide_eq_true hrefuses) htold)) Bool.noConfusion
    · rename_i ip success _ heq
      cases heq
      obtain ⟨rfl, rfl, rfl⟩ := of_decide_eq_true hrefuses
      exact ⟨ip, rfl⟩
    · cases hrefuses

theorem failed_mono {e : Entry sig GoError} (h : failed env T E log = true) :
    failed env T E (log ++ [e]) = true := by
  obtain ⟨htold, hrefuses⟩ := Bool.and_eq_true_iff.mp h
  rw [failed, List.any_append, List.any_append, htold, hrefuses]
  rfl

/-! ## Every run -/

def Bounded (env : Env) (T E : String) (c : Logins) : Prop :=
  (∀ k, c.state.tape k = none) ∧
    (recent env T E c.state + c.threads.countP (checking env T E) : Int) ≤ env.config.loginMaxFailures

theorem told_free {o : Call} (htape : s.tape s.calls = none) (hheeds : heeds env T E log o)
    (h : told env T E ⟨o, (handle env o s).1⟩ = true) :
    (∃ window, o = .store (.countRecentFailures T E window)) ∧
    (recent env T E s : Int) < env.config.loginMaxFailures := by
  cases o with
  | store st =>
    cases st with
    | countRecentFailures tenantID email window =>
      obtain ⟨rfl, rfl, hlocked⟩ := of_decide_eq_true h
      refine ⟨⟨window, rfl⟩, ?_⟩
      obtain rfl : window = env.config.loginLockoutMin * 60000000000 := hheeds.1
      rw [handle, htape] at hlocked
      exact not_le.mp (of_decide_eq_false hlocked)
    | _ => cases h
  | _ => cases h

/-- **One call** of a login. -/
theorem fire_bounded {i : Nat} {t : Login} {o : Call} {k : Except GoError (sig.Res o) → Http Unit}
    (hheeds : heeds env T E t.log o) (hok : OneByOne env T E c (.fire i)) (hi : c.threads[i]? = some t)
      (hprog : t.prog = .call o k)
    (h : Bounded env T E c) : Bounded env T E
      ⟨c.threads.set i ⟨t.task, t.log ++ [⟨o, (handle env o c.state).1⟩],
      k (handle env o c.state).1⟩, (handle env o c.state).2⟩ := by
  obtain ⟨htape, hbound⟩ := h
  obtain ⟨hnow, htape', hrows⟩ := handle_attempts env o (htape c.state.calls)
  refine ⟨fun n => htape' ▸ htape n, ?_⟩
  obtain ⟨hlt, hget⟩ := List.getElem?_eq_some_iff.mp hi
  have hself : checking env T E t = underCheck env T E t.log := by
    rw [checking, Thread.not_done hprog]
    rfl
  have hpos : checking env T E t = true → 0 < c.threads.countP (checking env T E) :=
    fun h => List.countP_pos_iff.mpr ⟨t, List.mem_of_getElem? hi, h⟩
  dsimp only
  rw [List.countP_set hlt, hget]
  rcases attemptsAfter_cases c.state o with hsub | ⟨tenantID, email, ip, success, rfl⟩
  · have hrecent : recent env T E _ ≤ recent env T E c.state := recent_le hnow.ge (hrows ▸ hsub)
    split_ifs with hbefore hafter hafter
    · have := hpos hbefore
      omega
    · omega
    · -- the count itself: nobody else is being checked
      obtain ⟨htold, hall⟩ := Bool.and_eq_true_iff.mp (Bool.and_eq_true_iff.mp hafter).2
      have hnew : told env T E ⟨o, (handle env o c.state).1⟩ = true := by
        rw [unsettled, List.all_append] at hall
        rw [List.any_append] at htold
        refine (Bool.or_eq_true_iff.mp htold).elim (fun hold => ?_) (fun hnew => by simpa using hnew)
        have hbefore' : underCheck env T E t.log = true :=
          Bool.and_eq_true_iff.mpr ⟨hold, (Bool.and_eq_true_iff.mp hall).1⟩
        exact absurd (hself.trans hbefore') hbefore
      obtain ⟨⟨window, rfl⟩, hfree⟩ := told_free (htape _) hheeds hnew
      have hnone : c.threads.countP (checking env T E) = 0 := by
        refine List.countP_eq_zero.mpr (fun u hu hchecking => ?_)
        obtain ⟨j, hj⟩ := List.mem_iff_getElem?.mp hu
        obtain rfl := hok t window hi (Thread.next_eq hprog) j u hj hchecking
        obtain rfl := Option.some.inj (hi.symm.trans hj)
        exact hbefore hchecking
      omega
    · omega
  · have hover : ¬ checking env T E ⟨t.task,
      t.log ++ [⟨.store (.recordLoginAttempt tenantID email ip success),
        (handle env (.store (.recordLoginAttempt tenantID email ip success)) c.state).1⟩],
        k (handle env (.store (.recordLoginAttempt tenantID email ip success)) c.state).1⟩ = true := by
      simp [checking, underCheck, unsettled, settles]
    have hrecent : recent env T E _ ≤ recent env T E c.state + _ := recent_recorded hnow hrows
    rw [if_neg hover]
    by_cases hsame : tenantID = T ∧ email = E
    · obtain ⟨rfl, rfl⟩ := hsame
      have hbefore : checking env tenantID email t = true := hself.trans hheeds
      have := hpos hbefore
      rw [if_pos hbefore]
      rw [if_pos ⟨rfl, rfl⟩] at hrecent
      omega
    · rw [if_neg hsame] at hrecent
      split_ifs <;> omega

/-- **One call** in a window: a login that fails its check leaves a row. -/
theorem fire_failed {i : Nat} {t : Login} {o : Call} {k : Except GoError (sig.Res o) → Http Unit} {n : Nat}
    (hheeds : heeds env T E t.log o) (htape : c.state.tape c.state.calls = none) (hnow : t0 ≤ c.state.now)
    (ho : o ≠ .store (.clearLoginFailures T E)) (hi : c.threads[i]? = some t)
    (h : c.threads.countP (fun t => failed env T E t.log) ≤ n + since T E t0 c.state) :
    (c.threads.set i ⟨t.task, t.log ++ [⟨o, (handle env o c.state).1⟩], k (handle env o c.state).1⟩).countP
      (fun t => failed env T E t.log) ≤ n + since T E t0 (handle env o c.state).2 := by
  obtain ⟨hlt, hget⟩ := List.getElem?_eq_some_iff.mp hi
  have hkept : since T E t0 c.state ≤ since T E t0 (handle env o c.state).2 := since_kept o htape ho
  rw [List.countP_set hlt, hget]
  dsimp only
  cases hbefore : failed env T E t.log with
  | true =>
    rw [failed_mono hbefore]
    have hpos : 0 < c.threads.countP (fun t => failed env T E t.log) :=
      List.countP_pos_iff.mpr ⟨t, List.mem_of_getElem? hi, hbefore⟩
    simp only [if_true]
    omega
  | false =>
    rw [if_neg Bool.false_ne_true, Nat.sub_zero]
    split_ifs with hafter
    · obtain ⟨ip, hop⟩ := failed_snoc (e := ⟨o, (handle env o c.state).1⟩) hheeds hafter hbefore
      obtain rfl : o = .store (.recordLoginAttempt T E ip false) := hop
      rw [since_recorded htape hnow]
      omega
    · omega

/-- Every state of a run that meets the condition. -/
abbrev Sound (env : Env) (T E : String) (c : Logins) : Prop :=
  Bounded env T E c ∧ Pool.Safe (free (handle env))
    (fun _ => ⟨fun log o _ => heeds env T E log o, fun _ _ _ => True⟩) c

/-- **Step lemma**: a step that meets the condition keeps the bound. -/
theorem sound_step {a : Act (String × Option LoginRequest) Move} {c' : Logins} (hT : T ≠ "")
    (h : Sound env T E c) (hok : OneByOne env T E c a) (hstep : Pool.step (logins env) c a = some c') :
    Sound env T E c' := by
  obtain ⟨hbound, hsafe⟩ := h
  refine ⟨?_, ?_⟩
  · rcases Pool.step_cases hstep with ⟨task, rfl, rfl⟩ | ⟨i, t, o, k, rfl, hi, hprog, rfl⟩ | ⟨m, s', rfl,
      hs, rfl⟩
    · refine ⟨hbound.1, ?_⟩
      dsimp only
      rw [List.countP_append, List.countP_singleton, if_neg (by simp [checking, underCheck]), Nat.add_zero]
      exact hbound.2
    · exact fire_bounded (hsafe.may_next (List.mem_of_getElem? hi) hprog) hok hi hprog hbound
    · cases m with
      | clock now =>
        cases hs
        refine ⟨hbound.1, ?_⟩
        have hrecent : recent env T E { c.state with now } ≤ recent env T E c.state := recent_le hok (List.Sublist.refl _)
        exact (Int.add_le_add_right (Int.ofNat_le.mpr hrecent) _).trans hbound.2
  · have hpermits : Pool.permits (fun _ _ => True) (fun _ _ => True) c a := by
      cases a with
      | fire i => exact fun _ _ _ _ => trivial
      | _ => trivial
    exact Pool.safe_step rfl (fun s task _ _ => handleLogin_heeds hT s) (fun _ _ _ _ _ => ⟨trivial, trivial⟩)
      hsafe hpermits hstep

/-- **Lockout bounds the guesses.** Take any two states of a run of any number of logins, less than the
    lockout time apart and with no successful login for the account in between. Between them at most
    `LoginMaxFailures` logins that were let past the count of the account fail their check, those still being
    checked at the end included. -/
theorem lockout_bounds {acts acts' : List (Act (String × Option LoginRequest) Move)} {c1 c2 : Logins}
    (hT : T ≠ "") (htape : ∀ k, s.tape k = none) (hstart : (recent env T E s : Int) ≤ env.config.loginMaxFailures)
    (hrun : Run (Pool.step (logins env)) (OneByOne env T E) ⟨[], s⟩ acts c1)
    (hrun' : Run (Pool.step (logins env)) (fun c a => OneByOne env T E c a ∧ NoSuccess T E c a) c1 acts' c2)
    (hwindow : c2.state.now - c1.state.now < env.config.loginLockoutMin * 60000000000) :
    (c2.threads.countP (fun t => failed env T E t.log) + c2.threads.countP (checking env T E) : Int) ≤
      c1.threads.countP (fun t => failed env T E t.log) + env.config.loginMaxFailures := by
  have hsound : Sound env T E c1 := hrun.invariant (P := fun _ c => Sound env T E c)
    ⟨⟨htape, by simpa using hstart⟩, Pool.safe_nil trivial⟩
      (fun _ _ _ _ h hok hstep => sound_step hT h hok hstep)
  have hfailed : Sound env T E c2 ∧ c1.state.now ≤ c2.state.now ∧
    c2.threads.countP (fun t => failed env T E t.log) ≤
      c1.threads.countP (fun t => failed env T E t.log) + since T E c1.state.now c2.state := by
    refine hrun'.invariant (P := fun _ c => Sound env T E c ∧ c1.state.now ≤ c.state.now ∧
      c.threads.countP (fun t => failed env T E t.log) ≤
        c1.threads.countP (fun t => failed env T E t.log) + since T E c1.state.now c.state)
      ⟨hsound, le_rfl, Nat.le_add_right _ _⟩ ?_
    rintro _ c a c' ⟨hsound, hnow, hcount⟩ ⟨hok, hnone⟩ hstep
    refine ⟨sound_step hT hsound hok hstep, ?_⟩
    rcases Pool.step_cases hstep with ⟨task, rfl, rfl⟩ | ⟨i, t, o, k, rfl, hi, hprog, rfl⟩ |
      ⟨m, s', rfl, hs, rfl⟩
    · refine ⟨hnow, ?_⟩
      dsimp only
      rw [List.countP_append, List.countP_singleton, if_neg (by simp [failed]), Nat.add_zero]
      exact hcount
    · have htape := hsound.1.1 c.state.calls
      refine ⟨hnow.trans (handle_attempts env o htape).1.ge, ?_⟩
      refine fire_failed (hsound.2.may_next (List.mem_of_getElem? hi) hprog) htape hnow (fun ho => ?_) hi hcount
      exact hnone t hi (ho ▸ Thread.next_eq hprog)
    · cases m with
      | clock now =>
        cases hs
        exact ⟨hnow.trans hok, hcount⟩
  obtain ⟨⟨⟨_, hbound⟩, _⟩, _, hcount⟩ := hfailed
  have hrecent : since T E c1.state.now c2.state ≤ recent env T E c2.state :=
    since_le_recent (sub_lt_comm.mp hwindow)
  omega

/-! ## Guesses one after the other, and side by side -/

def lockoutEnv (loginMaxFailures : Int) :
    Env := { officeEnv with config := { loginMaxFailures, cache := false } }

def guess : String × Option LoginRequest :=
    ("10.0.0.9", some { tenantSlug := "acme", email := "ann@x", password := "guess" })

def countsAlone (env : Env) (T E : String) (c : Logins) : Act (String × Option LoginRequest) Move → Bool
  | .fire i => (c.threads[i]?).all (fun t =>
      match t.next? with
      | some (.store (.countRecentFailures _ _ _)) =>
        (List.range c.threads.length).all (fun j => j = i || !(c.threads[j]?).any (checking env T E))
      | some (.store (.clearLoginFailures _ _)) => false
      | _ => true)
  | .move (.clock now) => c.state.now ≤ now
  | .start _ => true

theorem oneByOne_of_test {a : Act (String × Option LoginRequest) Move} (h : countsAlone env T E c a = true) :
    OneByOne env T E c a ∧ NoSuccess T E c a := by
  cases a with
  | start _ => exact ⟨trivial, trivial⟩
  | move m =>
    cases m with
    | clock now =>
      have hnow : c.state.now ≤ now := of_decide_eq_true h
      exact ⟨hnow, trivial⟩
  | fire i =>
    refine ⟨fun t window hi hnext j u hj hchecking => ?_, fun t hi hnext => ?_⟩
    · simp only [countsAlone, hi, Option.all_some, hnext] at h
      have hj' := List.all_eq_true.mp h j (List.mem_range.mpr (List.getElem?_eq_some_iff.mp hj).1)
      rw [hj, Option.any_some, hchecking, Bool.not_true, Bool.or_false] at hj'
      exact of_decide_eq_true hj'
    · simp only [countsAlone, hi, Option.all_some, hnext] at h
      cases h

/-- With two guesses allowed, three logins at 0, 60 and 120 s: the third one is turned away. -/
theorem lockout_bounds_guesses : ∃ c, Run (Pool.step (logins (lockoutEnv 2)))
    (fun c a => OneByOne (lockoutEnv 2) "t1" "ann@x" c a ∧
      NoSuccess "t1" "ann@x" c a) ⟨[], office⟩
      ([.start guess, .start guess, .start guess] ++ List.replicate 5 (.fire 0) ++ .move (.clock 60000000000) ::
        List.replicate 5 (.fire 1) ++ .move (.clock 120000000000) :: List.replicate 3 (.fire 2)) c ∧
    c.threads.map (fun t => failed (lockoutEnv 2) "t1" "ann@x" t.log) = [true, true, false] ∧
    (c.threads.countP (fun t => failed (lockoutEnv 2) "t1" "ann@x" t.log) +
      c.threads.countP (checking (lockoutEnv 2) "t1" "ann@x") : Int) ≤ 0 + 2 := by
  refine exists_run (b := countsAlone (lockoutEnv 2) "t1" "ann@x") (f := fun c : Logins => decide
      (c.threads.map (fun t => failed (lockoutEnv 2) "t1" "ann@x" t.log) = [true, true, false] ∧
        c.state.now = 120000000000))
    (by decide +kernel) (fun c a h => oneByOne_of_test h) (fun c hrun htest => ?_)
  obtain ⟨hfailed, hnow⟩ := of_decide_eq_true htest
  refine ⟨hfailed, lockout_bounds (s := office) (by decide) (fun _ => rfl) (by decide) .refl hrun ?_⟩
  rw [hnow]
  decide

/-- **Two logins side by side** both see no failure where one is allowed, and both fail. -/
theorem lockout_outrun : ∃ c, Run (Pool.step (logins (lockoutEnv 1))) (fun _ _ => True) ⟨[], office⟩
      [.start guess, .start guess, .fire 0, .fire 0, .fire 1, .fire 1, .fire 0, .fire 0, .fire 1, .fire 1, .fire 0, .fire 1] c ∧
    (lockoutEnv 1).config.loginMaxFailures = 1 ∧
    c.threads.countP (fun t => failed (lockoutEnv 1) "t1" "ann@x" t.log) = 2 := by
  exact exists_run (b := fun _ _ => true) (f := fun c : Logins => decide
      (c.threads.countP (fun t => failed (lockoutEnv 1) "t1" "ann@x" t.log) = 2))
    (by decide +kernel) (fun _ _ _ => trivial) (fun _ _ htest => ⟨rfl, of_decide_eq_true htest⟩)

end SyncForge.Auth
