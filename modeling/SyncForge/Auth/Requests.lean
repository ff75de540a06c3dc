import SyncForge.Auth.Handlers
import SyncForge.Effect.Pool

/-!
# `Auth.Requests` — account requests side by side

A pool of requests over one state, call by call. What a request has done is read off its log: the user it
found, the sessions it revoked and created, its response. `may` says once for all of them what each request
does when.
-/

namespace SyncForge.Auth

open Effect
open Effect.Prog hiding pure

/-! ## The system -/

inductive Move where
  | clock (now : Time)

def move : Move → State → Option State
  | .clock now, s => some { s with now }

def system (env : Env) : Pool.Setup sig GoError Request State Move where
  handle := State.handle env
  body := serve env
  move := move

abbrev Server := Pool sig GoError Request State
abbrev Thread := Effect.Thread sig GoError Request
abbrev Log := List (Entry sig GoError)

/-! ## What a request has done -/

def Found (log : Log) (user : User) : Prop :=
  (∃ tenantID email, (⟨.store (.getUserByEmail tenantID email), .ok user⟩ : Entry sig GoError) ∈ log) ∨
    ∃ tenantID email hash role, (⟨.store (.createUser tenantID email hash role), .ok (some user)⟩ : Entry sig
      GoError) ∈ log

def Revoked (log : Log) (tenantID jti : String) : Prop :=
  (⟨.store (.revokeSession tenantID jti), .ok ()⟩ : Entry sig GoError) ∈ log

def Created (log : Log) (x : Session) : Prop := (⟨.store (.createSession x), .ok x⟩ : Entry sig GoError) ∈ log

def Looked (log : Log) (tenantID userID : String) : Prop :=
  ∃ user, (⟨.store (.getUser tenantID userID), .ok user⟩ : Entry sig GoError) ∈ log

def Bulk (log : Log) (tenantID userID : String) : Prop :=
  ∃ r, (⟨.store (.revokeUserSessions tenantID userID), r⟩ : Entry sig GoError) ∈ log

def Handed (log : Log) (token : Token) : Prop :=
  ∃ x exp, Created log x ∧ token = .signed ⟨x.jti, x.userID, x.tenantID, x.role, exp⟩

def Body.saysRevoked : Body → Bool
  | .passwordChanged | .passwordReset | .sessionsRevoked _ => true
  | _ => false

/-! ## What a request may do next -/

def Request.token? : Request → Option Token
  | .login _ _ | .oidcLogin _ => none
  | .logout token | .refresh token | .changePassword token _ | .mfaEnroll token | .mfaConfirm token _ |
      .mfaDisable token _
  | .mfaBackupCodes token => some token
  | .createUser credentials _ | .resetPassword credentials _ _ | .changeRole credentials _ _
  | .revokeUserSessions credentials _ => some credentials.bearer

def Grounds (request : Request) (log : Log) (x : Session) : Prop :=
  match request with
  | .login _ _ | .oidcLogin _ =>
    ∃ user, Found log user ∧ x.userID = user.id ∧ x.tenantID = user.tenantID ∧ x.role = user.role
  | .refresh token =>
    ∃ c, token = .signed c ∧ Revoked log c.tenantID c.jti ∧ x.userID = c.userID ∧ x.tenantID = c.tenantID ∧
      x.role = c.role
  | _ => False

def Factor (env : Env) (log : Log) (user : User) (code : String) : Prop :=
  user.totpEnabled = false ∨ (∃ now, env.totpValidate user.totpSecret code now = .ok true) ∨
    (⟨.store (.consumeBackupCode user.tenantID user.id (env.backupCodeHash code)),
      .ok true⟩ : Entry sig GoError) ∈ log

def Checked (env : Env) (request : Request) (log : Log) (x : Session) : Prop :=
  match request with
  | .login _ body => ∃ req user, body = some req ∧ Found log user ∧ x.userID = user.id ∧
      x.tenantID = user.tenantID ∧
      env.compareHashAndPassword user.passwordHash req.password = true ∧ Factor env log user req.code
  | _ => True

def isCreate : Call → Bool
  | .store (.createSession _) => true
  | _ => false

def NoCreate (log : Log) : Prop := ∀ e ∈ log, isCreate e.op = false

theorem noCreate_nil : NoCreate [] := fun _ h => absurd h List.not_mem_nil

variable {log : Log}

theorem noCreate_snoc {e : Entry sig GoError} (h : NoCreate log) (he : isCreate e.op = false) :
    NoCreate (log ++ [e]) := List.forall_mem_append.mpr ⟨h, List.forall_mem_singleton.mpr he⟩

def Bears (request : Request) (tenantID userID : String) : Prop :=
  ∃ c : Claims, request.token? = some (.signed c) ∧ c.tenantID = tenantID ∧ c.userID = userID

def Proved (env : Env) (log : Log) (tenantID userID code : String) : Prop :=
  ∃ secret now, (⟨.store (.getUserTOTPSecret tenantID userID), .ok secret⟩ : Entry sig GoError) ∈ log ∧
    (⟨.timeNow, .ok now⟩ : Entry sig GoError) ∈ log ∧ env.totpValidate secret code now = .ok true

def Switches (env : Env) (request : Request) (log : Log) (tenantID userID : String) (enabled : Bool) : Prop :=
  match request with
  | .mfaEnroll _ => enabled = false
  | .mfaConfirm _ body => enabled = true ∧ ∃ code, body = some code ∧ Proved env log tenantID userID code
  | .mfaDisable _ body => enabled = false ∧ ∃ code, body = some code ∧ Proved env log tenantID userID code
  | _ => False

def may (env : Env) (request : Request) (log : Log) : Call → Prop
  | .store (.createSession x) => NoCreate log ∧ x.revokedAt = none ∧ Grounds request log x ∧
      Checked env request log x
  | .store (.setTOTPSecret tenantID userID _) => Bears request tenantID userID ∧
      ∃ token, request = .mfaEnroll token
  | .store (.setTOTPEnabled tenantID userID enabled) =>
    Bears request tenantID userID ∧ Switches env request log tenantID userID enabled
  | .store (.consumeBackupCode _ _ hash) => ∃ ip req, request = .login ip (some req) ∧
      hash = env.backupCodeHash req.code
  | .store (.revokeSession tenantID jti) =>
    ∃ c : Claims, request.token? = some (.signed c) ∧ c.tenantID = tenantID ∧ c.jti = jti
  | .reply r => (∀ token, r.body.token? = some token → Handed log token) ∧
      (r.body.saysRevoked = true → ∀ tenantID userID, Looked log tenantID userID → Bulk log tenantID userID)
  | _ => True

def promise (env : Env) (request : Request) : Promise sig GoError State Unit :=
  ⟨fun log o _ => may env request log o, fun _ _ _ => True⟩

/-! ## Every request keeps to it -/

def isPlain : Call → Bool
  | .store (.createSession _) | .store (.revokeSession _ _) | .store (.getUser _ _) |
      .store (.setTOTPSecret _ _ _)
  | .store (.setTOTPEnabled _ _ _) | .store (.consumeBackupCode _ _ _) => false
  | .reply r => r.body.token?.isNone ∧ r.body.saysRevoked = false
  | _ => true

/-- Since `log`, only plain calls were made. -/
def Since (log log' : Log) : Prop := ∃ more, log' = log ++ more ∧ ∀ e ∈ more, isPlain e.op = true

namespace Since

variable {log log' log'' : Log}

theorem refl (log : Log) : Since log log :=
    ⟨[], (List.append_nil log).symm, fun _ h => absurd h List.not_mem_nil⟩

theorem snoc {e : Entry sig GoError} (h : Since log log') (he : isPlain e.op = true) :
    Since log (log' ++ [e]) := by
  obtain ⟨more, rfl, hmore⟩ := h
  exact ⟨more ++ [e], List.append_assoc ..,
    List.forall_mem_append.mpr ⟨hmore, List.forall_mem_singleton.mpr he⟩⟩

section

variable (h : Since log log')
include h

theorem trans (h' : Since log' log'') : Since log log'' := by
  obtain ⟨more, rfl, hmore⟩ := h
  obtain ⟨more', rfl, hmore'⟩ := h'
  exact ⟨more ++ more', List.append_assoc .., List.forall_mem_append.mpr ⟨hmore, hmore'⟩⟩

theorem subset : log ⊆ log' := by
  obtain ⟨more, rfl, _⟩ := h
  exact List.subset_append_left _ _

theorem mem {e : Entry sig GoError} (he : e ∈ log') (hplain : isPlain e.op = false) : e ∈ log := by
  obtain ⟨more, rfl, hmore⟩ := h
  rcases List.mem_append.mp he with he | he
  · exact he
  · rw [hmore e he] at hplain
    cases hplain

theorem looked {tenantID userID : String} : Looked log' tenantID userID → Looked log tenantID userID :=
  fun ⟨user, hu⟩ => ⟨user, h.mem hu rfl⟩

theorem noCreate (hlog : NoCreate log) : NoCreate log' := by
  intro e he
  by_contra hcreate
  have hplain : isPlain e.op = false := by
    unfold isCreate at hcreate
    split at hcreate
    · rename_i x hop
      rw [hop]
      rfl
    · exact absurd rfl hcreate
  exact hcreate (hlog e (h.mem he hplain))

end

end Since

section Gives

variable {env : Env} {request : Request} {log : Log} {α β : Type}
  {status : Nat} {tenantID userID ip targetID : String} {token : Token} {user : User} {log' : Log}
    {caller : Caller}
  {message email : String} {x : Session} {req : LoginRequest}

/-- The program makes its calls as `may` says, after those in `log`, and ends with `Q`. -/
def Gives (env : Env) (request : Request) (p : Http α) (log : Log) (Q : Log → Except GoError α → Prop) :
    Prop :=
  ∀ s, (Rely.free (State.handle env)).safe (fun log o _ => may env request log o) p
    (fun log' r _ => Q log' r) log s

abbrev Keeps (env : Env) (request : Request) (p : Http Unit) (log : Log) :
    Prop := Gives env request p log (fun _ _ => True)

abbrev plain (o : sig.Op) : Prop := isPlain o = true

theorem may_of_plain {o : Call} (ho : isPlain o = true) : may env request log o := by
  cases o with
  | store o => cases o <;> trivial
  | reply r =>
    obtain ⟨htoken, hreplied⟩ := of_decide_eq_true ho
    refine ⟨fun token h => ?_, fun h => ?_⟩
    · rw [h] at htoken
      cases htoken
    · rw [hreplied] at h
      cases h
  | _ => trivial

theorem gives_plain {p : Http α} (hp : Only plain p) :
    Gives env request p log (fun log' _ => Since log log') :=
  fun _ => Rely.safe_of_only (I := fun log' _ => Since log log') hp (fun _ _ _ h _ => h)
    (fun _ _ _ ho _ _ h => ⟨may_of_plain ho, Rely.free_keeps, h.snoc ho⟩) (Since.refl log)

variable {Q : Log → Except GoError α → Prop}

theorem gives_return {a : α} (h : Q log (.ok a)) :
    Gives env request (pure a) log Q := fun _ _ _ => h

theorem gives_throw {e : GoError} (h : Q log (.error e)) :
    Gives env request (.throw e) log Q := fun _ _ _ => h

variable {Q' : Log → Except GoError α → Prop}

theorem gives_bind {p : Http β} {f : β → Http α} {Q : Log → Except GoError β → Prop}
    (hp : Gives env request p log Q) (hf : ∀ log' b, Q log' (.ok b) → Gives env request (f b) log' Q')
    (herror : ∀ log' e, Q log' (.error e) → Q' log' (.error e)) : Gives env request (p >>= f) log Q' :=
  fun s => Rely.safe_bind (hp s) (fun log' b t h _ => hf log' b h t)
    (fun log' e _ h => herror log' e h) trivial

theorem gives_attempt {p : Http β} {f : Except GoError β → Http α} {Q : Log → Except GoError β → Prop}
    (hp : Gives env request p log Q) (hf : ∀ log' r, Q log' r → Gives env request (f r) log' Q') :
    Gives env request (attempt p >>= f) log Q' :=
  fun s => Rely.safe_attempt (hp s) (fun log' r t h _ => hf log' r h t) trivial

theorem gives_call {o : Call} (hmay : may env request log o) :
    Gives env request (perform (S := sig) o) log
      (fun log' r => log' = log ++ [⟨o, r⟩] ∧ ∃ t, r = (State.handle env o t).1) :=
  fun _ => Rely.safe_perform (fun t _ _ => ⟨hmay, Rely.free_keeps, fun _ _ => ⟨rfl, t, rfl⟩⟩)

theorem writeJSON_keeps {body : Body} (hmay : may env request log (.reply ⟨status, body⟩)) :
    Keeps env request (writeJSON status body) log :=
  fun _ => Rely.safe_mono (gives_call hmay _) (fun _ _ _ _ => trivial)

theorem writeError_keeps : Keeps env request (writeError status message) log :=
  writeJSON_keeps (may_of_plain rfl)

theorem fails_keeps (log : Log) (_ : GoError) : Keeps env request (writeError status message) log :=
    writeError_keeps

theorem keeps_plain {p : Http β} {f : Except GoError β → Http Unit} (hp : Only plain p)
    (herror : ∀ log' e, Keeps env request (f (.error e)) log')
    (hok : ∀ log' b, Since log log' → Keeps env request (f (.ok b)) log') :
    Keeps env request (attempt p >>= f) log := by
  refine gives_attempt (gives_plain hp) (fun log' r h => ?_)
  cases r with
  | error e => exact herror log' e
  | ok b => exact hok log' b h

theorem keeps_call {o : Call} {f : Except GoError o.Res → Http Unit} (hmay : may env request log o)
    (herror : ∀ log' e, Keeps env request (f (.error e)) log')
    (hok : ∀ a, Keeps env request (f (.ok a)) (log ++ [⟨o, .ok a⟩])) :
      Keeps env request (attempt (perform (S := sig) o) >>= f) log := by
  refine gives_attempt (gives_call hmay) ?_
  rintro _ r ⟨rfl, -⟩
  cases r with
  | error e => exact herror _ e
  | ok a => exact hok a

/-! ### The programs the requests share -/

theorem plain_stmt {o : Stmt} (h : isPlain (.store o) = true) : Only plain (stmt o) := only_perform h

theorem plain_tryStmt {o : Stmt} (h : isPlain (.store o) = true) : Only plain (tryStmt o) :=
  only_bind (only_attempt (plain_stmt h)) (fun _ => only_return _)

theorem getLiveSession_plain {jti : String} : Only plain (getLiveSession tenantID jti) := by
  refine only_bind (plain_stmt rfl) (fun x => ?_)
  split_ifs
  · trivial
  · refine only_bind (only_perform rfl) (fun now => ?_)
    split_ifs <;> trivial

theorem verifySessionToken_gives :
    Gives env request (verifySessionToken token) log
      (fun log' r => Since log log' ∧ ∀ c, r = .ok c → token = .signed c) := by
  cases token with
  | other text => exact gives_throw ⟨Since.refl log, fun _ h => nomatch h⟩
  | signed c =>
    unfold verifySessionToken
    dsimp only
    split_ifs
    · exact gives_throw ⟨Since.refl log, fun _ h => nomatch h⟩
    · refine gives_bind (gives_plain (only_perform rfl)) (fun log1 now h1 => ?_) (fun _ _ h => ⟨h, fun _ h => nomatch h⟩)
      split_ifs
      · exact gives_throw ⟨h1, fun _ h => nomatch h⟩
      · refine gives_attempt (gives_plain getLiveSession_plain) (fun log2 r h2 => ?_)
        cases r with
        | error e => exact gives_throw ⟨h1.trans h2, fun _ h => nomatch h⟩
        | ok x =>
          refine gives_return ⟨h1.trans h2, fun c' h => ?_⟩
          cases h
          rfl

theorem handle_createSession {y : Session} {t : State}
    (h : (State.handle env (.store (.createSession x)) t).1 = .ok y) : y = x := by
  unfold State.handle at h
  dsimp only at h
  split at h
  · cases h
  · rw [State.exec] at h
    by_cases hany : t.sessions.any (fun y => y.jti = x.jti) = true
    · rw [if_pos hany] at h
      cases h
    · rw [if_neg hany] at h
      exact (Except.ok.inj h).symm

theorem mintSessionToken_gives {c : Claims} :
    Gives env request (mintSessionToken c) log
      (fun log' r => Since log log' ∧ ∀ token, r = .ok token → ∃ exp, token = .signed { c with exp }) := by
  refine gives_bind (gives_plain (only_perform rfl)) (fun log1 now h1 => ?_)
    (fun _ _ h => ⟨h, fun _ h => nomatch h⟩)
  exact gives_return ⟨h1, fun token h => ⟨_, (Except.ok.inj h).symm⟩⟩

theorem openSession_gives {role : Role} (hlog : NoCreate log)
    (hgrounds : ∀ log' x, log ⊆ log' → x.userID = userID → x.tenantID = tenantID → x.role = role →
      Grounds request log' x ∧ Checked env request log' x) :
    Gives env request (openSession userID tenantID role) log
      (fun log' r => ∀ token, r = .ok (some token) → Handed log' token) := by
  refine gives_bind (gives_plain (only_perform rfl)) (fun log1 jti h1 => ?_) (fun _ _ _ _ h => nomatch h)
  refine gives_bind (gives_plain (only_perform rfl)) (fun log2 now h2 => ?_) (fun _ _ _ _ h => nomatch h)
  have hsince := h1.trans h2
  have hready := hgrounds log2 { jti, userID, tenantID, role, expiresAt := now + sessionTTL } hsince.subset
    rfl rfl rfl
  refine gives_attempt (gives_call ⟨hsince.noCreate hlog, rfl, hready⟩) ?_
  rintro _ r ⟨rfl, t, hr⟩
  cases r with
  | error e => exact gives_return (fun _ h => nomatch h)
  | ok x =>
    have hx := handle_createSession hr.symm
    subst hx
    refine gives_bind mintSessionToken_gives (fun log3 token h3 => ?_) (fun _ _ _ _ h => nomatch h)
    refine gives_return (fun token' h => ?_)
    cases Except.ok.inj h
    obtain ⟨exp, rfl⟩ := h3.2 token rfl
    exact ⟨_, exp, h3.1.subset (List.mem_concat_self), rfl⟩

/-! ### Logging in -/

theorem startSession_keeps (hlog : NoCreate log)
    (hgrounds : ∀ log' x, log ⊆ log' → x.userID = user.id → x.tenantID = user.tenantID → x.role = user.role →
      Grounds request log' x ∧ Checked env request log' x) : Keeps env request (startSession user) log := by
  refine gives_bind (openSession_gives hlog hgrounds) (fun log1 token h => ?_) (fun _ _ _ => trivial)
  cases token with
  | none => exact writeError_keeps
  | some token =>
    refine writeJSON_keeps ⟨fun token' h' => ?_, fun h' => nomatch h'⟩
    cases h'
    exact h token rfl

theorem found_mono (hsub : log ⊆ log') (h : Found log user) : Found log' user := by
  rcases h with ⟨tenantID, email, h⟩ | ⟨tenantID, email, hash, role, h⟩
  · exact .inl ⟨tenantID, email, hsub h⟩
  · exact .inr ⟨tenantID, email, hash, role, hsub h⟩

theorem loginThrottled_plain : Only plain (loginThrottled env ip) := by
  unfold loginThrottled
  split_ifs
  · trivial
  · refine only_bind (only_attempt (only_perform rfl)) (fun r => ?_)
    split
    · trivial
    · dsimp only
      split_ifs
      · exact only_bind (only_attempt (only_perform rfl)) (fun _ => only_return _)
      · trivial

theorem loginFailure_plain : Only plain (loginFailure ip tenantID email) := by
  unfold loginFailure
  split_ifs
  · trivial
  · exact plain_tryStmt rfl

theorem factor_mono {code : String} (hsub : log ⊆ log') (h : Factor env log user code) :
    Factor env log' user code := by
  rcases h with h | h | h
  · exact .inl h
  · exact .inr (.inl h)
  · exact .inr (.inr (hsub h))

theorem secondFactor_gives :
    Gives env (.login ip (some req)) (secondFactor env user req.code) log
      (fun log' r => log ⊆ log' ∧ (NoCreate log → NoCreate log') ∧ (r = .ok none → Factor env log' user req.code)) := by
  unfold secondFactor
  by_cases henabled : user.totpEnabled = false
  · rw [if_pos henabled]
    exact gives_return ⟨List.Subset.refl _, id, fun _ => .inl henabled⟩
  · rw [if_neg henabled]
    by_cases hcode : req.code = ""
    · rw [if_pos hcode]
      exact gives_return ⟨List.Subset.refl _, id, fun h => nomatch h⟩
    · rw [if_neg hcode]
      refine gives_bind (gives_plain (only_perform rfl)) (fun log1 now h1 => ?_)
        (fun _ _ h => ⟨h.subset, h.noCreate, fun h => nomatch h⟩)
      split
      · rename_i hvalid
        exact gives_return ⟨h1.subset, h1.noCreate, fun _ => .inr (.inl ⟨now, hvalid⟩)⟩
      · refine gives_attempt (gives_call ⟨ip, req, rfl, rfl⟩) ?_
        rintro _ r ⟨rfl, -⟩
        have hsub : log ⊆ log1 ++ [⟨.store (.consumeBackupCode user.tenantID user.id (env.backupCodeHash req.code)), r⟩] :=
          List.Subset.trans h1.subset (List.subset_append_left _ _)
        have hno := fun h => noCreate_snoc (e := ⟨.store (.consumeBackupCode user.tenantID user.id
          (env.backupCodeHash req.code)), r⟩) (h1.noCreate h) rfl
        split
        · refine gives_return ⟨hsub, hno, fun _ => .inr (.inr ?_)⟩
          exact List.mem_concat_self
        · exact gives_return ⟨hsub, hno, fun h => nomatch h⟩

theorem refuse_keeps : Keeps env request (do loginFailure ip tenantID email; writeError status message) log :=
  gives_bind (gives_plain loginFailure_plain) (fun _ _ _ => writeError_keeps) (fun _ _ _ => trivial)

theorem grounds_found (hrequest : request.token? = none) (hfound : Found log user)
    (hsub : log ⊆ log') (huser : x.userID = user.id) (htenant : x.tenantID = user.tenantID)
    (hrole : x.role = user.role) : Grounds request log' x := by
  cases request with
  | login ip body => exact ⟨user, found_mono hsub hfound, huser, htenant, hrole⟩
  | oidcLogin body => exact ⟨user, found_mono hsub hfound, huser, htenant, hrole⟩
  | _ => cases hrequest

theorem loginUser_keeps {tenant : Tenant} (hlog : NoCreate log)
    (hfound : Found log user) :
    Keeps env (.login ip (some req))
      (if env.compareHashAndPassword user.passwordHash req.password = false then do
        loginFailure ip tenant.id req.email
        writeError 401 "invalid credentials"
      else do
        match ← secondFactor env user req.code with
        | some message => do
          loginFailure ip tenant.id req.email
          writeError 401 message
        | none => do
          tryStmt (.clearLoginFailures user.tenantID req.email)
          startSession user) log := by
  by_cases hpassword : env.compareHashAndPassword user.passwordHash req.password = false
  · rw [if_pos hpassword]
    exact refuse_keeps
  · rw [if_neg hpassword]
    refine gives_bind secondFactor_gives (fun log1 message h1 => ?_) (fun _ _ _ => trivial)
    obtain ⟨hsub1, hno, hfactor⟩ := h1
    cases message with
    | some message => exact refuse_keeps
    | none =>
      refine gives_bind (gives_plain (plain_tryStmt rfl)) (fun log2 _ h2 => ?_) (fun _ _ _ => trivial)
      have hfound2 := found_mono (List.Subset.trans hsub1 h2.subset) hfound
      refine startSession_keeps (h2.noCreate (hno hlog)) (fun log' x hsub huser htenant hrole => ⟨?_, ?_⟩)
      · exact grounds_found rfl hfound2 hsub huser htenant hrole
      · exact ⟨req, user, rfl, found_mono hsub hfound2, huser, htenant, Bool.eq_true_of_not_eq_false hpassword,
          factor_mono (List.Subset.trans h2.subset hsub) (hfactor rfl)⟩

theorem handleLogin_keeps {body : Option LoginRequest} : Keeps env (.login ip body) (handleLogin env ip body)
    [] := by
  unfold handleLogin
  split
  · exact writeError_keeps
  · rename_i req hbody
    obtain rfl := (Option.filter_eq_some_iff.mp hbody).1
    refine gives_bind (gives_plain loginThrottled_plain) (fun log1 throttled h1 => ?_) (fun _ _ _ => trivial)
    cases throttled with
    | true => exact writeError_keeps
    | false =>
      refine keeps_plain (plain_stmt rfl) (fun _ _ => refuse_keeps) (fun log2 tenant h2 => ?_)
      refine gives_attempt (gives_plain (plain_stmt rfl)) (fun log3 failures h3 => ?_)
      by_cases hlocked : locked env failures = true
      · rw [if_pos hlocked]
        exact writeError_keeps
      · rw [if_neg hlocked]
        have hbefore : NoCreate log3 := ((h1.trans h2).trans h3).noCreate noCreate_nil
        refine keeps_call trivial (fun _ _ => refuse_keeps) (fun user => ?_)
        have hfound : Found (log3 ++ [⟨.store (.getUserByEmail tenant.id req.email), .ok user⟩]) user :=
          .inl ⟨_, _, List.mem_concat_self⟩
        exact loginUser_keeps (noCreate_snoc hbefore rfl) hfound

theorem resolveIdentity_gives {claims : IDClaims} :
    Gives env request (resolveIdentity env tenantID claims) log (fun log' r => Since log log' ∧
      (∀ user, r = .ok (.inl user) → Found log' user) ∧
      ∀ reply, r = .ok (.inr reply) → isPlain (.reply reply) = true) := by
  refine gives_attempt (gives_call trivial) ?_
  rintro _ r ⟨rfl, -⟩
  have h1 : Since log (log ++ [⟨.store (.getUserByEmail tenantID claims.email), r⟩]) :=
    (Since.refl log).snoc rfl
  split
  · rename_i user
    refine gives_return ⟨h1, fun user' h => ?_, fun _ h => nomatch h⟩
    cases Except.ok.inj h
    exact .inl ⟨_, _, List.mem_concat_self⟩
  · split_ifs
    · refine gives_return ⟨h1, (fun _ h => nomatch h), fun reply h => ?_⟩
      cases Except.ok.inj h
      rfl
    · refine gives_bind (gives_plain (only_perform rfl)) (fun log2 password h2 => ?_)
        (fun _ _ h => ⟨h1.trans h, (fun _ h => nomatch h), fun _ h => nomatch h⟩)
      refine gives_attempt (gives_plain (only_perform rfl)) (fun log3 hash h3 => ?_)
      cases hash with
      | error e =>
        refine gives_return ⟨(h1.trans h2).trans h3, (fun _ h => nomatch h), fun reply h => ?_⟩
        cases Except.ok.inj h
        rfl
      | ok hash =>
        refine gives_attempt (gives_call trivial) ?_
        rintro _ r ⟨rfl, -⟩
        have h4 := ((h1.trans h2).trans h3).snoc
          (e := ⟨.store (.createUser tenantID claims.email hash .viewer), r⟩) rfl
        split
        · refine gives_return ⟨h4, fun user' h => ?_, fun _ h => nomatch h⟩
          cases Except.ok.inj h
          exact .inr ⟨_, _, _, _, List.mem_concat_self⟩
        · refine gives_return ⟨h4, (fun _ h => nomatch h), fun reply h => ?_⟩
          cases Except.ok.inj h
          rfl
  · refine gives_return ⟨h1, (fun _ h => nomatch h), fun reply h => ?_⟩
    cases Except.ok.inj h
    rfl

theorem handleOIDCLogin_keeps {body : Option OIDCLoginRequest} :
    Keeps env (.oidcLogin body) (handleOIDCLogin env body) [] := by
  unfold handleOIDCLogin
  split_ifs
  · exact writeError_keeps
  · split
    · exact writeError_keeps
    · refine keeps_plain (plain_stmt rfl) fails_keeps (fun log1 tenant h1 => ?_)
      refine keeps_plain (only_perform rfl) fails_keeps (fun log2 _ h2 => ?_)
      refine keeps_plain (only_perform rfl) fails_keeps (fun log3 claims h3 => ?_)
      refine gives_bind resolveIdentity_gives (fun log4 found h => ?_) (fun _ _ _ => trivial)
      obtain ⟨h4, huser, hreply⟩ := h
      cases found with
      | inr reply => exact writeJSON_keeps (may_of_plain (hreply reply rfl))
      | inl user =>
        refine startSession_keeps ((((h1.trans h2).trans h3).trans h4).noCreate noCreate_nil) ?_
        intro log' x hsub hid htenant hrole
        exact ⟨grounds_found rfl (huser user rfl) hsub hid htenant hrole, trivial⟩

/-! ### Sessions of the caller -/

theorem handleLogout_keeps (hrequest : request.token? = some token) : Keeps env request (handleLogout token)
    [] := by
  refine gives_attempt verifySessionToken_gives (fun log1 r h1 => ?_)
  cases r with
  | error e => exact writeJSON_keeps (may_of_plain rfl)
  | ok c =>
    obtain rfl := h1.2 c rfl
    exact keeps_call ⟨c, hrequest, rfl, rfl⟩ fails_keeps (fun _ => writeJSON_keeps (may_of_plain rfl))

theorem handleRefresh_keeps : Keeps env (.refresh token) (handleRefresh token) [] := by
  refine gives_attempt verifySessionToken_gives (fun log1 r h1 => ?_)
  cases r with
  | error e => exact writeError_keeps
  | ok c =>
    obtain rfl := h1.2 c rfl
    refine keeps_call ⟨c, rfl, rfl, rfl⟩ fails_keeps (fun _ => ?_)
    have hrevoked := List.mem_append_right log1 (List.mem_singleton.mpr (Eq.refl
      (⟨.store (.revokeSession c.tenantID c.jti), .ok ()⟩ : Entry sig GoError)))
    refine gives_bind (openSession_gives ?_ ?_) (fun log2 token h => ?_) (fun _ _ _ => trivial)
    · exact noCreate_snoc (h1.1.noCreate noCreate_nil) rfl
    · exact fun log' x hsub huser htenant hrole => ⟨⟨c, rfl, hsub hrevoked, huser, htenant, hrole⟩, trivial⟩
    · cases token with
      | none => exact writeError_keeps
      | some token =>
        refine writeJSON_keeps ⟨fun token' h' => ?_, fun h' => nomatch h'⟩
        cases h'
        exact h token rfl

/-! ### Accounts -/

theorem requireUser_keeps {next : Caller → Http Unit}
    (hnext : ∀ log c, Since [] log → token = .signed c →
      Keeps env request (next ⟨c.tenantID, c.role, c.userID⟩) log) :
      Keeps env request (requireUser token next) [] := by
  unfold requireUser
  split_ifs
  · exact writeError_keeps
  · refine gives_attempt verifySessionToken_gives (fun log1 r h1 => ?_)
    cases r with
    | error e => exact writeError_keeps
    | ok c => exact hnext log1 c h1.1 (h1.2 c rfl)

theorem requireRole_keeps {minRole : Role} {credentials : Credentials} {next : Caller → Http Unit}
    (hnext : ∀ log caller, Since [] log → Keeps env request (next caller) log) :
    Keeps env request (requireRole env minRole credentials next) [] := by
  have hroled : ∀ log caller, Since [] log →
      Keeps env request (if caller.role.rank < minRole.rank then writeError 403 "insufficient role" else next caller) log := by
    intro log caller h
    split_ifs
    · exact writeError_keeps
    · exact hnext log caller h
  unfold requireRole authenticate
  split_ifs
  · unfold requireAPIKey
    split_ifs
    · exact writeError_keeps
    · refine gives_attempt (gives_plain (plain_stmt rfl)) (fun log1 r h1 => ?_)
      split
      · exact writeError_keeps
      · exact writeError_keeps
      · exact hroled _ _ h1
  · exact requireUser_keeps (fun log c h _ => hroled log _ h)

def isLook : Call → Bool
  | .store (.getUser _ _) => true
  | _ => false

def LooksAt (log : Log) (tenantID userID : String) : Prop :=
  ∀ tenantID' userID', Looked log tenantID' userID' → tenantID' = tenantID ∧ userID' = userID

theorem looksAt_getUser {log0 : Log} {r : Except GoError User} (h : Since [] log0)
    (hsince : Since (log0 ++ [⟨.store (.getUser tenantID userID), r⟩]) log) :
    LooksAt log tenantID userID := by
  intro tenantID' userID' hlooked
  obtain ⟨user, hmem⟩ := hsince.looked hlooked
  rcases List.mem_append.mp hmem with hmem | hmem
  · exact absurd (h.mem hmem rfl) List.not_mem_nil
  · injection List.mem_singleton.mp hmem with hop
    injection hop with hop
    injection hop with htenant huser
    exact ⟨htenant, huser⟩

theorem looksAt_snoc {e : Entry sig GoError} (h : LooksAt log tenantID userID)
    (he : isLook e.op = false) : LooksAt (log ++ [e]) tenantID userID := by
  rintro tenantID' userID' ⟨user, hmem⟩
  rcases List.mem_append.mp hmem with hmem | hmem
  · exact h tenantID' userID' ⟨user, hmem⟩
  · rw [← List.mem_singleton.mp hmem] at he
    cases he

theorem says_keeps {body : Body} {r : Except GoError Unit} (hbody : body.token? = none)
    (h : LooksAt log tenantID userID) : Keeps env request (writeJSON status body)
    (log ++ [⟨.store (.revokeUserSessions tenantID userID), r⟩]) := by
  refine writeJSON_keeps ⟨fun token htoken => ?_, fun _ tenantID' userID' hlooked => ?_⟩
  · exact nomatch hbody.symm.trans htoken
  · obtain ⟨rfl, rfl⟩ := looksAt_snoc h rfl tenantID' userID' hlooked
    exact ⟨r, List.mem_concat_self⟩

theorem handleRevokeUserSessions_keeps (h : Since [] log) :
    Keeps env request (handleRevokeUserSessions targetID caller) log := by
  refine keeps_call trivial fails_keeps (fun user => ?_)
  have hlooks := looksAt_getUser h (Since.refl
    (log ++ [⟨.store (.getUser caller.tenantID targetID), .ok user⟩]))
  exact keeps_call trivial fails_keeps (fun _ => says_keeps rfl hlooks)

theorem revokeAll_keeps {body : Body} (hbody : body.token? = none) (h : LooksAt log tenantID userID) :
    Keeps env request (do tryStmt (.revokeUserSessions tenantID userID); writeJSON status body) log := by
  refine gives_bind (Q := fun log' _ => ∃ r,
    log' = log ++ [⟨.store (.revokeUserSessions tenantID userID), r⟩]) ?_ ?_ (fun _ _ _ => trivial)
  · refine gives_attempt (gives_call trivial) ?_
    rintro _ r ⟨rfl, -⟩
    exact gives_return ⟨r, rfl⟩
  · rintro _ _ ⟨r, rfl⟩
    exact says_keeps hbody h

theorem handleResetPassword_keeps {newPassword : String} (h : Since [] log) :
    Keeps env request (handleResetPassword targetID newPassword caller) log := by
  unfold handleResetPassword
  split_ifs
  · exact writeError_keeps
  · refine keeps_call trivial fails_keeps (fun user => ?_)
    refine keeps_plain (only_perform rfl) fails_keeps (fun log1 hash h1 => ?_)
    refine keeps_plain (plain_stmt rfl) fails_keeps (fun log2 _ h2 => ?_)
    exact revokeAll_keeps rfl (looksAt_getUser h (h1.trans h2))

theorem revokeAfterChange_keeps (hrequest : request.token? = some token)
    (hcaller : ∀ c, token = .signed c → caller.tenantID = c.tenantID)
    (hlooks : LooksAt log caller.tenantID caller.userID) :
    Keeps env request (revokeAfterChange token caller) log := by
  refine gives_attempt verifySessionToken_gives (fun log1 r h1 => ?_)
  have hlooks1 : LooksAt log1 caller.tenantID caller.userID :=
    fun tenantID userID h => hlooks tenantID userID (h1.1.looked h)
  cases r with
  | error e => exact revokeAll_keeps rfl hlooks1
  | ok c =>
    obtain rfl := h1.2 c rfl
    refine gives_bind (Q := fun log' _ => LooksAt log' caller.tenantID caller.userID) ?_
      (fun _ _ h => revokeAll_keeps rfl h) (fun _ _ _ => trivial)
    refine gives_attempt (gives_call ⟨c, hrequest, (hcaller c rfl).symm, rfl⟩) ?_
    rintro _ r ⟨rfl, -⟩
    exact gives_return (looksAt_snoc hlooks1 rfl)

theorem handleChangePassword_keeps {body : Option ChangePasswordRequest} (h : Since [] log)
    (hrequest : request.token? = some token)
    (hcaller : ∀ c, token = .signed c → caller.tenantID = c.tenantID) :
    Keeps env request (handleChangePassword env token body caller) log := by
  unfold handleChangePassword
  split_ifs
  · exact writeError_keeps
  · split
    · exact writeError_keeps
    · refine keeps_call trivial fails_keeps (fun user => ?_)
      dsimp only
      split_ifs
      · exact writeError_keeps
      · refine keeps_plain (only_perform rfl) fails_keeps (fun log1 hash h1 => ?_)
        refine keeps_plain (plain_stmt rfl) fails_keeps (fun log2 _ h2 => ?_)
        exact revokeAfterChange_keeps hrequest hcaller (looksAt_getUser h (h1.trans h2))

theorem handleChangeRole_keeps {role : String} :
    Keeps env request (handleChangeRole targetID role caller) log := by
  unfold handleChangeRole
  split_ifs
  · exact writeError_keeps
  · split
    · exact writeError_keeps
    · split_ifs
      · exact writeError_keeps
      · refine keeps_call trivial fails_keeps (fun user => ?_)
        exact keeps_plain (plain_stmt rfl) fails_keeps (fun _ _ _ => writeJSON_keeps (may_of_plain rfl))

theorem handleCreateUser_keeps {body : Option CreateUserRequest} :
    Keeps env request (handleCreateUser body caller) log := by
  unfold handleCreateUser
  split
  · exact writeError_keeps
  · split
    · exact writeError_keeps
    · split_ifs
      · exact writeError_keeps
      · refine keeps_plain (only_perform rfl) fails_keeps (fun log1 hash _ => ?_)
        refine gives_attempt (gives_plain (plain_stmt rfl)) (fun log2 r _ => ?_)
        split
        · exact writeError_keeps
        · exact writeError_keeps
        · exact writeJSON_keeps (may_of_plain rfl)

theorem handleMFAEnroll_keeps (hcaller : Bears (.mfaEnroll token) caller.tenantID caller.userID) :
    Keeps env (.mfaEnroll token) (handleMFAEnroll caller) log := by
  unfold handleMFAEnroll
  split_ifs
  · exact writeError_keeps
  · refine keeps_plain (only_perform rfl) fails_keeps (fun log1 secret _ => ?_)
    refine keeps_call ⟨hcaller, token, rfl⟩ fails_keeps (fun _ => ?_)
    refine gives_bind (Q := fun _ _ => True) ?_ (fun _ _ _ => ?_) (fun _ _ _ => trivial)
    · exact gives_attempt (gives_call ⟨hcaller, rfl⟩) (fun _ _ _ => gives_return trivial)
    · exact writeJSON_keeps (may_of_plain rfl)

theorem switchMFA_keeps {enabled : Bool} {success : Body} {failure : String} {body : Option String}
    (hsuccess : isPlain (.reply ⟨200, success⟩) = true)
    (hcaller : Bears request caller.tenantID caller.userID) (hrequest : ∀ log code, body = some code →
      Proved env log caller.tenantID caller.userID code →
      Switches env request log caller.tenantID caller.userID enabled) :
    Keeps env request (switchMFA env enabled success failure body caller) log := by
  unfold switchMFA
  split_ifs
  · exact writeError_keeps
  · split
    · exact writeError_keeps
    · rename_i code hbody
      refine keeps_call trivial fails_keeps (fun secret => ?_)
      dsimp only
      split_ifs
      · exact writeError_keeps
      · refine gives_bind (gives_call trivial) ?_ (fun _ _ _ => trivial)
        rintro _ now ⟨rfl, -⟩
        split
        · exact writeError_keeps
        · exact writeError_keeps
        · rename_i hvalid
          have hproved : Proved env (log ++ [⟨.store (.getUserTOTPSecret caller.tenantID caller.userID),
              .ok secret⟩] ++ [⟨.timeNow, .ok now⟩]) caller.tenantID caller.userID code := by
            refine ⟨secret, now, ?_, List.mem_concat_self, hvalid⟩
            exact List.mem_append_left _ (List.mem_concat_self)
          have hcode := (Option.filter_eq_some_iff.mp hbody).1
          exact keeps_call ⟨hcaller, hrequest _ code hcode hproved⟩ fails_keeps
            (fun _ => writeJSON_keeps (may_of_plain hsuccess))

theorem newBackupCodes_plain {n : Nat} : Only plain (newBackupCodes n) := by
  induction n with
  | zero => trivial
  | succ n ih => exact only_bind (only_perform rfl) (fun _ => only_bind ih (fun _ => only_return _))

theorem handleMFABackupCodes_keeps : Keeps env request (handleMFABackupCodes env caller) log := by
  unfold handleMFABackupCodes
  split_ifs
  · exact writeError_keeps
  · refine keeps_plain newBackupCodes_plain fails_keeps (fun log1 codes _ => ?_)
    exact keeps_plain (plain_stmt rfl) fails_keeps (fun _ _ _ => writeJSON_keeps (may_of_plain rfl))

theorem serve_keeps (request : Request) : Keeps env request (serve env request) [] := by
  cases request with
  | login ip body => exact handleLogin_keeps
  | oidcLogin body => exact handleOIDCLogin_keeps
  | logout token => exact handleLogout_keeps rfl
  | refresh token => exact handleRefresh_keeps
  | changePassword token body =>
    refine requireUser_keeps (fun log c h htoken => handleChangePassword_keeps h rfl (fun c' hc' => ?_))
    cases htoken.symm.trans hc'
    rfl
  | createUser credentials body => exact requireRole_keeps (fun _ _ _ => handleCreateUser_keeps)
  | resetPassword credentials targetID newPassword =>
      exact requireRole_keeps (fun _ _ h => handleResetPassword_keeps h)
  | changeRole credentials targetID role => exact requireRole_keeps (fun _ _ _ => handleChangeRole_keeps)
  | revokeUserSessions credentials targetID =>
      exact requireRole_keeps (fun _ _ h => handleRevokeUserSessions_keeps h)
  | mfaEnroll token =>
    exact requireUser_keeps (fun _ c _ htoken => handleMFAEnroll_keeps ⟨c, congrArg some htoken, rfl, rfl⟩)
  | mfaConfirm token body =>
    exact requireUser_keeps (fun _ c _ htoken => switchMFA_keeps rfl ⟨c, congrArg some htoken, rfl, rfl⟩
      (fun _ code hbody hproved => ⟨rfl, code, hbody, hproved⟩))
  | mfaDisable token body =>
    exact requireUser_keeps (fun _ c _ htoken => switchMFA_keeps rfl ⟨c, congrArg some htoken, rfl, rfl⟩
      (fun _ code hbody hproved => ⟨rfl, code, hbody, hproved⟩))
  | mfaBackupCodes token => exact requireUser_keeps (fun _ _ _ _ => handleMFABackupCodes_keeps)

end Gives

/-- **Run lemma**: requests side by side make their calls as `may` says. -/
theorem run_safe {env : Env} {s : State} {acts : List (Act Request Move)} {c : Server}
    {ok : Server → Act Request Move → Prop} (h : Transition.Run (Pool.step (system env)) ok ⟨[], s⟩ acts c) :
    Pool.Safe (Rely.free (State.handle env)) (promise env) c :=
  Pool.safe_run rfl (fun s request _ _ => serve_keeps request s) (fun _ _ _ _ _ => ⟨trivial, trivial⟩)
    (Pool.permits_of_run h) (Pool.safe_nil trivial)

/-! ## What the logs say -/

theorem grounds_mono {request : Request} {log' : Log} {x : Session} (hsub : log ⊆ log')
    (h : Grounds request log x) : Grounds request log' x := by
  cases request with
  | login ip body =>
    obtain ⟨user, hfound, hfields⟩ := h
    exact ⟨user, found_mono hsub hfound, hfields⟩
  | oidcLogin body =>
    obtain ⟨user, hfound, hfields⟩ := h
    exact ⟨user, found_mono hsub hfound, hfields⟩
  | refresh token =>
    obtain ⟨c, htoken, hrevoked, hfields⟩ := h
    exact ⟨c, htoken, hsub hrevoked, hfields⟩
  | _ => cases h

section Logs

variable {env : Env} {c : Server} {t : Thread} {x : Session}

section

variable (hc : Pool.Safe (Rely.free (State.handle env)) (promise env) c) (ht : t ∈ c.threads)
include hc ht

theorem may_of_mem {pre post : Log} {e : Entry sig GoError} (hlog : t.log = pre ++ e :: post) :
    may env t.task pre e.op := by
  obtain ⟨_, _, hmay, _⟩ := hc.made t ht pre e post hlog
  exact hmay

theorem of_created (h : Created t.log x) : x.revokedAt = none ∧ Grounds t.task t.log x := by
  obtain ⟨pre, post, hlog⟩ := List.append_of_mem h
  obtain ⟨-, hnone, hgrounds, -⟩ := may_of_mem hc ht hlog
  rw [hlog]
  exact ⟨hnone, grounds_mono (List.subset_append_left _ _) hgrounds⟩

/-- **A token that a reply hands out** is signed for a session that the same request created. -/
theorem handed_genuine {r : Reply} {token : Token} (h : (⟨.reply r, .ok ()⟩ : Entry sig GoError) ∈ t.log)
    (htoken : r.body.token? = some token) : Handed t.log token := by
  obtain ⟨pre, post, hlog⟩ := List.append_of_mem h
  obtain ⟨x, exp, hcreated, rfl⟩ := (may_of_mem hc ht hlog).1 token htoken
  exact ⟨x, exp, by rw [hlog]; exact List.mem_append_left _ hcreated, rfl⟩

theorem create_unique {e e' : Entry sig GoError} (he : e ∈ t.log) (he' : e' ∈ t.log)
    (hcreate : isCreate e.op = true) (hcreate' : isCreate e'.op = true) : e = e' := by
  -- whichever comes second found no attempt before it
  have second : ∀ {f : Entry sig GoError} {pre post : Log}, t.log = pre ++ f :: post → isCreate f.op = true →
    NoCreate pre := by
    intro f pre post hlog hf
    have hmay := may_of_mem hc ht hlog
    unfold isCreate at hf
    split at hf
    · rename_i x hop
      rw [hop] at hmay
      exact hmay.1
    · cases hf
  obtain ⟨pre, post, hlog⟩ := List.append_of_mem he
  rw [hlog] at he'
  rcases List.mem_append.mp he' with hmem | hmem
  · exact absurd (second hlog hcreate e' hmem) (by rw [hcreate']; nofun)
  · rcases List.mem_cons.mp hmem with rfl | hmem
    · rfl
    · obtain ⟨pre', post', rfl⟩ := List.append_of_mem hmem
      have hlog' : t.log = (pre ++ e :: pre') ++ e' :: post' := by
        rw [hlog, List.append_assoc, List.cons_append]
      have hno := second hlog' hcreate' e (List.mem_append_right _ (.head _))
      exact absurd hno (by rw [hcreate]; nofun)

theorem created_unique {y : Session} (hx : Created t.log x) (hy : Created t.log y) : x = y := by
  have h := create_unique hc ht hx hy rfl rfl
  injection h with hop
  injection hop with hop
  injection hop

end

end Logs

end SyncForge.Auth
