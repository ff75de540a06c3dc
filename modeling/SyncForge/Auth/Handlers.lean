import SyncForge.Auth.Store

/-!
# `Auth.Handlers` — logging in and out, passwords, roles, the second factor

`internal/api/{sessions,users,oidc,mfa}.go` and the middleware of `internal/api/auth.go`. A handler is a
program over the calls of `Auth.Store` whose last call is its response. A request body that is not JSON is no
body; a missing field is the empty string.
-/

namespace SyncForge.Auth

open Effect
open Effect.Prog (attempt ofExcept perform)

def stmt (o : Stmt) : Http o.Res := perform (S := sig) (.store o)

def tryStmt (o : Stmt) : Http Unit := do
  let _ ← attempt (stmt o)
  pure ()

def timeNow : Http Time := perform (S := sig) .timeNow

def writeJSON (status : Nat) (body : Body) : Http Unit := perform (S := sig) (.reply ⟨status, body⟩)

def writeError (status : Nat) (message : String) : Http Unit := writeJSON status (.error message)

/-! ## Sessions -/

def sessionTTL : Duration := 43200000000000

def unix (t : Time) : Int := t / 1000000000

def mintSessionToken (c : Claims) : Http Token := do
  let now ← timeNow
  pure (.signed { c with exp := unix (now + sessionTTL) })

def getLiveSession (tenantID jti : String) : Http Session := do
  let x ← stmt (.getSession tenantID jti)
  if x.revokedAt.isSome then .throw .notFound
  else do
    let now ← timeNow
    if x.expiresAt < now then .throw .notFound else pure x

/-- `verifySessionToken`. No caller reads its errors. -/
def verifySessionToken (token : Token) : Http Claims :=
  match token with
  | .other _ => .throw (.plain "invalid token signature")
  | .signed c =>
    if c.jti = "" ∨ c.userID = "" ∨ c.tenantID = "" then .throw (.plain "incomplete token claims")
    else do
      let now ← timeNow
      if c.exp < unix now then .throw (.plain "token expired")
      else
        match ← attempt (getLiveSession c.tenantID c.jti) with
        | .error _ => .throw (.plain "session revoked or expired")
        | .ok _ => pure c

/-- `CreateSession` with a new id, and the token for it; nothing when the row could not be stored. -/
def openSession (userID tenantID : String) (role : Role) : Http (Option Token) := do
  let jti ← perform (S := sig) .newUUID
  let now ← timeNow
  match ← attempt (stmt (.createSession { jti, userID, tenantID, role, expiresAt := now + sessionTTL })) with
  | .error _ => pure none
  | .ok x => do
    let token ← mintSessionToken { jti := x.jti, userID, tenantID, role, exp := 0 }
    pure (some token)

structure LoginRequest where
  tenantSlug : String
  email : String
  password : String
  code : String := ""
deriving DecidableEq, Repr

/-- `loginThrottled`: without a counter the request goes through. -/
def loginThrottled (env : Env) (ip : String) : Http Bool :=
  if env.config.loginThrottlePerMin ≤ 0 ∨ env.config.cache = false then pure false
  else do
    match ← attempt (perform (S := sig) (.incr ("login:throttle:" ++ ip))) with
    | .error _ => pure false
    | .ok n => do
      if n = 1 then do
        let _ ← attempt (perform (S := sig) (.expire ("login:throttle:" ++ ip) 60000000000))
        pure (decide (env.config.loginThrottlePerMin < n))
      else pure (decide (env.config.loginThrottlePerMin < n))

def loginFailure (ip tenantID email : String) : Http Unit :=
  if tenantID = "" then pure () else tryStmt (.recordLoginAttempt tenantID email ip false)

def locked (env : Env) (failures : Except GoError Int) : Bool :=
  match failures with
  | .ok n => env.config.loginMaxFailures ≤ n
  | .error _ => false

def secondFactor (env : Env) (user : User) (code : String) : Http (Option String) :=
  if user.totpEnabled = false then pure none
  else if code = "" then pure (some "mfa code required")
  else do
    let now ← timeNow
    match env.totpValidate user.totpSecret code now with
    | .ok true => pure none
    | _ => do
      match ← attempt (stmt (.consumeBackupCode user.tenantID user.id (env.backupCodeHash code))) with
      | .ok true => pure none
      | _ => pure (some "invalid mfa code")

def startSession (user : User) : Http Unit := do
  match ← openSession user.id user.tenantID user.role with
  | none => writeError 500 "failed to issue session"
  | some token => writeJSON 200 (.login token (sessionTTL / 1000000000) user.id user.email user.role)

def handleLogin (env : Env) (ip : String) (body : Option LoginRequest) : Http Unit :=
  match body.filter (fun req => req.tenantSlug ≠ "" ∧ req.email ≠ "" ∧ req.password ≠ "") with
  | none => writeError 400 "tenant_slug, email and password are required"
  | some req => do
    if ← loginThrottled env ip then writeError 429 "too many login attempts, try again later"
    else
      match ← attempt (stmt (.getTenantBySlug req.tenantSlug)) with
      | .error _ => do
        loginFailure ip "" req.email
        writeError 401 "invalid credentials"
      | .ok tenant => do
        let failures ← attempt (stmt (.countRecentFailures tenant.id req.email (env.config.loginLockoutMin * 60000000000)))
        if locked env failures then writeError 429 "account temporarily locked after too many failed attempts"
        else
          match ← attempt (stmt (.getUserByEmail tenant.id req.email)) with
          | .error _ => do
            loginFailure ip tenant.id req.email
            writeError 401 "invalid credentials"
          | .ok user =>
            if env.compareHashAndPassword user.passwordHash req.password = false then do
              loginFailure ip tenant.id req.email
              writeError 401 "invalid credentials"
            else do
              match ← secondFactor env user req.code with
              | some message => do
                loginFailure ip tenant.id req.email
                writeError 401 message
              | none => do
                tryStmt (.clearLoginFailures user.tenantID req.email)
                startSession user

def handleLogout (token : Token) : Http Unit := do
  match ← attempt (verifySessionToken token) with
  | .error _ => writeJSON 200 .loggedOut   -- the token is no longer good for anything
  | .ok c => do
    match ← attempt (stmt (.revokeSession c.tenantID c.jti)) with
    | .error _ => writeError 500 "failed to log out"
    | .ok _ => writeJSON 200 .loggedOut

def handleRefresh (token : Token) : Http Unit := do
  match ← attempt (verifySessionToken token) with
  | .error _ => writeError 401 "invalid or expired session token"
  | .ok c => do
    match ← attempt (stmt (.revokeSession c.tenantID c.jti)) with
    | .error _ => writeError 500 "failed to refresh session"
    | .ok _ => do
      match ← openSession c.userID c.tenantID c.role with
      | none => writeError 500 "failed to refresh session"
      | some token => writeJSON 200 (.refreshed token (sessionTTL / 1000000000))

/-! ## Who is calling -/

structure Caller where
  tenantID : String
  role : Role
  userID : String := ""
deriving DecidableEq, Repr

structure Credentials where
  bearer : Token := .other ""
  apiKey : String := ""
deriving DecidableEq, Repr

def requireUser (token : Token) (next : Caller → Http Unit) : Http Unit :=
  if token = .other "" then writeError 401 "missing bearer token"
  else do
    match ← attempt (verifySessionToken token) with
    | .error _ => writeError 401 "invalid or expired session token"
    | .ok c => next ⟨c.tenantID, c.role, c.userID⟩

/-- `requireAPIKey`, when there is no bearer token. -/
def requireAPIKey (env : Env) (key : String) (next : Caller → Http Unit) : Http Unit :=
  if key = "" then writeError 401 "missing api key"
  else do
    match ← attempt (stmt (.verifyAPIKey (env.hashAPIKey key))) with
    | .error .notFound => writeError 401 "invalid api key"
    | .error _ => writeError 500 "auth backend error"
    | .ok k => next ⟨k.tenantID, k.role, ""⟩

def authenticate (env : Env) (credentials : Credentials) (next : Caller → Http Unit) : Http Unit :=
  if credentials.bearer = .other "" then requireAPIKey env credentials.apiKey next
  else requireUser credentials.bearer next

def requireRole (env : Env) (minRole : Role) (credentials : Credentials) (next : Caller → Http Unit) :
    Http Unit :=
  authenticate env credentials (fun caller =>
    if caller.role.rank < minRole.rank then writeError 403 "insufficient role" else next caller)

/-! ## Accounts -/

def handleRevokeUserSessions (targetID : String) (caller : Caller) : Http Unit := do
  match ← attempt (stmt (.getUser caller.tenantID targetID)) with
  | .error _ => writeError 404 "user not found"
  | .ok _ => do
    match ← attempt (stmt (.revokeUserSessions caller.tenantID targetID)) with
    | .error _ => writeError 500 "failed to revoke sessions"
    | .ok _ => writeJSON 200 (.sessionsRevoked targetID)

structure CreateUserRequest where
  email : String
  password : String
  role : String
deriving DecidableEq, Repr

def handleCreateUser (body : Option CreateUserRequest) (caller : Caller) : Http Unit :=
  match body.filter (fun req => req.email ≠ "" ∧ req.password ≠ "") with
  | none => writeError 400 "email and password are required"
  | some req =>
    match Role.ofString? req.role with
    | none => writeError 400 "role must be ADMIN, OPERATOR, DEVELOPER, or VIEWER"
    | some role =>
      if caller.role.rank < role.rank then writeError 403 "cannot create a user above your own role"
      else do
        match ← attempt (perform (S := sig) (.generate req.password)) with
        | .error _ => writeError 500 "failed to create user"
        | .ok hash => do
          match ← attempt (stmt (.createUser caller.tenantID req.email hash role)) with
          | .error _ => writeError 500 "failed to create user"
          | .ok none => writeError 409 "user already exists"
          | .ok (some user) => writeJSON 201 (.userCreated user)

structure ChangePasswordRequest where
  currentPassword : String
  newPassword : String
deriving DecidableEq, Repr

/-- The end of `handleChangePassword`: the current session is revoked, then all others. -/
def revokeAfterChange (token : Token) (caller : Caller) : Http Unit := do
  match ← attempt (verifySessionToken token) with
  | .ok c => do
    tryStmt (.revokeSession caller.tenantID c.jti)
    tryStmt (.revokeUserSessions caller.tenantID caller.userID)
    writeJSON 200 .passwordChanged
  | .error _ => do
    tryStmt (.revokeUserSessions caller.tenantID caller.userID)
    writeJSON 200 .passwordChanged

def handleChangePassword (env : Env) (token : Token) (body : Option ChangePasswordRequest) (caller : Caller) :
    Http Unit :=
  if caller.userID = "" then writeError 401 "user session required"
  else
    match body.filter (fun req => req.currentPassword ≠ "" ∧ req.newPassword ≠ "") with
    | none => writeError 400 "current_password and new_password are required"
    | some req => do
      match ← attempt (stmt (.getUser caller.tenantID caller.userID)) with
      | .error _ => writeError 404 "user not found"
      | .ok user =>
        if env.compareHashAndPassword user.passwordHash req.currentPassword = false then
          writeError 401 "current password is incorrect"
        else do
          match ← attempt (perform (S := sig) (.generate req.newPassword)) with
          | .error _ => writeError 500 "failed to change password"
          | .ok hash => do
            match ← attempt (stmt (.setUserPassword caller.tenantID caller.userID hash)) with
            | .error _ => writeError 500 "failed to change password"
            | .ok _ => revokeAfterChange token caller

def handleResetPassword (targetID newPassword : String) (caller : Caller) : Http Unit :=
  if newPassword = "" then writeError 400 "new_password is required"
  else do
    match ← attempt (stmt (.getUser caller.tenantID targetID)) with
    | .error _ => writeError 404 "user not found"
    | .ok _ => do
      match ← attempt (perform (S := sig) (.generate newPassword)) with
      | .error _ => writeError 500 "failed to reset password"
      | .ok hash => do
        match ← attempt (stmt (.setUserPassword caller.tenantID targetID hash)) with
        | .error _ => writeError 500 "failed to reset password"
        | .ok _ => do
          tryStmt (.revokeUserSessions caller.tenantID targetID)
          writeJSON 200 .passwordReset

/-- `handleChangeRole`. The sessions of the user are left as they are. -/
def handleChangeRole (targetID role : String) (caller : Caller) : Http Unit :=
  if role = "" then writeError 400 "role is required"
  else
    match Role.ofString? role with
    | none => writeError 400 "role must be ADMIN, OPERATOR, DEVELOPER, or VIEWER"
    | some role =>
      if caller.role.rank < role.rank then writeError 403 "cannot grant a role above your own"
      else do
        match ← attempt (stmt (.getUser caller.tenantID targetID)) with
        | .error _ => writeError 404 "user not found"
        | .ok _ => do
          match ← attempt (stmt (.setUserRole caller.tenantID targetID role)) with
          | .error _ => writeError 500 "failed to change role"
          | .ok _ => writeJSON 200 (.roleChanged targetID role)

/-! ## The second factor -/

def totpURI (issuer account secret : String) : String :=
  "otpauth://totp/" ++ issuer ++ ":" ++ account ++ "?secret=" ++ secret ++ "&issuer=" ++ issuer ++
    "&algorithm=SHA1&digits=6&period=30"

/-- `handleMFAEnroll`. The second factor is off until the new secret is confirmed. -/
def handleMFAEnroll (caller : Caller) : Http Unit :=
  if caller.userID = "" then writeError 401 "user session required"
  else do
    match ← attempt (perform (S := sig) .newSecret) with
    | .error _ => writeError 500 "failed to enroll mfa"
    | .ok secret => do
      match ← attempt (stmt (.setTOTPSecret caller.tenantID caller.userID secret)) with
      | .error _ => writeError 500 "failed to enroll mfa"
      | .ok _ => do
        tryStmt (.setTOTPEnabled caller.tenantID caller.userID false)
        writeJSON 200 (.mfaEnrolled secret (totpURI "SyncForge" ("user:" ++ caller.userID) secret))

/-- `handleMFAConfirm` and `handleMFADisable`: a code for the stored secret switches the second factor. -/
def switchMFA (env : Env) (enabled : Bool) (success : Body) (failure : String) (body : Option String)
    (caller : Caller) : Http Unit :=
  if caller.userID = "" then writeError 401 "user session required"
  else
    match body.filter (· ≠ "") with
    | none => writeError 400 "code is required"
    | some code => do
      match ← attempt (stmt (.getUserTOTPSecret caller.tenantID caller.userID)) with
      | .error _ => writeError 400 "mfa not enrolled"
      | .ok secret =>
        if secret = "" then writeError 400 "mfa not enrolled"
        else do
          let now ← timeNow
          match env.totpValidate secret code now with
          | .error _ => writeError 500 failure
          | .ok false => writeError 401 "invalid code"
          | .ok true => do
            match ← attempt (stmt (.setTOTPEnabled caller.tenantID caller.userID enabled)) with
            | .error _ => writeError 500 failure
            | .ok _ => writeJSON 200 success

def handleMFAConfirm (env : Env) : Option String → Caller → Http Unit :=
  switchMFA env true .mfaConfirmed "failed to confirm mfa"

def handleMFADisable (env : Env) : Option String → Caller → Http Unit :=
  switchMFA env false .mfaDisabled "failed to disable mfa"

def backupCodeCount : Nat := 10

/-- `newBackupCodes`: the raw codes. -/
def newBackupCodes : Nat → Http (List String)
  | 0 => pure []
  | n + 1 => do
    let code ← perform (S := sig) .newBackupCode
    let codes ← newBackupCodes n
    pure (code :: codes)

def handleMFABackupCodes (env : Env) (caller : Caller) : Http Unit :=
  if caller.userID = "" then writeError 401 "user session required"
  else do
    match ← attempt (newBackupCodes backupCodeCount) with
    | .error _ => writeError 500 "failed to generate backup codes"
    | .ok codes => do
      match ← attempt (stmt (.setBackupCodes caller.tenantID caller.userID (codes.map env.backupCodeHash))) with
      | .error _ => writeError 500 "failed to generate backup codes"
      | .ok _ => writeJSON 200 (.backupCodes codes)

/-! ## Single sign-on -/

structure OIDCLoginRequest where
  tenantSlug : String
  idToken : String
deriving DecidableEq, Repr

def resolveIdentity (env : Env) (tenantID : String) (claims : IDClaims) : Http (User ⊕ Reply) := do
  match ← attempt (stmt (.getUserByEmail tenantID claims.email)) with
  | .ok user => pure (.inl user)
  | .error .notFound =>
    if env.config.oidcAutoProvision = false then pure (.inr ⟨401, .error "no SyncForge account for this identity"⟩)
    else do
      let password ← perform (S := sig) .newUUID
      match ← attempt (perform (S := sig) (.generate ("oidc:" ++ password))) with
      | .error _ => pure (.inr ⟨500, .error "failed to provision account"⟩)
      | .ok hash => do
        match ← attempt (stmt (.createUser tenantID claims.email hash .viewer)) with
        | .ok (some user) => pure (.inl user)
        | _ => pure (.inr ⟨500, .error "failed to provision account"⟩)
  | .error _ => pure (.inr ⟨500, .error "auth backend error"⟩)

def handleOIDCLogin (env : Env) (body : Option OIDCLoginRequest) : Http Unit :=
  if env.config.oidc = false then writeError 501 "oidc login not configured"
  else
    match body.filter (fun req => req.tenantSlug ≠ "" ∧ req.idToken ≠ "") with
    | none => writeError 400 "tenant_slug and id_token are required"
    | some req => do
      match ← attempt (stmt (.getTenantBySlug req.tenantSlug)) with
      | .error _ => writeError 401 "invalid credentials"
      | .ok tenant => do
        match ← attempt (perform (S := sig) .discover) with
        | .error _ => writeError 502 "identity provider unavailable"
        | .ok _ => do
          match ← attempt (perform (S := sig) (.verifyIDToken req.idToken)) with
          | .error _ => writeError 401 "invalid id token"
          | .ok claims => do
            match ← resolveIdentity env tenant.id claims with
            | .inr r => writeJSON r.status r.body
            | .inl user => startSession user

/-! ## The routes -/

inductive Request where
  | login (ip : String) (body : Option LoginRequest)
  | oidcLogin (body : Option OIDCLoginRequest)
  | logout (token : Token)
  | refresh (token : Token)
  | changePassword (token : Token) (body : Option ChangePasswordRequest)
  | createUser (credentials : Credentials) (body : Option CreateUserRequest)
  | resetPassword (credentials : Credentials) (targetID newPassword : String)
  | changeRole (credentials : Credentials) (targetID role : String)
  | revokeUserSessions (credentials : Credentials) (targetID : String)
  | mfaEnroll (token : Token)
  | mfaConfirm (token : Token) (body : Option String)
  | mfaDisable (token : Token) (body : Option String)
  | mfaBackupCodes (token : Token)
deriving DecidableEq, Repr

def serve (env : Env) : Request → Http Unit
  | .login ip body => handleLogin env ip body
  | .oidcLogin body => handleOIDCLogin env body
  | .logout token => handleLogout token
  | .refresh token => handleRefresh token
  | .changePassword token body => requireUser token (handleChangePassword env token body)
  | .createUser credentials body => requireRole env .admin credentials (handleCreateUser body)
  | .resetPassword credentials targetID newPassword =>
      requireRole env .admin credentials (handleResetPassword targetID newPassword)
  | .changeRole credentials targetID role =>
      requireRole env .admin credentials (handleChangeRole targetID role)
  | .revokeUserSessions credentials targetID =>
      requireRole env .admin credentials (handleRevokeUserSessions targetID)
  | .mfaEnroll token => requireUser token handleMFAEnroll
  | .mfaConfirm token body => requireUser token (handleMFAConfirm env body)
  | .mfaDisable token body => requireUser token (handleMFADisable env body)
  | .mfaBackupCodes token => requireUser token (handleMFABackupCodes env)

end SyncForge.Auth
