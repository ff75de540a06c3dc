import SyncForge.Effect.Prog
import SyncForge.Store.Database

/-!
# `Auth.Store` — users, sessions, and the calls of the account requests

The tables behind `internal/store/{users,sessions,loginattempts,keys}.go` with their statements, and
everything else an account request touches. As in `World`, tapes say what fails. A session token is its claims
under a signature that cannot be forged. `audit_log` is never read here, and is left out.
-/

namespace SyncForge.Auth

open Effect

/-! ## Rows -/

/-- The roles of `roleRank`. -/
inductive Role where
  | viewer | developer | operator | admin
deriving DecidableEq, Repr

namespace Role

def rank : Role → Nat
  | .viewer => 0
  | .developer => 1
  | .operator => 2
  | .admin => 3

/-- The keys of `roleRank`. -/
def ofString? : String → Option Role
  | "VIEWER" => some .viewer
  | "DEVELOPER" => some .developer
  | "OPERATOR" => some .operator
  | "ADMIN" => some .admin
  | _ => none

end Role

/-- A row of `users`. -/
structure User where
  id : String
  tenantID : String
  email : String
  passwordHash : String
  role : Role
  totpSecret : String := ""
  totpEnabled : Bool := false
  backupCodes : List String := []
deriving DecidableEq, Repr

/-- A row of `sessions`. -/
structure Session where
  jti : String
  userID : String
  tenantID : String
  role : Role
  expiresAt : Time
  revokedAt : Option Time := none
deriving DecidableEq, Repr

/-- A row of `login_attempts`. -/
structure LoginAttempt where
  tenantID : String
  email : String
  ip : String
  success : Bool
  attemptedAt : Time
deriving DecidableEq, Repr

/-- A row of `api_keys`. -/
structure APIKey where
  keyHash : String
  tenantID : String
  role : Role
  enabled : Bool := true
deriving DecidableEq, Repr

/-! ## Tokens and responses -/

/-- `sessionClaims`; `exp` is in seconds. -/
structure Claims where
  jti : String
  userID : String
  tenantID : String
  role : Role
  exp : Int
deriving DecidableEq, Repr

/-- What stands after `Bearer`: claims the server signed, or any other text. -/
inductive Token where
  | signed (claims : Claims)
  | other (text : String)
deriving DecidableEq, Repr

structure IDClaims where
  sub : String
  email : String
deriving DecidableEq, Repr

/-- The JSON bodies; `token_type` is always `Bearer`. -/
inductive Body where
  | error (message : String)
  | login (token : Token) (expiresIn : Int) (userID email : String) (role : Role)
  | refreshed (token : Token) (expiresIn : Int)
  | loggedOut
  | userCreated (user : User)
  | passwordChanged
  | passwordReset
  | roleChanged (id : String) (role : Role)
  | sessionsRevoked (id : String)
  | mfaEnrolled (secret otpauth : String)
  | mfaConfirmed
  | mfaDisabled
  | backupCodes (codes : List String)
deriving DecidableEq, Repr

structure Reply where
  status : Nat
  body : Body
deriving DecidableEq, Repr

def Body.token? : Body → Option Token
  | .login token _ _ _ _ | .refreshed token _ => some token
  | _ => none

/-! ## Calls -/

/-- The statements. `createUser` answers nothing when the e-mail is taken (`ErrExists`). -/
inductive Stmt where
  | getTenantBySlug (slug : String)
  | verifyAPIKey (keyHash : String)
  | countRecentFailures (tenantID email : String) (window : Duration)
  | recordLoginAttempt (tenantID email ip : String) (success : Bool)
  | clearLoginFailures (tenantID email : String)
  | getUserByEmail (tenantID email : String)
  | getUser (tenantID userID : String)
  | createUser (tenantID email passwordHash : String) (role : Role)
  | setUserPassword (tenantID userID passwordHash : String)
  | setUserRole (tenantID userID : String) (role : Role)
  | getUserTOTPSecret (tenantID userID : String)
  | setTOTPSecret (tenantID userID secret : String)
  | setTOTPEnabled (tenantID userID : String) (enabled : Bool)
  | setBackupCodes (tenantID userID : String) (hashes : List String)
  | consumeBackupCode (tenantID userID hash : String)
  | createSession (s : Session)
  | getSession (tenantID jti : String)
  | revokeSession (tenantID jti : String)
  | revokeUserSessions (tenantID userID : String)

@[reducible] def Stmt.Res : Stmt → Type
  | .getTenantBySlug _ => Tenant
  | .verifyAPIKey _ => APIKey
  | .countRecentFailures _ _ _ => Int
  | .recordLoginAttempt _ _ _ _ => Unit
  | .clearLoginFailures _ _ => Unit
  | .getUserByEmail _ _ => User
  | .getUser _ _ => User
  | .createUser _ _ _ _ => Option User
  | .setUserPassword _ _ _ => Unit
  | .setUserRole _ _ _ => Unit
  | .getUserTOTPSecret _ _ => String
  | .setTOTPSecret _ _ _ => Unit
  | .setTOTPEnabled _ _ _ => Unit
  | .setBackupCodes _ _ _ => Unit
  | .consumeBackupCode _ _ _ => Bool
  | .createSession _ => Session
  | .getSession _ _ => Session
  | .revokeSession _ _ => Unit
  | .revokeUserSessions _ _ => Unit

/-- A statement, `time.Now`, `uuid.NewString`, `bcrypt.GenerateFromPassword`, `totp.NewSecret`, one random
    backup code, Redis `INCR` and `EXPIRE`, the identity provider's discovery and its verdict on an ID token,
    and the response. -/
inductive Call where
  | store (o : Stmt)
  | timeNow
  | newUUID
  | generate (password : String)
  | newSecret
  | newBackupCode
  | incr (key : String)
  | expire (key : String) (ttl : Duration)
  | discover
  | verifyIDToken (token : String)
  | reply (r : Reply)

@[reducible] def Call.Res : Call → Type
  | .store o => o.Res
  | .timeNow => Time
  | .newUUID => String
  | .generate _ => String
  | .newSecret => String
  | .newBackupCode => String
  | .incr _ => Int
  | .expire _ _ => Unit
  | .discover => Unit
  | .verifyIDToken _ => IDClaims
  | .reply _ => Unit

@[reducible] def sig : Sig := ⟨Call, Call.Res⟩

abbrev Http := Prog sig GoError

/-! ## The state -/

structure Config where
  loginMaxFailures : Int := 5
  loginLockoutMin : Int := 15
  loginThrottlePerMin : Int := 30
  /-- Is there a Redis? -/
  cache : Bool := true
  /-- Are an issuer and a client id configured? -/
  oidc : Bool := false
  oidcAutoProvision : Bool := false
deriving DecidableEq, Repr

/-- What stays fixed: the UUIDs, which never repeat, bcrypt (with its salts numbered), TOTP, the random
    secrets and backup codes (numbered too), the hashes of backup codes and API keys, the identity provider,
    and the configuration. -/
structure Env where
  uuid : Nat → String
  uuid_injective : Function.Injective uuid
  compareHashAndPassword : (hash password : String) → Bool
  generateFromPassword : (password : String) → Nat → Except GoError String
  totpValidate : (secret code : String) → Time → Except GoError Bool
  newSecret : Nat → Except GoError String
  newBackupCode : Nat → Except GoError String
  backupCodeHash : String → String
  hashAPIKey : String → String
  discover : Nat → Except GoError Unit
  verifyIDToken : String → Time → Except GoError IDClaims
  config : Config := {}

structure Counter where
  count : Int
  expiresAt : Option Time := none
deriving DecidableEq, Repr

structure State where
  tenants : List Tenant := []
  apiKeys : List APIKey := []
  users : List User := []
  sessions : List Session := []
  attempts : List LoginAttempt := []
  counters : String → Option Counter := fun _ => none
  now : Time := 0
  /-- How many UUIDs, salts, secrets and backup codes were made. -/
  made : Nat := 0
  /-- Call number `n`, if it is a statement or a counter operation: fails with this text. -/
  tape : Nat → Option String := fun _ => none
  calls : Nat := 0

namespace State

variable (s : State)

def called : State := { s with calls := s.calls + 1 }

def isUser (tenantID userID : String) (u : User) : Bool := u.id = userID ∧ u.tenantID = tenantID

def isSession (tenantID jti : String) (x : Session) : Bool := x.jti = jti ∧ x.tenantID = tenantID

def isFailure (tenantID email : String) (a : LoginAttempt) : Bool :=
  a.tenantID = tenantID ∧ a.email = email ∧ a.success = false

/-- `UPDATE … WHERE`: the rows that match are changed; `ErrNotFound` when there is none. -/
def updated {α : Type} (rows : List α) (p : α → Bool) : Except GoError Unit :=
  if rows.any p then .ok () else .error .notFound

def revoke (p : Session → Bool) : List Session :=
  s.sessions.map (fun x => if p x ∧ x.revokedAt = none then { x with revokedAt := some s.now } else x)

def exec : (o : Stmt) → State → Except GoError o.Res × State
  | .getTenantBySlug slug, s => (Database.rowOrNotFound (s.tenants.find? (fun t => t.slug = slug)), s)
  | .verifyAPIKey keyHash, s =>
    (Database.rowOrNotFound (s.apiKeys.find? (fun k => k.keyHash = keyHash ∧ k.enabled = true)), s)
  | .countRecentFailures tenantID email window, s =>
    (.ok ((s.attempts.filter (fun a => isFailure tenantID email a ∧
      s.now - window < a.attemptedAt)).length : Int), s)
  | .recordLoginAttempt tenantID email ip success, s =>
    (.ok (), { s with attempts := s.attempts ++ [⟨tenantID, email, ip, success, s.now⟩] })
  | .clearLoginFailures tenantID email, s =>
    (.ok (), { s with attempts := s.attempts.filter (fun a => ¬ isFailure tenantID email a) })
  | .getUserByEmail tenantID email, s =>
    (Database.rowOrNotFound (s.users.find? (fun u => u.tenantID = tenantID ∧ u.email = email)), s)
  | .getUser tenantID userID, s => (Database.rowOrNotFound (s.users.find? (isUser tenantID userID)), s)
  | .createUser tenantID email passwordHash role, s =>
    if s.users.any (fun u => u.tenantID = tenantID ∧ u.email = email) then (.ok none, s)
    else
      let user : User := { id := Database.newID (s.users.map User.id), tenantID, email, passwordHash, role }
      (.ok (some user), { s with users := s.users ++ [user] })
  | .setUserPassword tenantID userID passwordHash, s =>
    (updated s.users (isUser tenantID userID),
      { s with users := s.users.map (fun u => if isUser tenantID userID u then { u with passwordHash } else u) })
  | .setUserRole tenantID userID role, s =>
    (updated s.users (isUser tenantID userID),
      { s with users := s.users.map (fun u => if isUser tenantID userID u then { u with role } else u) })
  | .getUserTOTPSecret tenantID userID, s =>
    ((Database.rowOrNotFound (s.users.find? (isUser tenantID userID))).map User.totpSecret, s)
  | .setTOTPSecret tenantID userID secret, s =>
    (updated s.users (isUser tenantID userID),
      { s with users := s.users.map (fun u => if isUser tenantID userID u then { u with totpSecret := secret } else u) })
  | .setTOTPEnabled tenantID userID enabled, s =>
    (updated s.users (isUser tenantID userID),
      { s with users := s.users.map (fun u => if isUser tenantID userID u then { u with totpEnabled := enabled } else u) })
  | .setBackupCodes tenantID userID hashes, s =>
    (updated s.users (isUser tenantID userID),
      { s with users := s.users.map (fun u => if isUser tenantID userID u then { u with backupCodes := hashes } else u) })
  | .consumeBackupCode tenantID userID hash, s =>
    (.ok (s.users.any (fun u => isUser tenantID userID u ∧ hash ∈ u.backupCodes)),
      { s with users := s.users.map (fun u =>
          if isUser tenantID userID u then { u with backupCodes := u.backupCodes.filter (· ≠ hash) } else u) })
  | .createSession x, s =>
    if s.sessions.any (fun y => y.jti = x.jti) then (.error (.plain "duplicate key value violates unique constraint"), s)
    else (.ok x, { s with sessions := s.sessions ++ [x] })
  | .getSession tenantID jti, s => (Database.rowOrNotFound (s.sessions.find? (isSession tenantID jti)), s)
  | .revokeSession tenantID jti, s =>
    (updated s.sessions (fun x => isSession tenantID jti x ∧ x.revokedAt = none),
      { s with sessions := s.revoke (isSession tenantID jti) })
  | .revokeUserSessions tenantID userID, s =>
    (.ok (), { s with sessions := s.revoke (fun x => x.userID = userID ∧ x.tenantID = tenantID) })

/-- The counter after `INCR`: one that is gone starts over, without an expiry. -/
def incremented (key : String) : Counter :=
  match s.counters key with
  | none => { count := 1 }
  | some c => if ∃ at_ ∈ c.expiresAt, at_ ≤ s.now then { count := 1 } else { c with count := c.count + 1 }

def handle (env : Env) : Prog.Handler sig GoError State
  | .store o, s =>
    match s.tape s.calls with
    | some text => (.error (.plain text), s.called)
    | none => ((exec o s).1, (exec o s).2.called)
  | .timeNow, s => (.ok s.now, s.called)
  | .newUUID, s => (.ok (env.uuid s.made), { s.called with made := s.made + 1 })
  | .generate password, s => (env.generateFromPassword password s.made, { s.called with made := s.made + 1 })
  | .newSecret, s => (env.newSecret s.made, { s.called with made := s.made + 1 })
  | .newBackupCode, s => (env.newBackupCode s.made, { s.called with made := s.made + 1 })
  | .incr key, s =>
    match s.tape s.calls with
    | some text => (.error (.plain text), s.called)
    | none =>
      (.ok (s.incremented key).count, { s.called with counters := Function.update s.counters key (some (s.incremented key)) })
  | .expire key ttl, s =>
    match s.tape s.calls with
    | some text => (.error (.plain text), s.called)
    | none =>
      (.ok (), { s.called with
        counters := Function.update s.counters key ((s.counters key).map (fun c => { c with expiresAt := some (s.now + ttl) })) })
  | .discover, s => (env.discover s.calls, s.called)
  | .verifyIDToken token, s => (env.verifyIDToken token s.now, s.called)
  | .reply _, s => (.ok (), s.called)

end State

end SyncForge.Auth
