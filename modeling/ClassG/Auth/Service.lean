import ClassG.Sequential
import ClassG.Store.Accounts

/-!
# The authentication service

`api/internal/auth/service.go`, as far as it changes accounts.  Every method is a program over the
operations of a store that ends at its first error.

What a method draws from elsewhere is an `Env`: the clock, the random numbers, and the functions of
Go and of `argon2` that are not looked into.
-/

set_option autoImplicit false

namespace ClassG.Auth

open Store

/-- `Mode`. -/
inductive Mode
  | required
  | off
  deriving DecidableEq, Repr

/-- `Service`, without its store and its clock. -/
structure Service where
  mode : Mode := .required
  ttl : GoDuration := 0

/-- `DefaultTTL`. -/
def defaultTTL : GoDuration := 12 * 60 * GoDuration.minute

/-- `ttl`. -/
def Service.ttlOrDefault (s : Service) : GoDuration := if 0 < s.ttl then s.ttl else defaultTTL

/-- `Enabled`. -/
def Service.enabled (s : Service) : Bool := s.mode ≠ .off

/-- What a request draws from elsewhere. -/
structure Env where
  /-- `unicode.ToLower`. -/
  lower : Char → Char
  /-- The verb `%q`. -/
  quote : String → String
  /-- The text of an error of the store. -/
  storeText : StoreError → String
  /-- What the clock says when it is read for the first time, the second, and so on. -/
  clock : ℕ → GoTime
  /-- The salt that is drawn, or none if that fails. -/
  salt : Option GoBytes
  /-- What `NewID` comes to. -/
  newID : Option String
  /-- What `NewToken` comes to. -/
  newToken : Option String
  /-- `TokenID`. -/
  tokenID : String → String
  /-- The encoded `argon2id` hash of a password with a salt. -/
  encode : String → GoBytes → String
  /-- `VerifyPassword`. -/
  verifyPassword : String → String → Bool
  /-- What `truncate` leaves of the `User-Agent`. -/
  userAgent : String
  /-- `clientIP`. -/
  clientIP : String

/-- What the service returns instead of a result. -/
inductive AuthError
  | invalidCredentials
  | accountDisabled
  | weakPassword
  | userExists
  | setupComplete
  | lastAdmin
  /-- An error of `ValidUsername`. -/
  | username (text : String)
  | unknownRole (role : String)
  /-- The random numbers have failed. -/
  | random (doing : String)
  | store (e : StoreError)
  deriving DecidableEq, Repr

/-- `MinPasswordLength`. -/
def minPasswordLength : ℕ := 12

/-- `Error`. -/
def AuthError.text (env : Env) : AuthError → String
  | invalidCredentials => "invalid username or password"
  | accountDisabled => "account disabled"
  | weakPassword =>
    "password is too weak: use at least " ++ toString minPasswordLength ++ " characters"
  | userExists => "a user with that name already exists"
  | setupComplete => "initial setup has already been completed"
  | lastAdmin => "this is the only enabled admin; promote another account first"
  | username text => text
  | unknownRole role => "unknown role " ++ env.quote role
  | random doing => doing
  | store e => env.storeText e

/-! ## What is checked -/

/-- `ValidUsername`. -/
def checkUsername (lower : Char → Char) (name : String) : Except AuthError Unit :=
  let n := normaliseUsername lower name
  if n.utf8ByteSize < 2 ∨ 64 < n.utf8ByteSize then
    .error (.username "username must be 2 to 64 characters")
  else if n.toList.all usernameChar then .ok ()
  else .error (.username "username may contain only letters, digits, and . - _ @")

theorem checkUsername_eq_ok (lower : Char → Char) (name : String) :
    checkUsername lower name = .ok () ↔ validUsername lower name := by
  rw [checkUsername, validUsername]
  split_ifs with hsize hall
  · have hout : ¬(2 ≤ (normaliseUsername lower name).utf8ByteSize ∧
        (normaliseUsername lower name).utf8ByteSize ≤ 64) := by omega
    simp [← and_assoc, hout]
  · have hin : 2 ≤ (normaliseUsername lower name).utf8ByteSize ∧
        (normaliseUsername lower name).utf8ByteSize ≤ 64 := by omega
    simp [hall, hin]
  · simp [hall]

/-- `CheckPasswordStrength`. -/
def checkPasswordStrength (password : String) : Except AuthError Unit :=
  if password.length < minPasswordLength then .error .weakPassword else .ok ()

/-- `HashPassword`. -/
def hashPassword (env : Env) (password : String) : Except AuthError String := do
  checkPasswordStrength password
  match env.salt with
  | none => .error (.random "generating a salt")
  | some salt => .ok (env.encode password salt)

/-! ## Calls of the store -/

/-- A method of the service. -/
abbrev Method (α : Type) := Program.Fallible accountOps AuthError α

/-- A call of the store, and its answer. -/
def ask (op : AccountOp) : Method (Except StoreError op.Result) :=
  ExceptT.lift (.call accountOps op)

/-- A call of the store whose error is returned. -/
def store (op : AccountOp) : Method op.Result :=
  ExceptT.mk do
    match ← Program.call accountOps op with
    | .ok r => return .ok r
    | .error e => return .error (.store e)

/-- What has been computed, or its error. -/
def computed {α : Type} (r : Except AuthError α) : Method α := ExceptT.mk (pure r)

/-- What the random numbers have come to. -/
def drawn {α : Type} (doing : String) : Option α → Method α
  | some a => pure a
  | none => throw (.random doing)

/-! ## The methods -/

/-- `NeedsSetup`. -/
def needsSetup (service : Service) : Method Bool :=
  if service.enabled then do
    let n ← store .countUsers
    return n = 0
  else return false

/-- Whether there is a user with this name: `GetUserByUsername`, for the error it returns. -/
def requireFree (username : String) : Method Unit := do
  match ← ask (.getUserByUsername username) with
  | .ok _ => throw .userExists
  | .error .notFound => return ()
  | .error e => throw (.store e)

/-- `CreateUser`. -/
def createUser (env : Env) (username displayName password : String) (role : Role) :
    Method User := do
  computed (checkUsername env.lower username)
  computed (if role.valid then .ok () else .error (.unknownRole role.name))
  let hash ← computed (hashPassword env password)
  let name := normaliseUsername env.lower username
  requireFree name
  let id ← drawn "minting an id" env.newID
  let u : User :=
    { userID := id, username := name, displayName := displayName, role := role,
      passwordHash := hash, createdAt := env.clock 0, updatedAt := env.clock 0 }
  store (.putUser u)
  return u

/-- `Setup`. -/
def setup (env : Env) (service : Service) (username displayName password : String) :
    Method User := do
  if ← needsSetup service then createUser env username displayName password .admin
  else throw .setupComplete

/-- `startSession`, for which the clock is read once more. -/
def startSession (env : Env) (service : Service) (u : User) : Method String := do
  let token ← drawn "minting a session token" env.newToken
  let now := env.clock 1
  store (.putSession
    { sessionID := env.tokenID token, userID := u.userID, createdAt := now,
      expiresAt := now + service.ttlOrDefault, lastSeen := now, userAgent := env.userAgent,
      ip := env.clientIP })
  -- An error is logged.
  let _ ← ask (.putUser { u with lastLoginAt := some now, updatedAt := now })
  return token

/-- What is checked of an account that signs in. -/
def checkLogin (env : Env) (u : User) (password : String) : Except AuthError Unit :=
  if !u.hasPassword then .error .invalidCredentials
  else if !env.verifyPassword u.passwordHash password then .error .invalidCredentials
  else if u.disabled then .error .accountDisabled
  else .ok ()

/-- `Login`. -/
def login (env : Env) (service : Service) (username password : String) :
    Method (User × String) := do
  match ← ask (.getUserByUsername username) with
  | .error .notFound => throw .invalidCredentials
  | .error e => throw (.store e)
  | .ok u =>
    computed (checkLogin env u password)
    let token ← startSession env service u
    return (u, token)

/-- The loop of `revokeExcept`. -/
def revokeAll (userID keep : String) : List Session → Method Unit
  | [] => return ()
  | s :: rest =>
    if s.userID ≠ userID ∨ s.sessionID = keep then revokeAll userID keep rest
    else do
      match ← ask (.deleteSession s.sessionID) with
      | .ok _ => revokeAll userID keep rest
      | .error .notFound => revokeAll userID keep rest
      | .error e => throw (.store e)

/-- `revokeExcept`. -/
def revokeExcept (userID keep : String) : Method Unit := do
  let sessions ← store (.listSessions 0)
  revokeAll userID keep sessions

/-- `SetPassword`, which reads the clock at `now`. -/
def setPassword (env : Env) (now : GoTime) (userID password keepSession : String) :
    Method Unit := do
  let u ← store (.getUser userID)
  let hash ← computed (hashPassword env password)
  store (.putUser { u with passwordHash := hash, updatedAt := now })
  revokeExcept userID keepSession

/-- `requireAnotherAdmin`. -/
def requireAnotherAdmin : Method Unit := do
  let n ← store .countAdmins
  if n ≤ 1 then throw .lastAdmin

/-- What an update asks to be changed. -/
structure Changes where
  role : Option Role := none
  displayName : Option String := none
  disabled : Option Bool := none

/-- `losingAdmin`. -/
def Changes.losingAdmin (c : Changes) (u : User) : Bool :=
  u.role = .admin ∧ !u.disabled ∧ ((∃ r ∈ c.role, r ≠ .admin) ∨ c.disabled = some true)

/-- The user with the changes. -/
def Changes.apply (c : Changes) (now : GoTime) (u : User) : User :=
  { u with
    role := c.role.getD u.role
    displayName := c.displayName.getD u.displayName
    disabled := c.disabled.getD u.disabled
    updatedAt := now }

/-- The role of the changes is one there is. -/
def Changes.checkRole (c : Changes) : Except AuthError Unit :=
  match c.role with
  | some role => if role.valid then .ok () else .error (.unknownRole role.name)
  | none => .ok ()

/-- `UpdateUser`. -/
def updateUser (env : Env) (userID : String) (c : Changes) : Method User := do
  let u ← store (.getUser userID)
  (if c.losingAdmin u then requireAnotherAdmin else pure () : Method Unit)
  computed c.checkRole
  let u := c.apply (env.clock 0) u
  store (.putUser u)
  -- An error is logged.
  (if u.disabled ∨ c.role.isSome then do let _ ← ask (.deleteUserSessions userID) else pure () :
    Method Unit)
  return u

/-- `DeleteUser`. -/
def deleteUser (userID : String) : Method Unit := do
  let u ← store (.getUser userID)
  (if u.role = .admin ∧ !u.disabled then requireAnotherAdmin else pure () : Method Unit)
  store (.deleteUser userID)

end ClassG.Auth
