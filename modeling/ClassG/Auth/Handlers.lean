import ClassG.Auth.Service

/-!
# The handlers of accounts

`api/internal/httpapi`: the handlers of `authapi.go` and `adminapi.go` that change accounts.  Each is
a program over the store, that answers with an error or a reply.
-/

set_option autoImplicit false

namespace ClassG.Auth

open Store

/-- The codes of the errors. -/
inductive Code
  | invalidParameter
  | notFound
  | conflict
  | unauthenticated
  | internal
  deriving DecidableEq, Repr

/-- `apierr.Error`. -/
structure ApiError where
  code : Code
  message : String
  field : String := ""
  deriving DecidableEq, Repr

/-- `InvalidParameter`. -/
def invalidParameter (field message : String) : ApiError := ⟨.invalidParameter, message, field⟩

/-- `Conflict`. -/
def conflict (message : String) : ApiError := { code := .conflict, message }

/-- `NotFound`, of a user. -/
def noUser (id : String) : ApiError := { code := .notFound, message := "no user with id " ++ id }

/-- `Internal`. -/
def internal (message : String) : ApiError := { code := .internal, message }

/-- What is answered when there is no error. -/
inductive Reply
  /-- The account that has been made. -/
  | created (u : User)
  /-- The first account, signed in if there is a token. -/
  | setUp (u : User) (token : Option String)
  | updated (u : User)
  | noContent
  deriving DecidableEq, Repr

/-- `Principal`. -/
structure Principal where
  user : User
  sessionID : String := ""
  anonymous : Bool := false

/-! ## Requests -/

/-- `setupRequest`. -/
structure SetupRequest where
  username : String
  displayName : String := ""
  password : String

/-- `createUserRequest`. -/
structure CreateUserRequest where
  username : String
  displayName : String := ""
  password : String
  role : String

/-- `updateUserRequest`, where what is absent is left alone. -/
structure UpdateUserRequest where
  role : Option String := none
  displayName : Option String := none
  disabled : Option Bool := none
  password : Option String := none

/-- `changePasswordRequest`. -/
structure ChangePasswordRequest where
  currentPassword : String
  newPassword : String

/-- What `decodeBody` reads: the request, or the text of its error. -/
abbrev Body (ρ : Type) := Except String ρ

/-! ## The handlers -/

/-- A handler, or a part of one. -/
abbrev Handler (α : Type) := Program.Fallible accountOps ApiError α

/-- Answer, or go on. -/
def answer {α : Type} (r : Except ApiError α) : Handler α := ExceptT.mk (pure r)

/-- Call the service, and make an answer of its error. -/
def serve {α : Type} (p : Method α) (error : AuthError → ApiError) : Handler α :=
  ExceptT.mk do
    match ← p.run with
    | .ok a => return .ok a
    | .error e => return .error (error e)

/-- Call the service, and look at what it returns. -/
def attempt {α : Type} (p : Method α) : Handler (Except AuthError α) := ExceptT.lift p.run

/-- `decodeBody`. -/
def decodeBody {ρ : Type} : Body ρ → Except ApiError ρ
  | .ok req => .ok req
  | .error text =>
    .error (invalidParameter "" ("request body is not valid JSON for this endpoint: " ++ text))

/-- `ParseRole`. -/
def parseRole (env : Env) (s : String) : Except ApiError Role :=
  match Role.parse env.lower s with
  | some role => .ok role
  | none => .error (invalidParameter "role"
    ("unknown role " ++ env.quote s ++ ": want viewer, operator or admin"))

/-- `ParseRole`, of a role that may be absent. -/
def parseRoleIf (env : Env) : Option String → Except ApiError (Option Role)
  | none => .ok none
  | some s => (parseRole env s).map some

/-- What `handleSetup` makes of an error. -/
def setupError (env : Env) : AuthError → ApiError
  | .setupComplete => conflict "this unit already has an administrator"
  | .weakPassword => invalidParameter "password" (AuthError.text env .weakPassword)
  | .userExists => conflict (AuthError.text env .userExists)
  | e => invalidParameter "username" (e.text env)

/-- `handleSetup`. -/
def handleSetup (env : Env) (service : Option Service) (body : Body SetupRequest) :
    Handler Reply := do
  let service ← answer (match service.filter Service.enabled with
    | some service => .ok service
    | none => .error (conflict "authentication is disabled on this unit"))
  let req ← answer (decodeBody body)
  let u ← serve (setup env service req.username req.displayName req.password) (setupError env)
  match ← attempt (login env service req.username req.password) with
  | .ok (_, token) => return .setUp u (some token)
  | .error _ => return .setUp u none

/-- What `handleCreateUser` makes of an error. -/
def createUserError (env : Env) : AuthError → ApiError
  | .userExists => conflict (AuthError.text env .userExists)
  | .weakPassword => invalidParameter "password" (AuthError.text env .weakPassword)
  | e => invalidParameter "username" (e.text env)

/-- `handleCreateUser`. -/
def handleCreateUser (env : Env) (body : Body CreateUserRequest) : Handler Reply := do
  let req ← answer (decodeBody body)
  let role ← answer (parseRole env req.role)
  let u ← serve (createUser env req.username req.displayName req.password role)
    (createUserError env)
  return .created u

/-- What the handlers of one user make of an error. -/
def userError (env : Env) (id failed : String) : AuthError → ApiError
  | .store .notFound => noUser id
  | .lastAdmin => conflict (AuthError.text env .lastAdmin)
  | _ => internal failed

/-- What the handlers make of an error of `SetPassword`. -/
def passwordError (env : Env) (field failed : String) : AuthError → ApiError
  | .weakPassword => invalidParameter field (AuthError.text env .weakPassword)
  | _ => internal failed

/-- The end of `handleUpdateUser`. -/
def resetPassword (env : Env) (id : String) : Option String → Handler Unit
  | none => return ()
  | some password => serve (setPassword env (env.clock 1) id password "")
    (passwordError env "password" "setting the password failed")

/-- `handleUpdateUser`. -/
def handleUpdateUser (env : Env) (id : String) (body : Body UpdateUserRequest) :
    Handler Reply := do
  let req ← answer (decodeBody body)
  let role ← answer (parseRoleIf env req.role)
  let u ← serve (updateUser env id ⟨role, req.displayName, req.disabled⟩)
    (userError env id "updating the user failed")
  resetPassword env id req.password
  return .updated u

/-- `handleDeleteUser`. -/
def handleDeleteUser (env : Env) (principal : Option Principal) (id : String) : Handler Reply := do
  answer (if (principal.map fun p ↦ p.user.userID) = some id then
    .error (conflict "you cannot delete the account you are signed in with") else .ok ())
  serve (deleteUser id) (userError env id "deleting the user failed")
  return .noContent

/-- `handleChangePassword`. -/
def handleChangePassword (env : Env) (principal : Option Principal)
    (body : Body ChangePasswordRequest) : Handler Reply := do
  let p ← answer (match principal.filter fun p ↦ !p.anonymous with
    | some p => .ok p
    | none => .error (conflict "authentication is disabled on this unit"))
  let req ← answer (decodeBody body)
  answer (if p.user.hasPassword ∧ env.verifyPassword p.user.passwordHash req.currentPassword then
    .ok () else .error { code := .unauthenticated, message := "current password is incorrect" })
  serve (setPassword env (env.clock 0) p.user.userID req.newPassword p.sessionID)
    (passwordError env "new_password" "changing the password failed")
  return .noContent

/-- A request that changes accounts. -/
inductive Request
  | setup (body : Body SetupRequest)
  | createUser (body : Body CreateUserRequest)
  | updateUser (id : String) (body : Body UpdateUserRequest)
  | deleteUser (id : String)
  | changePassword (body : Body ChangePasswordRequest)

/-- What the server does with a request of a principal. -/
def handle (env : Env) (service : Option Service) (principal : Option Principal) :
    Request → Handler Reply
  | .setup body => handleSetup env service body
  | .createUser body => handleCreateUser env body
  | .updateUser id body => handleUpdateUser env id body
  | .deleteUser id => handleDeleteUser env principal id
  | .changePassword body => handleChangePassword env principal body

end ClassG.Auth
