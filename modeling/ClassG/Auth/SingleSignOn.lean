import ClassG.Auth.Handlers

/-!
# Single sign-on

`api/internal/oidcauth` and `httpapi/oidcapi.go`, from the claims of a token that has been verified
to a session on this unit.  Where there is no account for an identity, one may be linked to it or
made for it.
-/

set_option autoImplicit false

namespace ClassG.Auth

open Store

/-! ## Who has signed in -/

/-- `Provider`, as far as an account depends on it. -/
structure Provider where
  autoProvision : Bool := false
  autoProvisionRole : String := ""
  usernameClaim : String := ""

/-- `AutoProvision`. -/
def Provider.autoProvisioned (p : Provider) : Bool × String :=
  (p.autoProvision, if p.autoProvisionRole = "" then "viewer" else p.autoProvisionRole)

/-- The claims of a token. -/
structure Claims where
  sub : String
  email : String := ""
  emailVerified : Bool := false
  name : String := ""
  preferredUsername : String := ""

/-- `Identity`. -/
structure Identity where
  issuer : String
  subject : String
  username : String
  name : String
  email : String
  returnTo : String
  usernameFromEmail : Bool
  emailVerified : Bool
  deriving DecidableEq, Repr

/-- `pickUsername`. -/
def Provider.pickUsername (lower : Char → Char) (p : Provider) (preferred email sub : String) :
    String × Bool :=
  if p.usernameClaim = "email" then (GoString.toLower lower email, true)
  else if p.usernameClaim = "sub" then (sub, false)
  else if p.usernameClaim = "preferred_username" then (GoString.toLower lower preferred, false)
  else if preferred ≠ "" then (GoString.toLower lower preferred, false)
  else (GoString.toLower lower email, true)

/-- The errors of `Exchange`. -/
inductive ExchangeError
  | badState
  | failed

/-- A token that has been verified, and where the login was to return to. -/
structure Verified where
  issuer : String
  claims : Claims
  returnTo : String := "/"

/-- The end of `Exchange`. -/
def Provider.identity (lower : Char → Char) (p : Provider) (v : Verified) :
    Except ExchangeError Identity :=
  let (username, fromEmail) :=
    p.pickUsername lower v.claims.preferredUsername v.claims.email v.claims.sub
  if username = "" then .error .failed
  else .ok
    { issuer := v.issuer
      subject := v.claims.sub
      username := username
      name := v.claims.name
      email := v.claims.email
      returnTo := v.returnTo
      usernameFromEmail := fromEmail
      emailVerified := v.claims.emailVerified }

/-! ## The account -/

/-- What is returned instead of an account. -/
inductive SSOError
  /-- `ErrNoAccount`. -/
  | noAccount
  /-- The role that is configured is none. -/
  | badRole (role : String)
  /-- The role is not for accounts that are made here. -/
  | refusedRole (role : Role)
  | auth (e : AuthError)

/-- A part of the login. -/
abbrev SSO (α : Type) := Program.Fallible accountOps SSOError α

/-- A method of the service, whose error is returned. -/
def sso {α : Type} (p : Method α) : SSO α := p.adapt .auth

/-- `CreateSSOUser`. -/
def createSSOUser (env : Env) (issuer subject username displayName : String) (role : Role) :
    SSO User := do
  sso (computed (checkUsername env.lower username))
  if !role.valid ∨ role = .admin then throw (.refusedRole role)
  let id ← sso (drawn "minting an id" env.newID)
  let u : User :=
    { userID := id, username := normaliseUsername env.lower username,
      displayName := displayName, role := role, issuer := issuer, subject := subject,
      createdAt := env.clock 0, updatedAt := env.clock 0 }
  sso (store (.putUser u))
  return u

/-- The account with the identity. -/
def User.linked (u : User) (id : Identity) (now : GoTime) : User :=
  { u with
    issuer := id.issuer
    subject := id.subject
    displayName := if u.displayName = "" then id.name else u.displayName
    updatedAt := now }

/-- What is to be said against linking an account. -/
def Identity.refused (id : Identity) (role : Role) (existing : User) : Bool :=
  (id.usernameFromEmail ∧ !id.emailVerified) ∨ existing.issuer ≠ "" ∨ !role.atLeast existing.role

/-- The account of an identity that is seen for the first time. -/
def provision (env : Env) (id : Identity) (role : Role) : SSO User := do
  match ← sso (ask (.getUserByUsername id.username)) with
  | .ok existing =>
    if id.refused role existing then throw .noAccount
    else do
      let u := existing.linked id (env.clock 0)
      sso (store (.putUser u))
      return u
  | .error .notFound => createSSOUser env id.issuer id.subject id.username id.name role
  | .error e => throw (.auth (.store e))

/-- `resolveSSOIdentity`. -/
def resolveSSOIdentity (env : Env) (id : Identity) (auto : Bool) (roleName : String) :
    SSO User := do
  match ← sso (ask (.getUserByOIDC id.issuer id.subject)) with
  | .ok u => if u.disabled then throw (.auth .accountDisabled) else return u
  | .error .notFound =>
    if !auto then throw .noAccount
    else
      match Role.parse env.lower roleName with
      | none => throw (.badRole roleName)
      | some role => provision env id role
  | .error e => throw (.auth (.store e))

/-- `StartSSOSession`. -/
def startSSOSession (env : Env) (service : Service) (u : User) : Method String :=
  if u.disabled then throw .accountDisabled else startSession env service u

/-! ## The handler -/

/-- What a provider sends back: an error, or what `Exchange` makes of the rest. -/
structure Callback where
  error : String := ""
  verified : Except ExchangeError Verified

/-- What is answered. -/
inductive CallbackReply
  | failed (e : ApiError)
  /-- `redirectToLogin`. -/
  | login (reason : String)
  | signedIn (u : User) (token returnTo : String)
  deriving DecidableEq

/-- The reason that `handleOIDCCallback` gives. -/
def SSOError.reason : SSOError → String
  | noAccount => "no account on this unit is linked to that identity"
  | auth .accountDisabled => "that account is disabled"
  | _ => "single sign-on failed"

/-- The login of an identity. -/
def signOn (env : Env) (service : Service) (p : Provider) (id : Identity) :
    Program accountOps CallbackReply := do
  match ← (resolveSSOIdentity env id p.autoProvisioned.1 p.autoProvisioned.2).run with
  | .error e => return .login e.reason
  | .ok u =>
    match ← (startSSOSession env service u).run with
    | .error _ => return .login "single sign-on failed"
    | .ok token => return .signedIn u token id.returnTo

/-- `handleOIDCCallback`. -/
def handleOIDCCallback (env : Env) (service : Service) (oidc : Option Provider) (q : Callback) :
    Program accountOps CallbackReply :=
  match oidc with
  | none => return .failed (conflict "single sign-on is not configured on this unit")
  | some p =>
    if q.error ≠ "" then return .login q.error
    else
      match q.verified.bind (p.identity env.lower) with
      | .error .badState => return .login "the login expired or did not match; try again"
      | .error .failed => return .login "single sign-on failed"
      | .ok id => signOn env service p id

end ClassG.Auth
