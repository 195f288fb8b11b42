import ClassG.Auth.Threads
import ClassG.Auth.Handlers

/-!
# Sessions

`Authenticate`, which makes a principal of the token of a session, and the service with its callers
as far as sessions go: besides the calls that keep accounts up, a thread may authenticate.
-/

set_option autoImplicit false

namespace ClassG.Auth

open Store

/-! ## Authenticate -/

/-- What `Authenticate` returns instead of a principal. -/
inductive SessionError
  | noSession
  | sessionExpired
  | accountDisabled
  | store (e : StoreError)
  deriving DecidableEq, Repr

/-- A call of the store, and its answer. -/
def query {ε : Type} (op : AccountOp) :
    Program.Fallible accountOps ε (Except StoreError op.Result) :=
  ExceptT.lift (.call accountOps op)

/-- The principal that everyone is who need not sign in. -/
def anonymousPrincipal : Principal where
  user :=
    { userID := "", username := "anonymous", displayName := "Unauthenticated", role := .admin,
      createdAt := 0, updatedAt := 0 }
  anonymous := true

/-- `Authenticate`, with the account of the session. -/
def authenticateUser (env : Env) (service : Service) (id : String) (sess : Session) :
    Program.Fallible accountOps SessionError Principal := do
  match ← query (.getUser sess.userID) with
  | .error .notFound =>
    let _ ← query (.deleteSession id)
    throw .noSession
  | .error e => throw (.store e)
  | .ok u =>
    if u.disabled then do
      let _ ← query (.deleteSession id)
      throw .accountDisabled
    else do
      let now := env.clock 0
      -- An error is logged.
      (if GoDuration.minute < GoTime.sub now sess.lastSeen then do
        let _ ← query (.touchSession id now (now + service.ttlOrDefault))
      else pure () : Program.Fallible accountOps SessionError Unit)
      return { user := u, sessionID := id }

/-- `Authenticate`. -/
def authenticate (env : Env) (service : Service) (token : String) :
    Program.Fallible accountOps SessionError Principal :=
  if !service.enabled then return anonymousPrincipal
  else if token = "" then throw .noSession
  else do
    let id := env.tokenID token
    match ← query (.getSession id) with
    | .error .notFound => throw .noSession
    | .error e => throw (.store e)
    | .ok sess =>
      if sess.expiresAt < env.clock 0 then do
        let _ ← query (.deleteSession id)
        throw .sessionExpired
      else authenticateUser env service id sess

/-! ## The service with its callers -/

/-- A call of the service. -/
inductive SessionCall
  | account (k : AccountCall)
  | authenticate (env : Env) (token : String)

/-- What becomes of it. -/
inductive SessionOutcome
  | account (o : Outcome)
  | authenticated (p : Principal)
  | unauthenticated (e : SessionError)

namespace SessionCall

/-- The call, as a program. -/
def program (service : Service) : SessionCall → Program accountOps SessionOutcome
  | account k => do
    let o ← k.program service
    return .account o
  | authenticate env token => do
    match ← (Auth.authenticate env service token).run with
    | .ok p => return .authenticated p
    | .error e => return .unauthenticated e

/-- The calls that are made: those of accounts that are there, and `Authenticate`. -/
def admitted : SessionCall → Bool
  | account k => k.upkeep
  | authenticate _ _ => true

/-- The call is a `Login`. -/
def logsIn : SessionCall → Bool
  | account (.login _ _ _) => true
  | _ => false

end SessionCall

/-- The service with its callers.  An operation of the store may fail, where that is `possible`. -/
def access {σ υ ς : Type} (ι : Type) (S : UserTable σ υ ς) (service : Service)
    (possible : Option String → AccountOp → Prop) :
    Component ι SessionCall accountOps SessionOutcome σ (Option String) where
  init _ := True
  admits _ k := k.admitted
  program := SessionCall.program service
  ready _ e _ op := possible e op
  effect _ e s op :=
    match e with
    | none => S.exec s op
    | some doing => (.error (.failed doing), s)

abbrev SessionWorld (ι σ : Type) := World ι SessionCall accountOps SessionOutcome σ

abbrev SessionMoment (ι σ : Type) := Moment ι SessionCall accountOps SessionOutcome σ

abbrev SessionTrace (ι σ : Type) :=
  Component.Trace ι SessionCall accountOps SessionOutcome σ (Option String)

abbrev SessionState (ι σ : Type) := Component.State ι SessionCall accountOps SessionOutcome σ

end ClassG.Auth
