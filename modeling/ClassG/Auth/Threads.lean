import ClassG.Auth.SingleSignOn
import ClassG.Store.UserTable

/-!
# Calls of the service, one or many at a time

Each call is a sequence of separate reads and writes of a store, and those of several threads come
in any order.  A call of the store may fail, and then changes nothing.
-/

set_option autoImplicit false

namespace ClassG.Auth

open Store

/-- A call that may change accounts. -/
inductive AccountCall
  | setup (env : Env) (username displayName password : String)
  | createUser (env : Env) (username displayName password : String) (role : Role)
  | updateUser (env : Env) (userID : String) (changes : Changes)
  | deleteUser (userID : String)
  | setPassword (env : Env) (now : GoTime) (userID password keepSession : String)
  | login (env : Env) (username password : String)
  | callback (env : Env) (oidc : Option Provider) (q : Callback)

/-- What becomes of a call. -/
inductive Outcome
  | refused
  | done
  /-- There is a session now. -/
  | signedIn (u : User) (token : String)

/-- A method that does not sign anyone in. -/
def plain {α : Type} (p : Method α) : Program accountOps Outcome := do
  match ← p.run with
  | .ok _ => return .done
  | .error _ => return .refused

/-- The call, as a program. -/
def AccountCall.program (service : Service) : AccountCall → Program accountOps Outcome
  | setup env username displayName password =>
    plain (Auth.setup env service username displayName password)
  | createUser env username displayName password role =>
    plain (Auth.createUser env username displayName password role)
  | updateUser env userID changes => plain (Auth.updateUser env userID changes)
  | deleteUser userID => plain (Auth.deleteUser userID)
  | setPassword env now userID password keepSession =>
    plain (Auth.setPassword env now userID password keepSession)
  | login env username password => do
    match ← (Auth.login env service username password).run with
    | .ok (u, token) => return .signedIn u token
    | .error _ => return .refused
  | callback env oidc q => do
    match ← handleOIDCCallback env service oidc q with
    | .signedIn u token _ => return .signedIn u token
    | _ => return .refused

/-- The call is one of an account that is there. -/
def AccountCall.upkeep : AccountCall → Bool
  | updateUser _ _ _ | deleteUser _ | setPassword _ _ _ _ _ | login _ _ _ => true
  | _ => false

/-- The id that is drawn for a new account. -/
def AccountCall.drawnID : AccountCall → Option String
  | setup env _ _ _ | createUser env _ _ _ _ | callback env _ _ => env.newID
  | _ => none

/-- What is given of a unit: its service, the calls that are made of it, and how it starts. -/
structure Site (σ : Type) where
  service : Service := {}
  admits : AccountCall → Prop := fun _ ↦ True
  init : σ → Prop

/-- The service with its callers.  What a call of the store does is up to the store, unless it
fails: the environment says what it was doing. -/
def accounts {σ υ ς : Type} (ι : Type) (S : UserTable σ υ ς) (site : Site σ) :
    Component ι AccountCall accountOps Outcome σ (Option String) where
  init := site.init
  admits _ k := site.admits k
  program := AccountCall.program site.service
  ready _ _ _ _ := True
  effect _ e s op :=
    match e with
    | none => S.exec s op
    | some doing => (.error (.failed doing), s)

abbrev AccountWorld (ι σ : Type) := World ι AccountCall accountOps Outcome σ

abbrev AccountMoment (ι σ : Type) := Moment ι AccountCall accountOps Outcome σ

end ClassG.Auth
