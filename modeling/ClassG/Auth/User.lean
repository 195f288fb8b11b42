import ClassG.ForGo.Strings
import ClassG.ForGo.Time

/-!
# Accounts and sessions

`api/internal/auth`: who is allowed to do what.  A `Role` is a string, of which three values mean
something, in an order; an account with an issuer is one of a single sign-on.
-/

set_option autoImplicit false

namespace ClassG.Auth

/-! ## Roles -/

/-- `Role`. -/
structure Role where
  name : String
  deriving DecidableEq, Repr

namespace Role

/-- `RoleViewer`. -/
def viewer : Role := ⟨"viewer"⟩

/-- `RoleOperator`. -/
def operator : Role := ⟨"operator"⟩

/-- `RoleAdmin`. -/
def admin : Role := ⟨"admin"⟩

/-- `roleRank`. -/
def rank (r : Role) : Option ℕ :=
  if r = viewer then some 1 else if r = operator then some 2 else if r = admin then some 3 else none

/-- `Valid`. -/
def valid (r : Role) : Bool := r.rank.isSome

/-- `AtLeast`. -/
def atLeast (r need : Role) : Bool :=
  match r.rank, need.rank with
  | some held, some want => want ≤ held
  | _, _ => false

theorem atLeast_refl {r : Role} (h : r.valid) : r.atLeast r := by
  obtain ⟨n, hn⟩ := Option.isSome_iff_exists.mp h
  simp [atLeast, hn]

/-- `ParseRole`. -/
def parse (lower : Char → Char) (s : String) : Option Role :=
  let r : Role := ⟨GoString.toLower lower (GoString.trimSpace s)⟩
  if r.valid then some r else none

theorem valid_of_parse {lower : Char → Char} {s : String} {r : Role} (h : parse lower s = some r) :
    r.valid := by
  rw [parse] at h
  split at h
  · rename_i hv
    exact Option.some.inj h ▸ hv
  · cases h

end Role

/-! ## Records -/

/-- `User`. -/
structure User where
  userID : String
  username : String
  displayName : String := ""
  role : Role
  disabled : Bool := false
  createdAt : GoTime
  updatedAt : GoTime
  lastLoginAt : Option GoTime := none
  issuer : String := ""
  subject : String := ""
  passwordHash : String := ""
  deriving DecidableEq, Repr

/-- `HasPassword`. -/
def User.hasPassword (u : User) : Bool := u.passwordHash ≠ ""

/-- What `CountAdmins` counts. -/
def User.enabledAdmin (u : User) : Bool := u.role = .admin ∧ ¬u.disabled

/-- `Session`. -/
structure Session where
  sessionID : String
  userID : String
  createdAt : GoTime
  expiresAt : GoTime
  lastSeen : GoTime
  userAgent : String := ""
  ip : String := ""
  deriving DecidableEq, Repr

/-! ## Usernames -/

/-- `NormaliseUsername`. -/
def normaliseUsername (lower : Char → Char) (name : String) : String :=
  GoString.toLower lower (GoString.trimSpace name)

/-- The characters of a username. -/
def usernameChar (c : Char) : Bool :=
  ('a' ≤ c ∧ c ≤ 'z') ∨ ('0' ≤ c ∧ c ≤ '9') ∨ c ∈ ['.', '-', '_', '@']

/-- `ValidUsername`. -/
def validUsername (lower : Char → Char) (name : String) : Bool :=
  let n := normaliseUsername lower name
  2 ≤ n.utf8ByteSize ∧ n.utf8ByteSize ≤ 64 ∧ n.toList.all usernameChar

end ClassG.Auth
