import Mathlib.Data.String.Basic
import ClassG.Auth.User
import ClassG.Program
import ClassG.Store.Mem
import ClassG.Store.Sql

/-!
# Accounts and sessions in both stores

`auth.Store` and its two implementations, `memstore/memstore_auth.go` and
`libsqlstore/store_auth.go`.  In memory there are two maps.  In the database there are two tables
with constraints: a statement that would leave them violated fails and changes nothing.

A loop over a map goes through it in any order, and so does the database through rows that
`ORDER BY` leaves equal: a `Scan` is such an order.
-/

set_option autoImplicit false

namespace ClassG.Store

open Auth

/-! ## The interface -/

/-- What a store answers instead of a result. -/
inductive StoreError
  /-- `ErrNotFound`. -/
  | notFound
  /-- Anything else, with what was being done. -/
  | failed (doing : String)
  deriving DecidableEq, Repr

/-- The operations of `auth.Store`. -/
inductive AccountOp
  | countUsers
  | countAdmins
  | putUser (u : User)
  | getUser (id : String)
  | getUserByUsername (username : String)
  | getUserByOIDC (issuer subject : String)
  | listUsers
  | deleteUser (id : String)
  | putSession (s : Session)
  | getSession (id : String)
  | touchSession (id : String) (lastSeen expiresAt : GoTime)
  | deleteSession (id : String)
  | deleteUserSessions (userID : String)
  | listSessions (limit : ℤ)
  | purgeExpiredSessions (now : GoTime)
  deriving DecidableEq, Repr

/-- What they return, when there is no error. -/
@[reducible] def AccountOp.Result : AccountOp → Type
  | countUsers | countAdmins | deleteUserSessions _ | purgeExpiredSessions _ => ℕ
  | getUser _ | getUserByUsername _ | getUserByOIDC _ _ => User
  | listUsers => List User
  | getSession _ => Session
  | listSessions _ => List Session
  | putUser _ | deleteUser _ | putSession _ | touchSession _ _ _ | deleteSession _ => Unit

instance : (op : AccountOp) → DecidableEq op.Result
  | .countUsers | .countAdmins | .deleteUserSessions _ | .purgeExpiredSessions _ =>
    inferInstanceAs (DecidableEq ℕ)
  | .getUser _ | .getUserByUsername _ | .getUserByOIDC _ _ => inferInstanceAs (DecidableEq User)
  | .listUsers => inferInstanceAs (DecidableEq (List User))
  | .getSession _ => inferInstanceAs (DecidableEq Session)
  | .listSessions _ => inferInstanceAs (DecidableEq (List Session))
  | .putUser _ | .deleteUser _ | .putSession _ | .touchSession _ _ _ | .deleteSession _ =>
    inferInstanceAs (DecidableEq Unit)

/-- `auth.Store`. -/
@[reducible] def accountOps : Interface where
  Op := AccountOp
  Ans op := Except StoreError op.Result

/-- The order in which a store goes through its users and sessions. -/
structure Scan (υ σ : Type) where
  users : List υ → List υ := id
  sessions : List σ → List σ := id
  users_perm : ∀ l, (users l).Perm l := by exact fun l ↦ .refl l
  sessions_perm : ∀ l, (sessions l).Perm l := by exact fun l ↦ .refl l

instance {υ σ : Type} : Inhabited (Scan υ σ) := ⟨{}⟩

/-- A row, if there is one. -/
def found {α : Type} : Option α → Except StoreError α
  | some a => .ok a
  | none => .error .notFound

theorem found_eq_ok {α : Type} {x : Option α} {a : α} : found x = .ok a ↔ x = some a := by
  cases x <;> simp [found]

theorem found_eq_notFound {α : Type} {x : Option α} : found x = .error .notFound ↔ x = none := by
  cases x <;> simp [found]

/-! ## In memory -/

/-- The users and sessions of `memstore.Store`. -/
structure MemAccounts where
  users : Keyed User.userID := .empty
  sessions : Keyed Session.sessionID := .empty

namespace MemAccounts

/-- `PutUser`. -/
def putUser (lower : Char → Char) (m : MemAccounts) (u : User) : MemAccounts :=
  { m with users := m.users.put { u with username := normaliseUsername lower u.username } }

/-- `GetUserByUsername`. -/
def getUserByUsername (lower : Char → Char) (scan : Scan User Session) (m : MemAccounts)
    (username : String) : Option User :=
  let want := normaliseUsername lower username
  (scan.users m.users.rows).find? fun u ↦ u.username = want

/-- `GetUserByOIDC`. -/
def getUserByOIDC (scan : Scan User Session) (m : MemAccounts) (issuer subject : String) :
    Option User :=
  if issuer = "" then none
  else (scan.users m.users.rows).find? fun u ↦ u.issuer = issuer ∧ u.subject = subject

/-- `ListUsers`. -/
def listUsers (scan : Scan User Session) (m : MemAccounts) : List User :=
  sortSlice (fun u v ↦ u.username < v.username) (scan.users m.users.rows)

/-- `DeleteUser`, of a user that is there. -/
def deleteUser (m : MemAccounts) (id : String) : MemAccounts where
  users := m.users.delete id
  sessions := m.sessions.deleteWhere fun s ↦ s.userID = id

/-- `ListSessions`. -/
def listSessions (scan : Scan User Session) (m : MemAccounts) (limit : ℤ) : List Session :=
  let out := sortSlice (fun s t ↦ t.lastSeen < s.lastSeen) (scan.sessions m.sessions.rows)
  if 0 < limit ∧ limit < out.length then out.take limit.toNat else out

/-- The methods of `memstore.Store`. -/
def exec (lower : Char → Char) (scan : Scan User Session) (m : MemAccounts) :
    (op : AccountOp) → accountOps.Ans op × MemAccounts
  | .countUsers => (.ok m.users.rows.length, m)
  | .countAdmins => (.ok (m.users.rows.countP (·.enabledAdmin)), m)
  | .putUser u => (.ok (), m.putUser lower u)
  | .getUser id => (found (m.users.get id), m)
  | .getUserByUsername username => (found (m.getUserByUsername lower scan username), m)
  | .getUserByOIDC issuer subject => (found (m.getUserByOIDC scan issuer subject), m)
  | .listUsers => (.ok (m.listUsers scan), m)
  | .deleteUser id =>
    match m.users.get id with
    | none => (.error .notFound, m)
    | some _ => (.ok (), m.deleteUser id)
  | .putSession s => (.ok (), { m with sessions := m.sessions.put s })
  | .getSession id => (found (m.sessions.get id), m)
  | .touchSession id lastSeen expiresAt =>
    match m.sessions.get id with
    | none => (.error .notFound, m)
    | some s =>
      (.ok (), { m with sessions := m.sessions.put { s with lastSeen, expiresAt } })
  | .deleteSession id =>
    match m.sessions.get id with
    | none => (.error .notFound, m)
    | some _ => (.ok (), { m with sessions := m.sessions.delete id })
  | .deleteUserSessions userID =>
    (.ok (m.sessions.rows.countP (·.userID = userID)),
      { m with sessions := m.sessions.deleteWhere (·.userID = userID) })
  | .listSessions limit => (.ok (m.listSessions scan limit), m)
  | .purgeExpiredSessions now =>
    (.ok (m.sessions.rows.countP (·.expiresAt < now)),
      { m with sessions := m.sessions.deleteWhere (·.expiresAt < now) })

end MemAccounts

/-! ## In the database -/

/-- A row of `users`. -/
structure UserRow where
  userID : String
  username : String
  displayName : String
  role : String
  passwordHash : Option String
  issuer : String
  subject : String
  disabled : ℤ
  createdAt : GoBytes
  updatedAt : GoBytes
  lastLoginAt : Option GoBytes
  deriving DecidableEq

/-- `boolToInt`. -/
def boolToInt (b : Bool) : ℤ := if b then 1 else 0

/-- `nullTimePtr`. -/
def nullTimePtr : Option GoTime → Option GoBytes
  | none => none
  | some t => if t = 0 then none else some (toDB t)

/-- The parameters of the statement of `PutUser`. -/
def UserRow.of (u : User) : UserRow where
  userID := u.userID
  username := u.username
  displayName := u.displayName
  role := u.role.name
  passwordHash := nullStr u.passwordHash
  issuer := u.issuer
  subject := u.subject
  disabled := boolToInt u.disabled
  createdAt := toDB u.createdAt
  updatedAt := toDB u.updatedAt
  lastLoginAt := nullTimePtr u.lastLoginAt

/-- What becomes of a row that is inserted, where there may be one: `created_at` is not among the
columns that a conflict updates. -/
def UserRow.upsert (row : UserRow) : Option UserRow → UserRow
  | none => row
  | some old => { row with createdAt := old.createdAt }

/-- `userFrom`. -/
def userFrom (r : UserRow) : User where
  userID := r.userID
  username := r.username
  displayName := r.displayName
  role := ⟨r.role⟩
  disabled := r.disabled ≠ 0
  createdAt := fromDB r.createdAt
  updatedAt := fromDB r.updatedAt
  lastLoginAt := r.lastLoginAt.map fromDB
  issuer := r.issuer
  subject := r.subject
  passwordHash := r.passwordHash.getD ""

/-- A row of `sessions`. -/
structure SessionRow where
  sessionID : String
  userID : String
  createdAt : GoBytes
  expiresAt : GoBytes
  lastSeen : GoBytes
  userAgent : String
  ip : String
  deriving DecidableEq

/-- The parameters of the statement of `PutSession`. -/
def SessionRow.of (s : Session) : SessionRow where
  sessionID := s.sessionID
  userID := s.userID
  createdAt := toDB s.createdAt
  expiresAt := toDB s.expiresAt
  lastSeen := toDB s.lastSeen
  userAgent := s.userAgent
  ip := s.ip

/-- `sessionFrom`. -/
def sessionFrom (r : SessionRow) : Session where
  sessionID := r.sessionID
  userID := r.userID
  createdAt := fromDB r.createdAt
  expiresAt := fromDB r.expiresAt
  lastSeen := fromDB r.lastSeen
  userAgent := r.userAgent
  ip := r.ip

/-- The tables `users` and `sessions`. -/
structure AccountTables where
  users : Keyed UserRow.userID := .empty
  sessions : Keyed SessionRow.sessionID := .empty

/-- The constraints of the schema. -/
structure AccountTables.Consistent (t : AccountTables) : Prop where
  /-- `idx_users_username`. -/
  username : ∀ r ∈ t.users.rows, ∀ r' ∈ t.users.rows, r.username = r'.username →
    r.userID = r'.userID
  /-- `idx_users_oidc`. -/
  oidc : ∀ r ∈ t.users.rows, ∀ r' ∈ t.users.rows, r.issuer ≠ "" → r.issuer = r'.issuer →
    r.subject = r'.subject → r.userID = r'.userID
  /-- `user_id` in `sessions` refers to `users`. -/
  userID : ∀ s ∈ t.sessions.rows, (t.users.get s.userID).isSome

instance (t : AccountTables) : Decidable t.Consistent :=
  decidable_of_iff
    ((∀ r ∈ t.users.rows, ∀ r' ∈ t.users.rows, r.username = r'.username → r.userID = r'.userID) ∧
      (∀ r ∈ t.users.rows, ∀ r' ∈ t.users.rows, r.issuer ≠ "" → r.issuer = r'.issuer →
        r.subject = r'.subject → r.userID = r'.userID) ∧
      ∀ s ∈ t.sessions.rows, (t.users.get s.userID).isSome)
    ⟨fun ⟨h1, h2, h3⟩ ↦ ⟨h1, h2, h3⟩, fun ⟨h1, h2, h3⟩ ↦ ⟨h1, h2, h3⟩⟩

/-- The database. -/
structure SqlAccounts extends AccountTables where
  consistent : toAccountTables.Consistent

namespace SqlAccounts

/-- A database with nothing in it. -/
def empty : SqlAccounts where
  users := .empty
  sessions := .empty
  consistent := ⟨nofun, nofun, nofun⟩

/-- The end of a statement: the constraints are checked. -/
def commit {α : Type} (d : SqlAccounts) (doing : String) (t : AccountTables) (result : α) :
    Except StoreError α × SqlAccounts :=
  if h : t.Consistent then (.ok result, ⟨t, h⟩) else (.error (.failed doing), d)

/-- `PutUser`. -/
def putUser (d : SqlAccounts) (u : User) : Except StoreError Unit × SqlAccounts :=
  let row := (UserRow.of u).upsert (d.users.get u.userID)
  d.commit "putting user" ⟨d.users.put row, d.sessions⟩ ()

/-- `DeleteUser`: `ON DELETE CASCADE`. -/
def deleteUser (d : SqlAccounts) (id : String) : Except StoreError Unit × SqlAccounts :=
  match d.users.get id with
  | none => (.error .notFound, d)
  | some _ => d.commit "deleting user"
      ⟨d.users.delete id, d.sessions.deleteWhere (·.userID = id)⟩ ()

/-- `PutSession`, which has no `ON CONFLICT`. -/
def putSession (d : SqlAccounts) (s : Session) : Except StoreError Unit × SqlAccounts :=
  match d.sessions.get s.sessionID with
  | none => d.commit "putting session"
      ⟨d.users, d.sessions.put (.of s)⟩ ()
  | some _ => (.error (.failed "putting session"), d)

/-- `TouchSession`, whose statement may find no row. -/
def touchSession (d : SqlAccounts) (id : String) (lastSeen expiresAt : GoTime) :
    Except StoreError Unit × SqlAccounts :=
  match d.sessions.get id with
  | none => (.ok (), d)
  | some r =>
    let r := { r with lastSeen := toDB lastSeen, expiresAt := toDB expiresAt }
    d.commit "touching session" ⟨d.users, d.sessions.put r⟩ ()

/-- A `DELETE` on `sessions` that returns the number of rows. -/
def deleteSessions (d : SqlAccounts) (doing : String) (p : SessionRow → Bool) :
    Except StoreError ℕ × SqlAccounts :=
  d.commit doing ⟨d.users, d.sessions.deleteWhere p⟩ (d.sessions.rows.countP p)

/-- `DeleteSession`. -/
def deleteSession (d : SqlAccounts) (id : String) : Except StoreError Unit × SqlAccounts :=
  match d.deleteSessions "deleting session" (·.sessionID = id) with
  | (.ok n, d') => (if n = 0 then .error .notFound else .ok (), d')
  | (.error e, d') => (.error e, d')

/-- `LIMIT`, which a negative number is not. -/
def sqlLimit {ρ : Type} (limit : ℤ) (rows : List ρ) : List ρ :=
  if limit < 0 then rows else rows.take limit.toNat

/-- `ListSessions`. -/
def listSessions (scan : Scan UserRow SessionRow) (d : SqlAccounts) (limit : ℤ) : List Session :=
  let limit := if limit ≤ 0 then -1 else limit
  (sqlLimit limit ((scan.sessions d.sessions.rows).insertionSort
    fun r r' ↦ r'.lastSeen ≤ r.lastSeen)).map sessionFrom

/-- The methods of `libsqlstore.Store`. -/
def exec (lower : Char → Char) (scan : Scan UserRow SessionRow) (d : SqlAccounts) :
    (op : AccountOp) → accountOps.Ans op × SqlAccounts
  | .countUsers => (.ok d.users.rows.length, d)
  | .countAdmins => (.ok (d.users.rows.countP fun r ↦ r.role = "admin" ∧ r.disabled = 0), d)
  | .putUser u => d.putUser u
  | .getUser id => (found ((d.users.get id).map userFrom), d)
  | .getUserByUsername username =>
    (found (((scan.users d.users.rows).find? fun r ↦
      r.username = normaliseUsername lower username).map userFrom), d)
  | .getUserByOIDC issuer subject =>
    (found (((scan.users d.users.rows).find? fun r ↦
      r.issuer = issuer ∧ r.issuer ≠ "" ∧ r.subject = subject).map userFrom), d)
  | .listUsers =>
    (.ok (((scan.users d.users.rows).insertionSort fun r r' ↦ r.username ≤ r'.username).map
      userFrom), d)
  | .deleteUser id => d.deleteUser id
  | .putSession s => d.putSession s
  | .getSession id => (found ((d.sessions.get id).map sessionFrom), d)
  | .touchSession id lastSeen expiresAt => d.touchSession id lastSeen expiresAt
  | .deleteSession id => d.deleteSession id
  | .deleteUserSessions userID =>
    d.deleteSessions "deleting user sessions" (·.userID = userID)
  | .listSessions limit => (.ok (d.listSessions scan limit), d)
  | .purgeExpiredSessions now => d.deleteSessions "" (·.expiresAt < toDB now)

end SqlAccounts

end ClassG.Store
