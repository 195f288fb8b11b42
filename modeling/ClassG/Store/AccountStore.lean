import ClassG.Store.Accounts

/-!
# Stores of accounts

What the service needs to know of a store: two tables, what is read of them, and what becomes of
them when a user is put or the sessions of a user are deleted.  The store in memory and the database
are both such stores, and differ in the rows they keep.
-/

set_option autoImplicit false

namespace ClassG.Store

open Auth

/-- The operation only reads. -/
def AccountOp.reads : AccountOp → Bool
  | countUsers | countAdmins | getUser _ | getUserByUsername _ | getUserByOIDC _ _ | listUsers
  | getSession _ | listSessions _ => true
  | putUser _ | deleteUser _ | putSession _ | touchSession _ _ _ | deleteSession _
  | deleteUserSessions _ | purgeExpiredSessions _ => false

/-- The operation may find nothing. -/
def AccountOp.looksUp : AccountOp → Bool
  | getUser _ | getUserByUsername _ | getUserByOIDC _ _ | deleteUser _ | getSession _
  | touchSession _ _ _ | deleteSession _ => true
  | countUsers | countAdmins | putUser _ | listUsers | putSession _ | deleteUserSessions _
  | listSessions _ | purgeExpiredSessions _ => false

/-- A store in `σ`, with rows in `υ` and `ς`. -/
structure AccountStore (σ υ ς : Type) where
  exec : σ → (op : AccountOp) → accountOps.Ans op × σ
  users : σ → String → Option υ
  sessions : σ → String → Option ς
  /-- What `CountAdmins` counts. -/
  admins : σ → ℕ
  /-- The user of a row. -/
  user : υ → User
  /-- The row of a user that is put where there may be one. -/
  row : User → Option υ → υ
  /-- Whose session a row is. -/
  owner : ς → String
  exec_reads : ∀ s (op : AccountOp), op.reads → (exec s op).2 = s
  /-- Only what is looked up is not found. -/
  exec_ne_notFound : ∀ s (op : AccountOp), ¬op.looksUp → (exec s op).1 ≠ .error .notFound
  /-- Nor is anything done about what is not found. -/
  deleteUser_notFound : ∀ s id, (exec s (.deleteUser id)).1 = .error .notFound →
    (exec s (.deleteUser id)).2 = s
  countAdmins : ∀ s, (exec s .countAdmins).1 = .ok (admins s)
  getUser : ∀ s id, (exec s (.getUser id)).1 = found ((users s id).map user)
  userID_user : ∀ s id r, users s id = some r → (user r).userID = id
  putUser : ∀ s u, (exec s (.putUser u)).1 = .ok () →
    users (exec s (.putUser u)).2 =
      Function.update (users s) u.userID (some (row u (users s u.userID))) ∧
    sessions (exec s (.putUser u)).2 = sessions s
  deleteUserSessions : ∀ s id n, (exec s (.deleteUserSessions id)).1 = .ok n →
    users (exec s (.deleteUserSessions id)).2 = users s ∧
    sessions (exec s (.deleteUserSessions id)).2 =
      fun k ↦ (sessions s k).filter fun r ↦ owner r ≠ id

/-- The same rows in both tables. -/
def AccountStore.Same {σ υ ς : Type} (S : AccountStore σ υ ς) (s s' : σ) : Prop :=
  S.users s' = S.users s ∧ S.sessions s' = S.sessions s

/-- The call has not failed: it may have found nothing. -/
def Answered (op : AccountOp) (ans : accountOps.Ans op) : Prop :=
  ∀ doing, ans ≠ .error (.failed doing)

section laws

variable {σ υ ς : Type} (S : AccountStore σ υ ς)

theorem AccountStore.Same.refl (s : σ) : S.Same s s := ⟨rfl, rfl⟩

/-- What does not fail, and is no search, succeeds. -/
theorem AccountStore.ok_of_answered {s : σ} {op : AccountOp} (hop : ¬op.looksUp)
    (h : Answered op (S.exec s op).1) : ∃ r, (S.exec s op).1 = .ok r := by
  cases hr : (S.exec s op).1 with
  | ok r => exact ⟨r, rfl⟩
  | error e =>
    cases e with
    | notFound => exact absurd hr (S.exec_ne_notFound s op hop)
    | failed doing => exact absurd hr (h doing)

end laws

/-! ## The two stores -/

/-- The store in memory. -/
def memStore (lower : Char → Char) (scan : Scan User Session) :
    AccountStore MemAccounts User Session where
  exec := MemAccounts.exec lower scan
  users m := m.users.get
  sessions m := m.sessions.get
  admins m := m.users.rows.countP (·.enabledAdmin)
  user := id
  row u _ := { u with username := normaliseUsername lower u.username }
  owner := (·.userID)
  exec_reads m op hop := by cases op <;> first | rfl | cases hop
  exec_ne_notFound m op hop := by
    cases op <;> first | exact absurd rfl hop | simp [MemAccounts.exec]
  deleteUser_notFound m id h := by
    rw [MemAccounts.exec] at h ⊢
    cases hu : m.users.get id <;> simp [hu] at h ⊢
  countAdmins m := rfl
  getUser m id := by simp [MemAccounts.exec]
  userID_user m id u hu := Keyed.key_of_get hu
  putUser m u _ := by
    refine ⟨funext fun k ↦ ?_, rfl⟩
    rw [Function.update_apply]
    exact Keyed.get_put
  deleteUserSessions m id n _ := by
    refine ⟨rfl, funext fun k ↦ ?_⟩
    simp [MemAccounts.exec, Keyed.get_deleteWhere]

section commit

variable {α : Type} {d : SqlAccounts} {doing : String} {t : AccountTables} {r : α}

theorem SqlAccounts.commit_ne_notFound : (d.commit doing t r).1 ≠ .error .notFound := by
  rw [commit]
  split <;> simp

theorem SqlAccounts.commit_tables {r' : α} (h : (d.commit doing t r).1 = .ok r') :
    (d.commit doing t r).2.toAccountTables = t := by
  rw [commit] at h ⊢
  split at h
  · rename_i ht
    rw [dif_pos ht]
  · cases h

end commit

/-- The database. -/
def sqlStore (lower : Char → Char) (scan : Scan UserRow SessionRow) :
    AccountStore SqlAccounts UserRow SessionRow where
  exec := SqlAccounts.exec lower scan
  users d := d.users.get
  sessions d := d.sessions.get
  admins d := d.users.rows.countP fun r ↦ r.role = "admin" ∧ r.disabled = 0
  user := userFrom
  row u := (UserRow.of u).upsert
  owner := (·.userID)
  exec_reads d op hop := by cases op <;> first | rfl | cases hop
  exec_ne_notFound d op hop := by
    cases op with
    | countUsers | countAdmins | listUsers | listSessions limit => simp [SqlAccounts.exec]
    | putUser u => exact SqlAccounts.commit_ne_notFound
    | putSession session =>
      rw [SqlAccounts.exec, SqlAccounts.putSession]
      split
      · exact SqlAccounts.commit_ne_notFound
      · simp
    | deleteUserSessions id | purgeExpiredSessions now => exact SqlAccounts.commit_ne_notFound
    | _ => exact absurd rfl hop
  deleteUser_notFound d id h := by
    rw [SqlAccounts.exec, SqlAccounts.deleteUser] at h ⊢
    split at h
    · rfl
    · exact absurd h SqlAccounts.commit_ne_notFound
  countAdmins d := rfl
  getUser d id := rfl
  userID_user d id r hr := by
    have hkey : r.userID = id := Keyed.key_of_get hr
    exact hkey
  putUser d u h := by
    have ht := SqlAccounts.commit_tables h
    have hkey : ((UserRow.of u).upsert (d.users.get u.userID)).userID = u.userID := by
      cases d.users.get u.userID <;> rfl
    refine ⟨funext fun k ↦ ?_, congrArg (fun t ↦ t.sessions.get) ht⟩
    calc (d.putUser u).2.users.get k
      _ = (d.users.put ((UserRow.of u).upsert (d.users.get u.userID))).get k :=
        congrArg (fun t ↦ t.users.get k) ht
      _ = Function.update d.users.get u.userID
          (some ((UserRow.of u).upsert (d.users.get u.userID))) k := by
        rw [Keyed.get_put, Function.update_apply, hkey]
  deleteUserSessions d id n h := by
    have ht := SqlAccounts.commit_tables h
    refine ⟨congrArg (fun t ↦ t.users.get) ht, funext fun k ↦ ?_⟩
    calc (SqlAccounts.exec lower scan d (.deleteUserSessions id)).2.sessions.get k
      _ = (d.sessions.deleteWhere (·.userID = id)).get k :=
        congrArg (fun t ↦ t.sessions.get k) ht
      _ = (d.sessions.get k).filter fun r ↦ r.userID ≠ id := by
        simp [Keyed.get_deleteWhere]

end ClassG.Store
