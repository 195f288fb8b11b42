import ClassG.Store.AccountStore

/-!
# Stores as tables of users

What becomes of the users when a store is called, whatever is called of it: only `PutUser` and
`DeleteUser` change them, and each only where it succeeds.  The store in memory and the database are
both such tables.
-/

set_option autoImplicit false

namespace ClassG.Auth

/-- The same account: what may differ is how its name and the times are kept. -/
structure User.SameAccount (u v : User) : Prop where
  userID : u.userID = v.userID
  role : u.role = v.role
  disabled : u.disabled = v.disabled
  issuer : u.issuer = v.issuer
  subject : u.subject = v.subject
  passwordHash : u.passwordHash = v.passwordHash

theorem User.sameAccount_username (u : User) (name : String) :
    ({ u with username := name } : User).SameAccount u := ⟨rfl, rfl, rfl, rfl, rfl, rfl⟩

theorem User.SameAccount.refl (u : User) : u.SameAccount u := ⟨rfl, rfl, rfl, rfl, rfl, rfl⟩

theorem User.SameAccount.symm {u v : User} (h : u.SameAccount v) : v.SameAccount u where
  userID := h.userID.symm
  role := h.role.symm
  disabled := h.disabled.symm
  issuer := h.issuer.symm
  subject := h.subject.symm
  passwordHash := h.passwordHash.symm

theorem User.SameAccount.trans {u v w : User} (h : u.SameAccount v) (h' : v.SameAccount w) :
    u.SameAccount w where
  userID := h.userID.trans h'.userID
  role := h.role.trans h'.role
  disabled := h.disabled.trans h'.disabled
  issuer := h.issuer.trans h'.issuer
  subject := h.subject.trans h'.subject
  passwordHash := h.passwordHash.trans h'.passwordHash

theorem User.SameAccount.enabledAdmin {u v : User} (h : u.SameAccount v) :
    u.enabledAdmin = v.enabledAdmin := by
  rw [User.enabledAdmin, User.enabledAdmin, h.role, h.disabled]

end ClassG.Auth

namespace ClassG.Store

open Auth

/-- The operation may change the users. -/
def AccountOp.writesUsers : AccountOp → Bool
  | putUser _ | deleteUser _ => true
  | _ => false

/-- A store whose users are a table. -/
structure UserTable (σ υ ς : Type) extends AccountStore σ υ ς where
  users_of_other : ∀ s (op : AccountOp), ¬op.writesUsers → users (exec s op).2 = users s
  putUser_error : ∀ s u e, (exec s (.putUser u)).1 = .error e →
    users (exec s (.putUser u)).2 = users s
  deleteUser_error : ∀ s id e, (exec s (.deleteUser id)).1 = .error e →
    users (exec s (.deleteUser id)).2 = users s
  deleteUser : ∀ s id, (exec s (.deleteUser id)).1 = .ok () →
    users (exec s (.deleteUser id)).2 = Function.update (users s) id none
  user_row : ∀ u old, (user (row u old)).SameAccount u
  countUsers : ∀ s, ∃ n, (exec s .countUsers).1 = .ok n ∧ (n = 0 ↔ ∀ id, users s id = none)
  exists_ne_of_one_lt_admins : ∀ s, 1 < admins s → ∀ id, ∃ id' r, users s id' = some r ∧
    (user r).enabledAdmin ∧ id' ≠ id
  getUserByUsername : ∀ s name u, (exec s (.getUserByUsername name)).1 = .ok u →
    ∃ r, users s u.userID = some r ∧ user r = u
  getUserByOIDC : ∀ s issuer subject u, (exec s (.getUserByOIDC issuer subject)).1 = .ok u →
    (∃ r, users s u.userID = some r ∧ user r = u) ∧ u.issuer = issuer ∧ u.subject = subject
  getUserByOIDC_notFound : ∀ s issuer subject, issuer ≠ "" →
    (exec s (.getUserByOIDC issuer subject)).1 = .error .notFound → ∀ id r, users s id = some r →
      (user r).issuer = issuer → (user r).subject ≠ subject

namespace UserTable

variable {σ υ ς : Type} (S : UserTable σ υ ς) {s : σ} {op : AccountOp}

/-- The user with this id. -/
def lookup (s : σ) (id : String) : Option User := (S.users s id).map S.user

theorem exec_getUser (s : σ) (id : String) : (S.exec s (.getUser id)).1 = found (S.lookup s id) :=
  S.getUser s id

theorem userID_of_lookup {id : String} {u : User} (h : S.lookup s id = some u) : u.userID = id := by
  obtain ⟨r, hr, rfl⟩ := Option.map_eq_some_iff.mp h
  exact S.userID_user s id r hr

theorem lookup_of_username {name : String} {u : User}
    (h : (S.exec s (.getUserByUsername name)).1 = .ok u) : S.lookup s u.userID = some u := by
  obtain ⟨r, hr, hu⟩ := S.getUserByUsername s name u h
  rw [lookup, hr, Option.map_some, hu]

theorem lookup_of_oidc {issuer subject : String} {u : User}
    (h : (S.exec s (.getUserByOIDC issuer subject)).1 = .ok u) : S.lookup s u.userID = some u := by
  obtain ⟨⟨r, hr, hu⟩, -⟩ := S.getUserByOIDC s issuer subject u h
  rw [lookup, hr, Option.map_some, hu]

variable {S} in
theorem lookup_putUser {u : User} (h : (S.exec s (.putUser u)).1 = .ok ()) :
    ∃ v : User, v.SameAccount u ∧
      S.lookup (S.exec s (.putUser u)).2 = Function.update (S.lookup s) u.userID (some v) := by
  refine ⟨_, S.user_row u (S.users s u.userID), funext fun k ↦ ?_⟩
  rw [lookup, (S.putUser s u h).1, Function.update_apply, Function.update_apply, lookup]
  split <;> rfl

variable {S} in
theorem lookup_deleteUser {id : String} (h : (S.exec s (.deleteUser id)).1 = .ok ()) :
    S.lookup (S.exec s (.deleteUser id)).2 = Function.update (S.lookup s) id none := by
  funext k
  rw [lookup, S.deleteUser s id h, Function.update_apply, Function.update_apply, lookup]
  split <;> rfl

theorem lookup_of_other (hop : ¬op.writesUsers) : S.lookup (S.exec s op).2 = S.lookup s := by
  funext k
  rw [lookup, S.users_of_other s op hop, lookup]

theorem lookup_of_error {e : StoreError} (he : (S.exec s op).1 = .error e) :
    S.lookup (S.exec s op).2 = S.lookup s := by
  funext k
  cases op with
  | putUser u => rw [lookup, S.putUser_error s u e he, lookup]
  | deleteUser id => rw [lookup, S.deleteUser_error s id e he, lookup]
  | _ => rw [S.lookup_of_other (by simp [AccountOp.writesUsers])]

/-- What an operation may do to the users. -/
inductive Effect (s : σ) : AccountOp → Prop
  | nothing {op : AccountOp} (h : S.lookup (S.exec s op).2 = S.lookup s) : Effect s op
  | put {u v : User} (hok : (S.exec s (.putUser u)).1 = .ok ()) (hv : v.SameAccount u)
      (h : S.lookup (S.exec s (.putUser u)).2 =
        Function.update (S.lookup s) u.userID (some v)) : Effect s (.putUser u)
  | delete {id : String} (hok : (S.exec s (.deleteUser id)).1 = .ok ())
      (h : S.lookup (S.exec s (.deleteUser id)).2 = Function.update (S.lookup s) id none) :
      Effect s (.deleteUser id)

theorem effect (s : σ) (op : AccountOp) : S.Effect s op := by
  cases hans : (S.exec s op).1 with
  | error e => exact .nothing (S.lookup_of_error hans)
  | ok r =>
    cases op with
    | putUser u =>
      obtain ⟨v, hv, h⟩ := lookup_putUser hans
      exact .put hans hv h
    | deleteUser id => exact .delete hans (lookup_deleteUser hans)
    | _ => exact .nothing (S.lookup_of_other (by simp [AccountOp.writesUsers]))

end UserTable

/-! ## The two stores -/

theorem MemAccounts.user_of_find {scan : Scan User Session} {m : MemAccounts} {p : User → Bool}
    {u : User} (h : (scan.users m.users.rows).find? p = some u) :
    ∃ r, m.users.get u.userID = some r ∧ r = u :=
  ⟨u, Keyed.mem_rows.mp ((scan.users_perm _).mem_iff.mp (List.mem_of_find?_eq_some h)), rfl⟩

/-- The store in memory. -/
def memTable (lower : Char → Char) (scan : Scan User Session) :
    UserTable MemAccounts User Session where
  toAccountStore := memStore lower scan
  users_of_other m op hop := by
    cases op with
    | putUser | deleteUser => exact absurd rfl hop
    | touchSession id | deleteSession id =>
      simp only [memStore, MemAccounts.exec]
      split <;> rfl
    | _ => rfl
  putUser_error m u e he := by cases he
  deleteUser_error m id e he := by
    simp only [memStore, MemAccounts.exec] at he ⊢
    split at he
    · rfl
    · cases he
  deleteUser m id h := by
    simp only [memStore, MemAccounts.exec] at h ⊢
    split at h
    · cases h
    · funext k
      rw [Function.update_apply]
      exact Keyed.get_delete
  user_row u old := u.sameAccount_username _
  countUsers m := ⟨_, rfl, m.users.length_rows_eq_zero_iff⟩
  exists_ne_of_one_lt_admins m h id := by
    obtain ⟨u, hu, hadmin, hid⟩ := Keyed.exists_key_ne_of_one_lt_countP h id
    exact ⟨_, u, Keyed.mem_rows.mp hu, hadmin, hid⟩
  getUserByUsername m name u h := MemAccounts.user_of_find (found_eq_ok.mp h)
  getUserByOIDC m issuer subject u h := by
    have hfind := found_eq_ok.mp h
    rw [MemAccounts.getUserByOIDC] at hfind
    split at hfind
    · cases hfind
    · have hp := List.find?_some hfind
      rw [decide_eq_true_eq] at hp
      exact ⟨MemAccounts.user_of_find hfind, hp⟩
  getUserByOIDC_notFound m issuer subject hissuer h id u hu hu' hsubject := by
    have hfind := found_eq_notFound.mp h
    rw [MemAccounts.getUserByOIDC, if_neg hissuer, List.find?_eq_none] at hfind
    have hmem : u ∈ scan.users m.users.rows :=
      (scan.users_perm _).mem_iff.mpr (Keyed.mem_rows_of_get hu)
    exact hfind u hmem (by simpa using ⟨hu', hsubject⟩)

theorem SqlAccounts.commit_error {α : Type} {d : SqlAccounts} {doing : String} {t : AccountTables}
    {r : α} {e : StoreError} (h : (d.commit doing t r).1 = .error e) :
    (d.commit doing t r).2 = d := by
  rw [commit] at h ⊢
  split at h
  · cases h
  · rename_i ht
    rw [dif_neg ht]

/-- A statement on the sessions. -/
theorem SqlAccounts.commit_users {α : Type} (d : SqlAccounts) (doing : String)
    (sessions : Keyed SessionRow.sessionID) (r : α) :
    (d.commit doing ⟨d.users, sessions⟩ r).2.users.get = d.users.get := by
  rw [commit]
  split <;> rfl

theorem SqlAccounts.user_of_find {scan : Scan UserRow SessionRow} {d : SqlAccounts}
    {p : UserRow → Bool} {u : User}
    (h : ((scan.users d.users.rows).find? p).map userFrom = some u) :
    ∃ r, d.users.get u.userID = some r ∧ userFrom r = u ∧ p r := by
  obtain ⟨r, hr, rfl⟩ := Option.map_eq_some_iff.mp h
  exact ⟨r, Keyed.mem_rows.mp ((scan.users_perm _).mem_iff.mp (List.mem_of_find?_eq_some hr)), rfl,
    List.find?_some hr⟩

theorem userFrom_upsert (u : User) (old : Option UserRow) :
    (userFrom ((UserRow.of u).upsert old)).SameAccount u := by
  have hof : (userFrom (UserRow.of u)).SameAccount u := by
    refine ⟨rfl, rfl, ?_, rfl, rfl, ?_⟩
    · cases hd : u.disabled <;> simp [userFrom, UserRow.of, boolToInt, hd]
    · rw [userFrom, UserRow.of, nullStr]
      split <;> simp [*]
  cases old with
  | none => exact hof
  | some r => exact ⟨hof.userID, hof.role, hof.disabled, hof.issuer, hof.subject, hof.passwordHash⟩

/-- The database. -/
def sqlTable (lower : Char → Char) (scan : Scan UserRow SessionRow) :
    UserTable SqlAccounts UserRow SessionRow where
  toAccountStore := sqlStore lower scan
  users_of_other d op hop := by
    cases op with
    | putUser | deleteUser => exact absurd rfl hop
    | putSession session =>
      simp only [sqlStore, SqlAccounts.exec, SqlAccounts.putSession]
      split
      · exact d.commit_users _ _ _
      · rfl
    | touchSession id =>
      simp only [sqlStore, SqlAccounts.exec, SqlAccounts.touchSession]
      split
      · rfl
      · exact d.commit_users _ _ _
    | deleteSession id =>
      have hsessions := d.commit_users "deleting session"
        (d.sessions.deleteWhere (·.sessionID = id)) (d.sessions.rows.countP (·.sessionID = id))
      simp only [sqlStore, SqlAccounts.exec, SqlAccounts.deleteSession, SqlAccounts.deleteSessions]
      split <;> rename_i heq <;> rw [heq] at hsessions <;> exact hsessions
    | deleteUserSessions | purgeExpiredSessions => exact d.commit_users _ _ _
    | _ => rfl
  putUser_error d u e he := congrArg (·.users.get) (SqlAccounts.commit_error he)
  deleteUser_error d id e he := by
    simp only [sqlStore, SqlAccounts.exec, SqlAccounts.deleteUser] at he ⊢
    split at he
    · rfl
    · exact congrArg (·.users.get) (SqlAccounts.commit_error he)
  deleteUser d id h := by
    simp only [sqlStore, SqlAccounts.exec, SqlAccounts.deleteUser] at h ⊢
    split at h
    · cases h
    · funext k
      rw [Function.update_apply]
      exact (congrArg (fun t ↦ t.users.get k) (SqlAccounts.commit_tables h)).trans Keyed.get_delete
  user_row u old := userFrom_upsert u old
  countUsers d := ⟨_, rfl, d.users.length_rows_eq_zero_iff⟩
  exists_ne_of_one_lt_admins d h id := by
    obtain ⟨r, hr, hadmin, hid⟩ := Keyed.exists_key_ne_of_one_lt_countP h id
    refine ⟨_, r, Keyed.mem_rows.mp hr, ?_, hid⟩
    rw [decide_eq_true_eq] at hadmin
    have hrole : (userFrom r).role = .admin := congrArg Role.mk hadmin.1
    have henabled : ¬(userFrom r).disabled := by simp [userFrom, hadmin.2]
    exact decide_eq_true ⟨hrole, henabled⟩
  getUserByUsername d name u h := by
    obtain ⟨r, hr, hu, -⟩ := SqlAccounts.user_of_find (found_eq_ok.mp h)
    exact ⟨r, hr, hu⟩
  getUserByOIDC d issuer subject u h := by
    obtain ⟨r, hr, rfl, hp⟩ := SqlAccounts.user_of_find (found_eq_ok.mp h)
    rw [decide_eq_true_eq] at hp
    exact ⟨⟨r, hr, rfl⟩, hp.1, hp.2.2⟩
  getUserByOIDC_notFound d issuer subject hissuer h id r hr hr' hsubject := by
    have hfind := Option.map_eq_none_iff.mp (found_eq_notFound.mp h)
    rw [List.find?_eq_none] at hfind
    have hmem : r ∈ scan.users d.users.rows :=
      (scan.users_perm _).mem_iff.mpr (Keyed.mem_rows_of_get hr)
    have hissuer' : r.issuer = issuer := hr'
    have hsubject' : r.subject = subject := hsubject
    exact hfind r hmem (by simp [hissuer', hissuer, hsubject'])

end ClassG.Store
