import ClassG.Store.UserTable

/-!
# Stores as tables of sessions

What becomes of the sessions when a store is called: `PutSession` adds one, and anything else can
only take sessions away.  As long as there is a session, it is the session of one user.
-/

set_option autoImplicit false

namespace ClassG.Store

open Auth

/-- A store whose sessions are a table too. -/
structure SessionTable (σ υ ς : Type) extends UserTable σ υ ς where
  getSession : ∀ s id sess, (exec s (.getSession id)).1 = .ok sess →
    (sessions s id).map owner = some sess.userID
  /-- Without a limit all sessions are listed. -/
  listSessions : ∀ s l, (exec s (.listSessions 0)).1 = .ok l → ∀ id r, sessions s id = some r →
    ∃ sess ∈ l, sess.sessionID = id ∧ sess.userID = owner r
  sessions_of_other : ∀ s (op : AccountOp), (∀ sess, op ≠ .putSession sess) → ∀ id,
    (sessions (exec s op).2 id).map owner = none ∨
      (sessions (exec s op).2 id).map owner = (sessions s id).map owner
  putSession : ∀ s sess id, id ≠ sess.sessionID →
    sessions (exec s (.putSession sess)).2 id = sessions s id
  deleteSession : ∀ s id, Answered (.deleteSession id) (exec s (.deleteSession id)).1 →
    sessions (exec s (.deleteSession id)).2 id = none
  deleteUserSessions_ok : ∀ s id, ∃ n, (exec s (.deleteUserSessions id)).1 = .ok n
  /-- The sessions of a user go with the user. -/
  deleteUser_sessions : ∀ s id, (exec s (.deleteUser id)).1 = .ok () → ∀ id' r,
    sessions (exec s (.deleteUser id)).2 id' = some r → owner r ≠ id

namespace SessionTable

variable {σ υ ς : Type} (S : SessionTable σ υ ς)

/-- Whose session it is, if there is one with this id. -/
def ownerOf (s : σ) (id : String) : Option String := (S.sessions s id).map S.owner

/-- Any operation but the one that puts the session. -/
theorem ownerOf_exec (s : σ) (op : AccountOp) (id : String)
    (h : ∀ sess, op = .putSession sess → id ≠ sess.sessionID) :
    S.ownerOf (S.exec s op).2 id = none ∨ S.ownerOf (S.exec s op).2 id = S.ownerOf s id := by
  by_cases hput : ∃ sess, op = .putSession sess
  · obtain ⟨sess, rfl⟩ := hput
    exact .inr (congrArg (Option.map S.owner) (S.putSession s sess id (h sess rfl)))
  · exact S.sessions_of_other s op (fun sess hop ↦ hput ⟨sess, hop⟩) id

theorem ownerOf_deleteSession {s : σ} {id : String}
    (h : Answered (.deleteSession id) (S.exec s (.deleteSession id)).1) :
    S.ownerOf (S.exec s (.deleteSession id)).2 id = none := by
  rw [ownerOf, S.deleteSession s id h, Option.map_none]

theorem ownerOf_deleteUserSessions (s : σ) (id id' : String) :
    S.ownerOf (S.exec s (.deleteUserSessions id)).2 id' ≠ some id := by
  obtain ⟨n, hn⟩ := S.deleteUserSessions_ok s id
  rw [ownerOf, (S.deleteUserSessions s id n hn).2]
  intro howner
  obtain ⟨r, hr, rfl⟩ := Option.map_eq_some_iff.mp howner
  simpa using (Option.filter_eq_some_iff.mp hr).2

theorem ownerOf_deleteUser {s : σ} {id : String} (h : (S.exec s (.deleteUser id)).1 = .ok ())
    (id' : String) : S.ownerOf (S.exec s (.deleteUser id)).2 id' ≠ some id := by
  intro howner
  obtain ⟨r, hr, hid⟩ := Option.map_eq_some_iff.mp howner
  exact S.deleteUser_sessions s id h id' r hr hid

/-- Who has a session finds it in the list. -/
theorem mem_of_listSessions {s : σ} {l : List Session} {id u : String}
    (h : (S.exec s (.listSessions 0)).1 = .ok l) (hu : S.ownerOf s id = some u) :
    ∃ sess ∈ l, sess.sessionID = id ∧ sess.userID = u := by
  obtain ⟨r, hr, rfl⟩ := Option.map_eq_some_iff.mp hu
  exact S.listSessions s l h id r hr

end SessionTable

/-! ## The two stores -/

/-- A row that is filtered out is gone, and any other stays. -/
theorem map_filter_cases {α β : Type} (f : α → β) (p : α → Bool) (x : Option α) :
    (x.filter p).map f = none ∨ (x.filter p).map f = x.map f := by
  rcases x with _ | a
  · exact .inl rfl
  · rw [Option.filter_some]
    split
    · exact .inr rfl
    · exact .inl rfl

/-- Deleting rows, of sessions that are owned. -/
theorem map_deleteWhere_cases {κ ν β : Type} [DecidableEq κ] {key : ν → κ} (t : Keyed key)
    (f : ν → β) (p : ν → Bool) (k : κ) :
    ((t.deleteWhere p).get k).map f = none ∨
      ((t.deleteWhere p).get k).map f = (t.get k).map f := by
  rw [Keyed.get_deleteWhere]
  exact map_filter_cases f _ _

/-- Putting a row where there is one already, for the same user. -/
theorem map_put_of_same {κ ν β : Type} [DecidableEq κ] {key : ν → κ} {t : Keyed key} {f : ν → β}
    {v v' : ν} {k : κ} (hv' : t.get k = some v') (hkey : key v = k) (hf : f v = f v') (j : κ) :
    ((t.put v).get j).map f = (t.get j).map f := by
  rw [Keyed.get_put, hkey]
  split
  · rename_i hj
    rw [hj, hv', Option.map_some, Option.map_some, hf]
  · rfl

/-- The store in memory. -/
def memSessions (lower : Char → Char) (scan : Scan User Session) :
    SessionTable MemAccounts User Session where
  toUserTable := memTable lower scan
  getSession m id sess h := by
    have hget : m.sessions.get id = some sess := found_eq_ok.mp h
    exact congrArg (Option.map Session.userID) hget
  listSessions m l h id r hr := by
    obtain rfl := Except.ok.inj h
    have hkey : r.sessionID = id := Keyed.key_of_get hr
    refine ⟨r, ?_, hkey, rfl⟩
    rw [MemAccounts.listSessions, if_neg (by simp), sortSlice]
    exact (List.perm_insertionSort _ _).mem_iff.mpr
      ((scan.sessions_perm _).mem_iff.mpr (Keyed.mem_rows_of_get hr))
  sessions_of_other m op hop id := by
    cases op with
    | putSession sess => exact absurd rfl (hop sess)
    | deleteUser u =>
      simp only [memTable, memStore, MemAccounts.exec]
      split
      · exact .inr rfl
      · exact map_deleteWhere_cases _ _ _ _
    | touchSession k lastSeen expiresAt =>
      simp only [memTable, memStore, MemAccounts.exec]
      split
      · exact .inr rfl
      · rename_i r hr
        have hkey : r.sessionID = k := Keyed.key_of_get hr
        refine .inr (map_put_of_same hr ?_ ?_ id)
        · exact hkey
        · rfl
    | deleteSession k =>
      simp only [memTable, memStore, MemAccounts.exec]
      split
      · exact .inr rfl
      · rw [Keyed.get_delete]
        split
        · exact .inl rfl
        · exact .inr rfl
    | deleteUserSessions | purgeExpiredSessions => exact map_deleteWhere_cases _ _ _ _
    | _ => exact .inr rfl
  putSession m sess id h := by
    simp only [memTable, memStore, MemAccounts.exec]
    rw [Keyed.get_put, if_neg h]
  deleteSession m id _ := by
    simp only [memTable, memStore, MemAccounts.exec]
    split
    · assumption
    · rw [Keyed.get_delete, if_pos rfl]
  deleteUserSessions_ok m id := ⟨_, rfl⟩
  deleteUser_sessions m id h id' r hr := by
    simp only [memTable, memStore, MemAccounts.exec] at h hr
    cases hu : m.users.get id with
    | none =>
      rw [hu] at h
      cases h
    | some u =>
      rw [hu] at hr
      simp only [MemAccounts.deleteUser, Keyed.get_deleteWhere] at hr
      simpa [memTable, memStore] using (Option.filter_eq_some_iff.mp hr).2

theorem SqlAccounts.commit_sessions {α : Type} (d : SqlAccounts) (doing : String)
    (t : AccountTables) (r : α) :
    (d.commit doing t r).2.sessions = t.sessions ∨
      (d.commit doing t r).2.sessions = d.sessions := by
  rw [commit]
  split
  · exact .inl rfl
  · exact .inr rfl

/-- A statement on `sessions` that takes sessions away. -/
theorem SqlAccounts.commit_owner {α : Type} (d : SqlAccounts) (doing : String) (t : AccountTables)
    (r : α) (id : String)
    (h : (t.sessions.get id).map SessionRow.userID = none ∨
      (t.sessions.get id).map SessionRow.userID = (d.sessions.get id).map SessionRow.userID) :
    ((d.commit doing t r).2.sessions.get id).map SessionRow.userID = none ∨
      ((d.commit doing t r).2.sessions.get id).map SessionRow.userID =
        (d.sessions.get id).map SessionRow.userID := by
  rcases d.commit_sessions doing t r with hs | hs
  · rwa [hs]
  · exact .inr (by rw [hs])

/-- Without some of the sessions the constraints hold too. -/
theorem AccountTables.Consistent.deleteSessions {t : AccountTables} (h : t.Consistent)
    (p : SessionRow → Bool) :
    (⟨t.users, t.sessions.deleteWhere p⟩ : AccountTables).Consistent where
  username := h.username
  oidc := h.oidc
  userID s hs := h.userID s (Keyed.mem_rows_deleteWhere.mp hs).1

theorem SqlAccounts.deleteSessions_eq (d : SqlAccounts) (doing : String) (p : SessionRow → Bool) :
    d.deleteSessions doing p = (.ok (d.sessions.rows.countP p),
      ⟨⟨d.users, d.sessions.deleteWhere p⟩, d.consistent.deleteSessions p⟩) :=
  dif_pos (d.consistent.deleteSessions p)

/-- The database. -/
def sqlSessions (lower : Char → Char) (scan : Scan UserRow SessionRow) :
    SessionTable SqlAccounts UserRow SessionRow where
  toUserTable := sqlTable lower scan
  getSession d id sess h := by
    obtain ⟨r, hr, rfl⟩ := Option.map_eq_some_iff.mp (found_eq_ok.mp h)
    exact congrArg (Option.map SessionRow.userID) hr
  listSessions d l h id r hr := by
    obtain rfl := Except.ok.inj h
    have hkey : r.sessionID = id := Keyed.key_of_get hr
    refine ⟨sessionFrom r, List.mem_map_of_mem ?_, hkey, rfl⟩
    rw [if_pos le_rfl, SqlAccounts.sqlLimit, if_pos (by decide)]
    exact (List.perm_insertionSort _ _).mem_iff.mpr
      ((scan.sessions_perm _).mem_iff.mpr (Keyed.mem_rows_of_get hr))
  sessions_of_other d op hop id := by
    cases op with
    | putSession sess => exact absurd rfl (hop sess)
    | putUser u => exact d.commit_owner _ _ _ id (.inr rfl)
    | deleteUser u =>
      simp only [sqlTable, sqlStore, SqlAccounts.exec, SqlAccounts.deleteUser]
      split
      · exact .inr rfl
      · exact d.commit_owner _ _ _ id (map_deleteWhere_cases _ _ _ _)
    | touchSession k lastSeen expiresAt =>
      simp only [sqlTable, sqlStore, SqlAccounts.exec, SqlAccounts.touchSession]
      split
      · exact .inr rfl
      · rename_i r hr
        have hkey : r.sessionID = k := Keyed.key_of_get hr
        refine d.commit_owner _ _ _ id (.inr (map_put_of_same hr ?_ ?_ id))
        · exact hkey
        · rfl
    | deleteSession k =>
      simp only [sqlTable, sqlStore, SqlAccounts.exec, SqlAccounts.deleteSession,
        SqlAccounts.deleteSessions_eq]
      exact map_deleteWhere_cases _ _ _ _
    | deleteUserSessions | purgeExpiredSessions =>
      exact d.commit_owner _ _ _ id (map_deleteWhere_cases _ _ _ _)
    | _ => exact .inr rfl
  putSession d sess id h := by
    simp only [sqlTable, sqlStore, SqlAccounts.exec, SqlAccounts.putSession]
    split
    · have hcommit := d.commit_sessions "putting session" ⟨d.users, d.sessions.put (.of sess)⟩ ()
      rcases hcommit with hs | hs
      · rw [hs]
        exact Keyed.get_put.trans (if_neg h)
      · rw [hs]
    · rfl
  deleteSession d id _ := by
    simp only [sqlTable, sqlStore, SqlAccounts.exec, SqlAccounts.deleteSession,
      SqlAccounts.deleteSessions_eq]
    rw [Keyed.get_deleteWhere_key, Keyed.get_delete, if_pos rfl]
  deleteUserSessions_ok d id := ⟨_, congrArg Prod.fst (d.deleteSessions_eq _ _)⟩
  deleteUser_sessions d id h id' r hr := by
    simp only [sqlTable, sqlStore, SqlAccounts.exec, SqlAccounts.deleteUser] at h hr
    cases hu : d.users.get id with
    | none =>
      rw [hu] at h
      cases h
    | some u =>
      rw [hu] at h hr
      have ht : (d.commit "deleting user"
          ⟨d.users.delete id, d.sessions.deleteWhere (·.userID = id)⟩ ()).2.sessions =
            d.sessions.deleteWhere (·.userID = id) :=
        congrArg AccountTables.sessions (SqlAccounts.commit_tables h)
      rw [ht, Keyed.get_deleteWhere] at hr
      simpa [sqlTable, sqlStore] using (Option.filter_eq_some_iff.mp hr).2

end ClassG.Store
