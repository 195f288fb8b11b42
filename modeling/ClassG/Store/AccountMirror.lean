import Mathlib.Data.List.Find
import ClassG.Store.Accounts
import ClassG.Store.Contents

/-!
# One account in two stores

The database `Mirrors` memory when it has a row for each user and session and no others.  Then every
read answers alike, and so does every write that `Fits`: one that the constraints of the schema
admit, and that both stores take to mean the same.
-/

set_option autoImplicit false

namespace ClassG.Auth

/-! ## What a row can hold -/

/-- The user comes back from a row as it was. -/
structure User.Storable (u : User) : Prop where
  createdAt : GoTime.InRange u.createdAt
  updatedAt : GoTime.InRange u.updatedAt
  lastLoginAt : ∀ t ∈ u.lastLoginAt, t ≠ 0 ∧ GoTime.InRange t

structure Session.Storable (s : Session) : Prop where
  createdAt : GoTime.InRange s.createdAt
  expiresAt : GoTime.InRange s.expiresAt
  lastSeen : GoTime.InRange s.lastSeen

instance (u : User) : Decidable u.Storable :=
  decidable_of_iff (GoTime.InRange u.createdAt ∧ GoTime.InRange u.updatedAt ∧
      ∀ t ∈ u.lastLoginAt, t ≠ 0 ∧ GoTime.InRange t)
    ⟨fun ⟨h1, h2, h3⟩ ↦ ⟨h1, h2, h3⟩, fun ⟨h1, h2, h3⟩ ↦ ⟨h1, h2, h3⟩⟩

instance (s : Session) : Decidable s.Storable :=
  decidable_of_iff
    (GoTime.InRange s.createdAt ∧ GoTime.InRange s.expiresAt ∧ GoTime.InRange s.lastSeen)
    ⟨fun ⟨h1, h2, h3⟩ ↦ ⟨h1, h2, h3⟩, fun ⟨h1, h2, h3⟩ ↦ ⟨h1, h2, h3⟩⟩

end ClassG.Auth

namespace ClassG.Store

open Auth

theorem nullStr_getD (s : String) : (nullStr s).getD "" = s := by
  rw [nullStr]
  split
  · rename_i h
    exact h.symm
  · rfl

theorem nullTimePtr_map {t : Option GoTime} (h : ∀ u ∈ t, u ≠ 0 ∧ GoTime.InRange u) :
    (nullTimePtr t).map fromDB = t := by
  cases t with
  | none => rfl
  | some u =>
    obtain ⟨h0, hr⟩ := h u rfl
    rw [nullTimePtr, if_neg h0, Option.map_some, fromDB_toDB hr]

/-- **What a row was made of comes back from it.** -/
theorem userFrom_of {u : User} (h : u.Storable) : userFrom (.of u) = u := by
  have hdisabled : decide (boolToInt u.disabled ≠ 0) = u.disabled := by
    cases u.disabled <;> rfl
  rw [userFrom, UserRow.of]
  simp only [fromDB_toDB h.createdAt, fromDB_toDB h.updatedAt, nullTimePtr_map h.lastLoginAt,
    nullStr_getD, hdisabled]

theorem sessionFrom_of {s : Session} (h : s.Storable) : sessionFrom (.of s) = s := by
  rw [sessionFrom, SessionRow.of]
  simp only [fromDB_toDB h.createdAt, fromDB_toDB h.expiresAt, fromDB_toDB h.lastSeen]

/-! ## The constraints -/

section constraints

variable {d : SqlAccounts} {t : AccountTables} {α : Type} {doing : String} {r : α}

theorem SqlAccounts.commit_of (h : t.Consistent) : d.commit doing t r = (.ok r, ⟨t, h⟩) := dif_pos h

/-- Sessions may always go. -/
theorem consistent_deleteSessions (h : t.Consistent) (p : SessionRow → Bool) :
    (⟨t.users, t.sessions.deleteWhere p⟩ : AccountTables).Consistent where
  username := h.username
  oidc := h.oidc
  userID s hs := by
    rw [Keyed.mem_rows, Keyed.get_deleteWhere] at hs
    exact h.userID s (Keyed.mem_rows.mpr (Option.filter_eq_some_iff.mp hs).1)

/-- A user may go with all sessions. -/
theorem consistent_deleteUser (h : t.Consistent) (id : String) :
    (⟨t.users.delete id, t.sessions.deleteWhere (·.userID = id)⟩ : AccountTables).Consistent := by
  have hmem {r : UserRow} (hr : r ∈ (t.users.delete id).rows) : r ∈ t.users.rows := by
    rw [Keyed.mem_rows, Keyed.get_delete] at hr
    split at hr
    · cases hr
    · exact Keyed.mem_rows.mpr hr
  refine ⟨fun r hr r' hr' ↦ h.username r (hmem hr) r' (hmem hr'),
    fun r hr r' hr' ↦ h.oidc r (hmem hr) r' (hmem hr'), fun s hs ↦ ?_⟩
  rw [Keyed.mem_rows, Keyed.get_deleteWhere, Option.filter_eq_some_iff] at hs
  have hne : s.userID ≠ id := by simpa using hs.2
  have hold := h.userID s (Keyed.mem_rows.mpr hs.1)
  rwa [Keyed.get_delete, if_neg hne]

/-- A session may change as long as its user is there. -/
theorem consistent_putSession (h : t.Consistent) {s : SessionRow}
    (hs : (t.users.get s.userID).isSome) :
    (⟨t.users, t.sessions.put s⟩ : AccountTables).Consistent where
  username := h.username
  oidc := h.oidc
  userID s' hs' := by
    rw [Keyed.mem_rows, Keyed.get_put] at hs'
    split at hs'
    · exact Option.some.inj hs' ▸ hs
    · exact h.userID s' (Keyed.mem_rows.mpr hs')

/-- A user may change as long as no other has the username or the identity. -/
theorem consistent_putUser (h : t.Consistent) {u : UserRow}
    (hname : ∀ r ∈ t.users.rows, r.username = u.username → r.userID = u.userID)
    (hoidc : u.issuer ≠ "" → ∀ r ∈ t.users.rows, r.issuer = u.issuer → r.subject = u.subject →
      r.userID = u.userID) :
    (⟨t.users.put u, t.sessions⟩ : AccountTables).Consistent := by
  have hmem {r : UserRow} (hr : r ∈ (t.users.put u).rows) : r = u ∨ r ∈ t.users.rows := by
    rw [Keyed.mem_rows, Keyed.get_put] at hr
    split at hr
    · exact .inl (Option.some.inj hr).symm
    · exact .inr (Keyed.mem_rows.mpr hr)
  constructor
  · intro r hr r' hr' heq
    rcases hmem hr with rfl | hr1 <;> rcases hmem hr' with rfl | hr2
    · rfl
    · exact (hname r' hr2 heq.symm).symm
    · exact hname r hr1 heq
    · exact h.username r hr1 r' hr2 heq
  · intro r hr r' hr' hne hissuer hsubject
    rcases hmem hr with rfl | hr1 <;> rcases hmem hr' with rfl | hr2
    · rfl
    · exact (hoidc hne r' hr2 hissuer.symm hsubject.symm).symm
    · exact hoidc (hissuer ▸ hne) r hr1 hissuer hsubject
    · exact h.oidc r hr1 r' hr2 hne hissuer hsubject
  · intro s hs
    have hold := h.userID s hs
    rw [Keyed.get_put]
    split
    · rfl
    · exact hold

end constraints

/-! ## Mirrors -/

/-- The database has the row of each user and session in memory, and memory holds nothing that a
row cannot. -/
structure AccountTables.Mirrors (t : AccountTables) (m : MemAccounts) : Prop where
  users : ∀ id, t.users.get id = (m.users.get id).map .of
  sessions : ∀ id, t.sessions.get id = (m.sessions.get id).map .of
  storable_users : ∀ u ∈ m.users.rows, u.Storable
  storable_sessions : ∀ s ∈ m.sessions.rows, s.Storable

/-- The write means the same to both stores. -/
def MemAccounts.Fits (lower : Char → Char) (m : MemAccounts) : AccountOp → Prop
  | .putUser u => u.Storable ∧ normaliseUsername lower u.username = u.username ∧
      (∀ v ∈ m.users.rows, v.username = u.username → v.userID = u.userID) ∧
      (u.issuer ≠ "" → ∀ v ∈ m.users.rows, v.issuer = u.issuer → v.subject = u.subject →
        v.userID = u.userID) ∧
      ∀ v ∈ m.users.get u.userID, v.createdAt = u.createdAt
  | .putSession s => s.Storable ∧ m.sessions.get s.sessionID = none ∧
      (m.users.get s.userID).isSome
  | .touchSession id lastSeen expiresAt => GoTime.InRange lastSeen ∧ GoTime.InRange expiresAt ∧
      (m.sessions.get id).isSome
  | .listSessions limit => ∀ s ∈ m.sessions.rows, ∀ s' ∈ m.sessions.rows, s ≠ s' →
      s.lastSeen = s'.lastSeen → 0 < limit ∧
        limit ≤ m.sessions.rows.countP fun r ↦ s.lastSeen < r.lastSeen
  | .purgeExpiredSessions now => ∀ s ∈ m.sessions.rows, Comparable s.expiresAt now
  | _ => True

namespace AccountTables.Mirrors

variable {t : AccountTables} {d : SqlAccounts} {m : MemAccounts} {lower : Char → Char}
  {scan : Scan User Session} {scan' : Scan UserRow SessionRow}

theorem empty : ({} : AccountTables).Mirrors {} :=
  ⟨fun _ ↦ rfl, fun _ ↦ rfl, nofun, nofun⟩

theorem congr {m' : MemAccounts} (h : t.Mirrors m)
    (hu : ∀ id, m'.users.get id = m.users.get id)
    (hs : ∀ id, m'.sessions.get id = m.sessions.get id) : t.Mirrors m' where
  users id := by rw [hu, h.users]
  sessions id := by rw [hs, h.sessions]
  storable_users u hmem := h.storable_users u (by rwa [Keyed.mem_rows, ← hu, ← Keyed.mem_rows])
  storable_sessions s hmem :=
    h.storable_sessions s (by rwa [Keyed.mem_rows, ← hs, ← Keyed.mem_rows])

theorem users_perm (h : t.Mirrors m) : t.users.rows.Perm (m.users.rows.map .of) :=
  Keyed.rows_perm (fun _ ↦ rfl) h.users

theorem sessions_perm (h : t.Mirrors m) : t.sessions.rows.Perm (m.sessions.rows.map .of) :=
  Keyed.rows_perm (fun _ ↦ rfl) h.sessions

theorem storable_of_get (h : t.Mirrors m) {id : String} {u : User} (hu : m.users.get id = some u) :
    u.Storable := h.storable_users u (Keyed.mem_rows.mpr (by rwa [Keyed.key_of_get hu]))

theorem storable_of_get_session (h : t.Mirrors m) {id : String} {s : Session}
    (hs : m.sessions.get id = some s) : s.Storable :=
  h.storable_sessions s (Keyed.mem_rows.mpr (by rwa [Keyed.key_of_get hs]))

/-- The rows, as the users they were made of. -/
theorem map_userFrom (h : t.Mirrors m) (scan' : Scan UserRow SessionRow) :
    ((scan'.users t.users.rows).map userFrom).Perm m.users.rows := by
  have hmap : (m.users.rows.map UserRow.of).map userFrom = m.users.rows := by
    rw [List.map_map]
    exact (List.map_congr_left fun u hu ↦ userFrom_of (h.storable_users u hu)).trans m.users.rows.map_id
  rw [← hmap]
  exact ((scan'.users_perm _).trans h.users_perm).map userFrom

theorem map_sessionFrom (h : t.Mirrors m) (scan' : Scan UserRow SessionRow) :
    ((scan'.sessions t.sessions.rows).map sessionFrom).Perm m.sessions.rows := by
  have hmap : (m.sessions.rows.map SessionRow.of).map sessionFrom = m.sessions.rows := by
    rw [List.map_map]
    exact (List.map_congr_left fun s hs ↦ sessionFrom_of (h.storable_sessions s hs)).trans
      m.sessions.rows.map_id
  rw [← hmap]
  exact ((scan'.sessions_perm _).trans h.sessions_perm).map sessionFrom

theorem of_mem (h : t.Mirrors m) {u : User} (hu : u ∈ m.users.rows) : .of u ∈ t.users.rows :=
  h.users_perm.mem_iff.mpr (List.mem_map_of_mem hu)

theorem user_ext {u v : User} (hu : u ∈ m.users.rows) (hv : v ∈ m.users.rows)
    (heq : u.userID = v.userID) : u = v := by
  rw [Keyed.mem_rows] at hu hv
  rw [heq] at hu
  exact Option.some.inj (hu.symm.trans hv)

theorem username_inj (h : d.Mirrors m) {u v : User} (hu : u ∈ m.users.rows) (hv : v ∈ m.users.rows)
    (heq : u.username = v.username) : u = v :=
  user_ext hu hv (d.consistent.username _ (h.of_mem hu) _ (h.of_mem hv) heq)

theorem oidc_inj (h : d.Mirrors m) {u v : User} (hu : u ∈ m.users.rows) (hv : v ∈ m.users.rows)
    (hne : u.issuer ≠ "") (hissuer : u.issuer = v.issuer) (hsubject : u.subject = v.subject) :
    u = v :=
  user_ext hu hv (d.consistent.oidc _ (h.of_mem hu) _ (h.of_mem hv) hne hissuer hsubject)

/-! ## Reads -/

/-- What is found, where only one user can be. -/
theorem find_agree (h : t.Mirrors m) (scan : Scan User Session) (scan' : Scan UserRow SessionRow)
    {p : User → Bool} (hp : {u ∈ m.users.rows | p u}.Subsingleton) :
    ((scan'.users t.users.rows).find? (p ∘ userFrom)).map userFrom =
      (scan.users m.users.rows).find? p := by
  rw [← List.find?_map]
  have hperm := h.map_userFrom scan'
  rw [List.find?_eq_find?_of_perm hperm, List.find?_eq_find?_of_perm (scan.users_perm _)]
  · exact fun u hu v hv ↦ hp ⟨(scan.users_perm _).mem_iff.mp hu.1, hu.2⟩
      ⟨(scan.users_perm _).mem_iff.mp hv.1, hv.2⟩
  · exact fun u hu v hv ↦ hp ⟨hperm.mem_iff.mp hu.1, hu.2⟩ ⟨hperm.mem_iff.mp hv.1, hv.2⟩

theorem getUserByUsername_agree (h : d.Mirrors m) (scan : Scan User Session)
    (scan' : Scan UserRow SessionRow) (want : String) :
    ((scan'.users d.users.rows).find? fun r ↦ r.username = want).map userFrom =
      (scan.users m.users.rows).find? fun u ↦ u.username = want := by
  have hp : {u ∈ m.users.rows | decide (u.username = want) = true}.Subsingleton := fun u hu v hv ↦
    h.username_inj hu.1 hv.1 ((of_decide_eq_true hu.2).trans (of_decide_eq_true hv.2).symm)
  exact h.find_agree scan scan' hp

theorem getUserByOIDC_agree (h : d.Mirrors m) (scan : Scan User Session)
    (scan' : Scan UserRow SessionRow) (issuer subject : String) :
    ((scan'.users d.users.rows).find? fun r ↦
      r.issuer = issuer ∧ r.issuer ≠ "" ∧ r.subject = subject).map userFrom =
        m.getUserByOIDC scan issuer subject := by
  rw [MemAccounts.getUserByOIDC]
  by_cases hissuer : issuer = ""
  · rw [if_pos hissuer, Option.map_eq_none_iff, List.find?_eq_none]
    rintro r - hr
    obtain ⟨rfl, hne, -⟩ := of_decide_eq_true hr
    exact hne hissuer
  · have hp : {u ∈ m.users.rows | decide (u.issuer = issuer ∧ u.subject = subject)
        = true}.Subsingleton := by
      intro u hu v hv
      obtain ⟨hi, hs⟩ := of_decide_eq_true hu.2
      obtain ⟨hi', hs'⟩ := of_decide_eq_true hv.2
      exact h.oidc_inj hu.1 hv.1 (hi ▸ hissuer) (hi.trans hi'.symm) (hs.trans hs'.symm)
    rw [if_neg hissuer, ← h.find_agree scan scan' hp]
    congr 2
    funext r
    refine decide_eq_decide.mpr ⟨fun ⟨hi, _, hs⟩ ↦ ⟨hi, hs⟩, fun ⟨hi, hs⟩ ↦ ⟨hi, ?_, hs⟩⟩
    exact fun h0 ↦ hissuer (hi.symm.trans h0)

theorem countAdmins_agree (h : t.Mirrors m) :
    (t.users.rows.countP fun r ↦ r.role = "admin" ∧ r.disabled = 0) =
      m.users.rows.countP (·.enabledAdmin) := by
  rw [← (h.map_userFrom default).countP_eq, List.countP_map]
  congr 1
  funext r
  simp [User.enabledAdmin, userFrom, Role.admin]

theorem listUsers_agree (h : d.Mirrors m) (scan : Scan User Session)
    (scan' : Scan UserRow SessionRow) :
    ((scan'.users d.users.rows).insertionSort fun r r' ↦ r.username ≤ r'.username).map userFrom =
      m.listUsers scan := by
  have hperm := (h.map_userFrom scan').trans (scan.users_perm _).symm
  have hmem {u : User} (hu : u ∈ scan.users m.users.rows) : u ∈ m.users.rows :=
    (scan.users_perm _).mem_iff.mp hu
  have htake := Keyed.take_sorts (f := User.username) (h := UserRow.username)
    (r := fun u v ↦ !decide (v.username < u.username)) hperm
    (fun _ _ ↦ by rw [Bool.not_eq_true', decide_eq_false_iff_not, not_lt]) (fun _ _ ↦ Iff.rfl)
    (fun _ _ _ _ ↦ id) (n := m.users.rows.length)
    fun u hu v hv hne heq ↦ absurd (h.username_inj (hmem hu) (hmem hv) heq) hne
  rw [List.take_of_length_le, List.take_of_length_le] at htake
  · exact htake
  · rw [(List.perm_insertionSort _ _).length_eq, (scan.users_perm _).length_eq]
  · rw [List.length_map, (List.perm_insertionSort _ _).length_eq, (scan'.users_perm _).length_eq,
      h.users_perm.length_eq, List.length_map]

theorem take_sessions (h : t.Mirrors m) (scan : Scan User Session)
    (scan' : Scan UserRow SessionRow) {limit : ℤ} (hfits : m.Fits lower (.listSessions limit))
    (n : ℕ) (hlimit : 0 < limit → n = limit.toNat) :
    ((((scan'.sessions t.sessions.rows).insertionSort fun r r' ↦ r'.lastSeen ≤ r.lastSeen).map
      sessionFrom).take n) =
        (sortSlice (fun s s' ↦ s'.lastSeen < s.lastSeen) (scan.sessions m.sessions.rows)).take n := by
  have hperm := (h.map_sessionFrom scan').trans (scan.sessions_perm _).symm
  have hrow {r : SessionRow} (hr : r ∈ scan'.sessions t.sessions.rows) :
      ∃ s, s.Storable ∧ r = .of s := by
    obtain ⟨s, hs, rfl⟩ := List.mem_map.mp
      (h.sessions_perm.mem_iff.mp ((scan'.sessions_perm _).mem_iff.mp hr))
    exact ⟨s, h.storable_sessions s hs, rfl⟩
  refine Keyed.take_sorts (f := fun s : Session ↦ OrderDual.toDual s.lastSeen)
    (h := fun r : SessionRow ↦ OrderDual.toDual r.lastSeen) hperm (by simp) (fun _ _ ↦ Iff.rfl)
    ?_ ?_
  · -- the order of the texts is that of the instants
    intro r hr r' hr' hle
    obtain ⟨s, hs, rfl⟩ := hrow hr
    obtain ⟨s', hs', rfl⟩ := hrow hr'
    rw [sessionFrom_of hs, sessionFrom_of hs', OrderDual.toDual_le_toDual]
    exact not_lt.mp fun hlt ↦
      hle.not_gt ((comparable_of_inRange hs.lastSeen hs'.lastSeen).lt.mpr hlt)
  · intro s hs s' hs' hne heq
    have hscan := scan.sessions_perm m.sessions.rows
    obtain ⟨hpos, hmany⟩ := hfits s (hscan.mem_iff.mp hs) s' (hscan.mem_iff.mp hs') hne
      (OrderDual.toDual_inj.mp heq)
    rw [hscan.countP_eq]
    simp only [OrderDual.toDual_lt_toDual]
    have := hlimit hpos
    omega

theorem listSessions_agree (h : d.Mirrors m) (scan : Scan User Session)
    (scan' : Scan UserRow SessionRow) {limit : ℤ} (hfits : m.Fits lower (.listSessions limit)) :
    d.listSessions scan' limit = m.listSessions scan limit := by
  have hlen : (sortSlice (fun s s' ↦ s'.lastSeen < s.lastSeen)
      (scan.sessions m.sessions.rows)).length = m.sessions.rows.length := by
    rw [sortSlice, (List.perm_insertionSort _ _).length_eq, (scan.sessions_perm _).length_eq]
  simp only [SqlAccounts.listSessions, SqlAccounts.sqlLimit, MemAccounts.listSessions]
  by_cases hpos : 0 < limit
  · have htake := h.take_sessions scan scan' hfits limit.toNat fun _ ↦ rfl
    rw [if_neg (by omega), if_neg (by omega), List.map_take, htake]
    split
    · rfl
    · exact List.take_of_length_le (by omega)
  · have htake := h.take_sessions scan scan' hfits m.sessions.rows.length fun hlimit ↦
      absurd hlimit hpos
    rw [if_pos (by omega), if_neg fun hlimit ↦ hpos hlimit.1]
    rwa [List.take_of_length_le, List.take_of_length_le hlen.le] at htake
    rw [List.length_map, (List.perm_insertionSort _ _).length_eq, (scan'.sessions_perm _).length_eq,
      h.sessions_perm.length_eq, List.length_map]

/-! ## Writes -/

/-- The rows that a `DELETE` counts. -/
theorem countP_sessions (h : t.Mirrors m) {p : SessionRow → Bool} {q : Session → Bool}
    (hpq : ∀ s ∈ m.sessions.rows, p (.of s) = q s) :
    t.sessions.rows.countP p = m.sessions.rows.countP q := by
  rw [h.sessions_perm.countP_eq, List.countP_map]
  exact List.countP_congr fun s hs ↦ by rw [Function.comp_apply, hpq s hs]

theorem deleteSessions (h : t.Mirrors m) {p : SessionRow → Bool} {q : Session → Bool}
    (hpq : ∀ s ∈ m.sessions.rows, p (.of s) = q s) :
    (⟨t.users, t.sessions.deleteWhere p⟩ : AccountTables).Mirrors
      { m with sessions := m.sessions.deleteWhere q } where
  users := h.users
  sessions id := by
    rw [Keyed.get_deleteWhere, Keyed.get_deleteWhere, h.sessions, Option.filter_map]
    congr 1
    cases hs : m.sessions.get id with
    | none => rfl
    | some s =>
      have hmem : s ∈ m.sessions.rows := Keyed.mem_rows.mpr (by rwa [Keyed.key_of_get hs])
      simp only [Option.filter_some, Function.comp_apply, hpq s hmem]
  storable_users := h.storable_users
  storable_sessions s hs := by
    rw [Keyed.mem_rows, Keyed.get_deleteWhere] at hs
    exact h.storable_of_get_session (Option.filter_eq_some_iff.mp hs).1

theorem putSession (h : t.Mirrors m) {s : Session} (hs : s.Storable) :
    (⟨t.users, t.sessions.put (.of s)⟩ : AccountTables).Mirrors
      { m with sessions := m.sessions.put s } where
  users := h.users
  sessions id := by
    rw [Keyed.get_put, Keyed.get_put, h.sessions]
    change (if id = s.sessionID then _ else _) = _
    split <;> rfl
  storable_users := h.storable_users
  storable_sessions s' hs' := by
    rw [Keyed.mem_rows, Keyed.get_put] at hs'
    split at hs'
    · exact Option.some.inj hs' ▸ hs
    · exact h.storable_of_get_session hs'

theorem putUser (h : t.Mirrors m) {u : User} (hu : u.Storable) :
    (⟨t.users.put (.of u), t.sessions⟩ : AccountTables).Mirrors
      { m with users := m.users.put u } where
  users id := by
    rw [Keyed.get_put, Keyed.get_put, h.users]
    change (if id = u.userID then _ else _) = _
    split <;> rfl
  sessions := h.sessions
  storable_users v hv := by
    rw [Keyed.mem_rows, Keyed.get_put] at hv
    split at hv
    · exact Option.some.inj hv ▸ hu
    · exact h.storable_of_get hv
  storable_sessions := h.storable_sessions

theorem deleteUser (h : t.Mirrors m) (id : String) :
    (⟨t.users.delete id, t.sessions.deleteWhere (·.userID = id)⟩ : AccountTables).Mirrors
      (m.deleteUser id) where
  users id' := by
    rw [MemAccounts.deleteUser, Keyed.get_delete, Keyed.get_delete, h.users]
    split <;> rfl
  sessions := (h.deleteSessions (p := fun r ↦ r.userID = id) (q := fun s ↦ s.userID = id)
    fun _ _ ↦ rfl).sessions
  storable_users u hu := by
    rw [MemAccounts.deleteUser, Keyed.mem_rows, Keyed.get_delete] at hu
    split at hu
    · cases hu
    · exact h.storable_of_get hu
  storable_sessions :=
    (h.deleteSessions (p := fun r ↦ r.userID = id) (q := fun s ↦ s.userID = id)
      fun _ _ ↦ rfl).storable_sessions

end AccountTables.Mirrors

/-! ## The step -/

/-- The two stores answered alike, and still mirror each other. -/
def Alike {α : Type} (x : α × SqlAccounts) (y : α × MemAccounts) : Prop :=
  x.1 = y.1 ∧ x.2.Mirrors y.2

section step

variable {d : SqlAccounts} {m : MemAccounts} {lower : Char → Char}

theorem putUser_alike (h : d.Mirrors m) {u : User} (hfits : m.Fits lower (.putUser u)) :
    Alike (d.putUser u) (.ok (), m.putUser lower u) := by
  obtain ⟨hstorable, hname, hother, hoidc, hcreated⟩ := hfits
  have hrow : (UserRow.of u).upsert (d.users.get u.userID) = .of u := by
    rw [h.users]
    cases hu : m.users.get u.userID with
    | none => rfl
    | some v =>
      have heq := hcreated v hu
      simp only [Option.map_some, UserRow.upsert, UserRow.of, heq]
  have hmem {p : User → Prop} (hall : ∀ v ∈ m.users.rows, p v) (r : UserRow)
      (hr : r ∈ d.users.rows) : ∃ v, p v ∧ r = .of v := by
    obtain ⟨v, hv, rfl⟩ := List.mem_map.mp (h.users_perm.mem_iff.mp hr)
    exact ⟨v, hall v hv, rfl⟩
  have hcons := consistent_putUser d.consistent (u := .of u)
    (fun r hr hr' ↦ by
      obtain ⟨v, hv, rfl⟩ := hmem hother r hr
      exact hv hr')
    fun hne r hr hissuer hsubject ↦ by
      obtain ⟨v, hv, rfl⟩ := hmem (hoidc hne) r hr
      exact hv hissuer hsubject
  rw [SqlAccounts.putUser, hrow, SqlAccounts.commit_of hcons, MemAccounts.putUser, hname]
  exact ⟨rfl, h.putUser hstorable⟩

theorem deleteSessions_alike (h : d.Mirrors m) {doing : String} {p : SessionRow → Bool}
    {q : Session → Bool} (hpq : ∀ s ∈ m.sessions.rows, p (.of s) = q s) :
    Alike (d.deleteSessions doing p)
      (.ok (m.sessions.rows.countP q), { m with sessions := m.sessions.deleteWhere q }) := by
  rw [SqlAccounts.deleteSessions, SqlAccounts.commit_of (consistent_deleteSessions d.consistent p),
    h.countP_sessions hpq]
  exact ⟨rfl, h.deleteSessions hpq⟩

theorem deleteSession_alike (h : d.Mirrors m) (id : String) :
    Alike (d.deleteSession id) (match m.sessions.get id with
      | none => (.error .notFound, m)
      | some _ => (.ok (), { m with sessions := m.sessions.delete id })) := by
  have hcount : d.sessions.rows.countP (fun r ↦ r.sessionID = id) = 0 ↔
      m.sessions.get id = none := by
    rw [h.countP_sessions (p := fun r ↦ r.sessionID = id) (q := fun s ↦ s.sessionID = id)
      fun _ _ ↦ rfl, List.countP_eq_zero]
    constructor
    · intro hnone
      by_contra hsome
      obtain ⟨s, hs⟩ := Option.ne_none_iff_exists'.mp hsome
      have hid := Keyed.key_of_get hs
      exact hnone s (Keyed.mem_rows.mpr (by rwa [hid])) (by simpa using hid)
    · intro hnone s hs hid
      rw [Keyed.mem_rows, of_decide_eq_true hid, hnone] at hs
      cases hs
  have hdelete := h.deleteSessions (p := fun r ↦ r.sessionID = id) (q := fun s ↦ s.sessionID = id)
    fun _ _ ↦ rfl
  rw [SqlAccounts.deleteSession, SqlAccounts.deleteSessions,
    SqlAccounts.commit_of (consistent_deleteSessions d.consistent _)]
  cases hs : m.sessions.get id with
  | none =>
    refine ⟨if_pos (hcount.mpr hs), hdelete.congr (fun _ ↦ rfl) fun id' ↦ ?_⟩
    change m.sessions.get id' = _
    rw [Keyed.get_deleteWhere_key, Keyed.get_delete]
    by_cases hid : id' = id
    · rw [if_pos hid, hid, hs]
    · rw [if_neg hid]
  | some s =>
    refine ⟨if_neg fun h0 ↦ ?_, hdelete.congr (fun _ ↦ rfl) fun id' ↦ ?_⟩
    · rw [hcount.mp h0] at hs
      cases hs
    · rw [Keyed.get_deleteWhere_key]

theorem deleteUser_alike (h : d.Mirrors m) (id : String) :
    Alike (d.deleteUser id) (match m.users.get id with
      | none => (.error .notFound, m)
      | some _ => (.ok (), m.deleteUser id)) := by
  rw [SqlAccounts.deleteUser, h.users]
  cases m.users.get id with
  | none => exact ⟨rfl, h⟩
  | some u =>
    simp only [Option.map_some]
    rw [SqlAccounts.commit_of (consistent_deleteUser d.consistent id)]
    exact ⟨rfl, h.deleteUser id⟩

theorem putSession_alike (h : d.Mirrors m) {s : Session} (hfits : m.Fits lower (.putSession s)) :
    Alike (d.putSession s) (.ok (), { m with sessions := m.sessions.put s }) := by
  obtain ⟨hs, hnew, huser⟩ := hfits
  have huser' : (d.users.get (SessionRow.of s).userID).isSome := by
    rw [h.users, Option.isSome_map]
    exact huser
  rw [SqlAccounts.putSession, h.sessions, hnew]
  simp only [Option.map_none]
  rw [SqlAccounts.commit_of (consistent_putSession d.consistent huser')]
  exact ⟨rfl, h.putSession hs⟩

theorem touchSession_alike (h : d.Mirrors m) {id : String} {lastSeen expiresAt : GoTime}
    (hfits : m.Fits lower (.touchSession id lastSeen expiresAt)) :
    Alike (d.touchSession id lastSeen expiresAt) (match m.sessions.get id with
      | none => (.error .notFound, m)
      | some s =>
        (.ok (), { m with sessions := m.sessions.put { s with lastSeen, expiresAt } })) := by
  obtain ⟨hseen, hexpires, hsome⟩ := hfits
  obtain ⟨s, hs⟩ := Option.isSome_iff_exists.mp hsome
  have hstorable := h.storable_of_get_session hs
  have hid := Keyed.key_of_get hs
  have huser : (d.users.get (SessionRow.of s).userID).isSome :=
    d.consistent.userID _ (Keyed.mem_rows.mpr (by
      rw [h.sessions, show (SessionRow.of s).sessionID = id from hid, hs]
      rfl))
  rw [SqlAccounts.touchSession, h.sessions, hs]
  simp only [Option.map_some]
  rw [SqlAccounts.commit_of (consistent_putSession d.consistent
    (s := { SessionRow.of s with lastSeen := toDB lastSeen, expiresAt := toDB expiresAt }) huser)]
  exact ⟨rfl, h.putSession (s := { s with lastSeen, expiresAt })
    ⟨hstorable.createdAt, hexpires, hseen⟩⟩

theorem found_map {α β : Type} {x : Option α} {f : α → β} {y : Option β} (h : x.map f = y) :
    found (x.map f) = found y := by rw [h]

/-- **A step of both stores**, whatever order they go through their rows in. -/
theorem exec_alike (h : d.Mirrors m) (scan : Scan User Session) (scan' : Scan UserRow SessionRow)
    {op : AccountOp} (hfits : m.Fits lower op) :
    Alike (d.exec lower scan' op) (m.exec lower scan op) := by
  cases op with
  | countUsers => exact ⟨by simp [SqlAccounts.exec, MemAccounts.exec, h.users_perm.length_eq], h⟩
  | countAdmins => exact ⟨congrArg Except.ok h.countAdmins_agree, h⟩
  | putUser u => exact putUser_alike h hfits
  | getUser id =>
    refine ⟨congrArg found ?_, h⟩
    rw [h.users, Option.map_map]
    cases hu : m.users.get id with
    | none => rfl
    | some u => exact congrArg some (userFrom_of (h.storable_of_get hu))
  | getUserByUsername username =>
    exact ⟨congrArg found (h.getUserByUsername_agree scan scan' _), h⟩
  | getUserByOIDC issuer subject =>
    exact ⟨congrArg found (h.getUserByOIDC_agree scan scan' issuer subject), h⟩
  | listUsers => exact ⟨congrArg Except.ok (h.listUsers_agree scan scan'), h⟩
  | deleteUser id => exact deleteUser_alike h id
  | putSession s => exact putSession_alike h hfits
  | getSession id =>
    refine ⟨congrArg found ?_, h⟩
    rw [h.sessions, Option.map_map]
    cases hs : m.sessions.get id with
    | none => rfl
    | some s => exact congrArg some (sessionFrom_of (h.storable_of_get_session hs))
  | touchSession id lastSeen expiresAt => exact touchSession_alike h hfits
  | deleteSession id => exact deleteSession_alike h id
  | deleteUserSessions userID => exact deleteSessions_alike h fun _ _ ↦ rfl
  | listSessions limit => exact ⟨congrArg Except.ok (h.listSessions_agree scan scan' hfits), h⟩
  | purgeExpiredSessions now =>
    exact deleteSessions_alike h fun s hs ↦ decide_eq_decide.mpr (hfits s hs).lt

end step

end ClassG.Store
