import ClassG.Auth.Handlers
import ClassG.Store.AccountStore

/-!
# What a refused request leaves behind

A request that is refused is to change nothing.  The methods of the service check before they write,
so each of them keeps to that (`LeavesAlone`).  But `handleUpdateUser` calls two of them, and the
second may refuse the password when the first has written already: `handle_refused_iff` says that
this is the only way in which a request that is refused changes something.
-/

set_option autoImplicit false

namespace ClassG.Auth

open Store

variable {σ υ ς : Type} (S : AccountStore σ υ ς) {s : σ} {α β ε : Type}

/-- What a method or a handler comes to, if no call of the store fails. -/
structure Comes (p : Program.Fallible accountOps ε α) (s : σ) (Q : Except ε α → σ → Prop) :
    Prop where
  ensures : p.run.Ensures S.exec Answered s Q

/-- Where it refuses, the store is as it was. -/
def LeavesAlone (p : Program.Fallible accountOps ε α) (s : σ) : Prop :=
  Comes S p s fun r s' ↦ ∀ e, r = .error e → s' = s

variable {S}

/-! ## What the pieces do -/

theorem Comes.mono {p : Program.Fallible accountOps ε α} {Q Q' : Except ε α → σ → Prop}
    (h : Comes S p s Q) (hQ : ∀ r s, Q r s → Q' r s) : Comes S p s Q' := ⟨h.ensures.mono hQ⟩

theorem Comes.andThen {p : Program.Fallible accountOps ε α}
    {f : α → Program.Fallible accountOps ε β} {P : Except ε α → σ → Prop}
    {Q : Except ε β → σ → Prop} (h : Comes S p s P) (herror : ∀ e s, P (.error e) s → Q (.error e) s)
    (hok : ∀ a s, P (.ok a) s → Comes S (f a) s Q) : Comes S (p >>= f) s Q :=
  ⟨h.ensures.andThen herror fun a s ha ↦ (hok a s ha).ensures⟩

theorem comes_pure {a : α} {Q : Except ε α → σ → Prop} (h : Q (.ok a) s) :
    Comes S (pure a : Program.Fallible accountOps ε α) s Q := ⟨h⟩

theorem comes_throw {e : ε} {Q : Except ε α → σ → Prop} (h : Q (.error e) s) :
    Comes S (throw e : Program.Fallible accountOps ε α) s Q := ⟨h⟩

theorem comes_ask {op : AccountOp} {Q : Except AuthError (Except StoreError op.Result) → σ → Prop}
    (h : Answered op (S.exec s op).1 → Q (.ok (S.exec s op).1) (S.exec s op).2) :
    Comes S (ask op) s Q := ⟨h⟩

theorem comes_store {op : AccountOp} {Q : Except AuthError op.Result → σ → Prop}
    (h : Answered op (S.exec s op).1 → Q ((S.exec s op).1.mapError .store) (S.exec s op).2) :
    Comes S (store op) s Q := by
  refine ⟨fun hop ↦ ?_⟩
  have hQ := h hop
  cases hr : (S.exec s op).1 with
  | ok r =>
    rw [hr] at hQ
    exact hQ
  | error e =>
    rw [hr] at hQ
    exact hQ

theorem comes_computed {r : Except AuthError α} {Q : Except AuthError α → σ → Prop}
    (h : Q r s) : Comes S (computed r) s Q := ⟨h⟩

theorem comes_answer {r : Except ApiError α} {Q : Except ApiError α → σ → Prop}
    (h : Q r s) : Comes S (answer r) s Q := ⟨h⟩

theorem comes_drawn {doing : String} {x : Option α} {Q : Except AuthError α → σ → Prop}
    (h : ∀ r, Q r s) : Comes S (drawn doing x) s Q := by
  cases x <;> exact ⟨h _⟩

theorem comes_serve {p : Method α} {error : AuthError → ApiError}
    {Q : Except ApiError α → σ → Prop}
    (h : Comes S p s fun r s' ↦ Q (r.mapError error) s') : Comes S (serve p error) s Q := by
  refine ⟨Program.ensures_bind.mpr (h.ensures.mono fun r s' hr ↦ ?_)⟩
  cases r <;> exact hr

theorem comes_attempt (p : Method α) : Comes S (attempt p) s fun r _ ↦ ∃ x, r = .ok x := by
  have htrue : p.run.Ensures S.exec Answered s fun _ _ ↦ True :=
    Program.ensures_iff.mpr fun _ ↦ trivial
  exact ⟨Program.ensures_bind.mpr (htrue.mono fun r _ _ ↦ ⟨r, rfl⟩)⟩

/-! ## What only looks -/

/-- Whatever comes of it, the store is as it was. -/
def Looks (S : AccountStore σ υ ς) (p : Program.Fallible accountOps ε α) (s : σ) : Prop :=
  Comes S p s fun _ s' ↦ s' = s

theorem looks_ask {op : AccountOp} (h : op.reads) : Looks S (ask op) s :=
  comes_ask fun _ ↦ S.exec_reads s op h

theorem looks_store {op : AccountOp} (h : op.reads) : Looks S (store op) s :=
  comes_store fun _ ↦ S.exec_reads s op h

theorem looks_computed (r : Except AuthError α) : Looks S (computed r) s := comes_computed rfl

theorem looks_answer (r : Except ApiError α) : Looks S (answer r) s := comes_answer rfl

theorem looks_drawn (doing : String) (x : Option α) : Looks S (drawn doing x) s :=
  comes_drawn fun _ ↦ rfl

theorem looks_pure (a : α) : Looks S (pure a : Program.Fallible accountOps ε α) s :=
  comes_pure rfl

theorem looks_throw (e : ε) : Looks S (throw e : Program.Fallible accountOps ε α) s :=
  comes_throw rfl

theorem Looks.andThen {p : Program.Fallible accountOps ε α}
    {f : α → Program.Fallible accountOps ε β} (h : Looks S p s) (hf : ∀ a, Looks S (f a) s) :
    Looks S (p >>= f) s := by
  refine Comes.andThen h (fun e s' hs ↦ hs) fun a s' hs ↦ ?_
  cases hs
  exact hf a

theorem looks_needsSetup (service : Service) : Looks S (needsSetup service) s := by
  rw [needsSetup]
  split
  · exact (looks_store rfl).andThen fun n ↦ looks_pure _
  · exact looks_pure _

theorem looks_requireFree (username : String) : Looks S (requireFree username) s := by
  refine (looks_ask rfl).andThen fun r ↦ ?_
  match r with
  | .ok _ => exact looks_throw _
  | .error .notFound => exact looks_pure _
  | .error (.failed _) => exact looks_throw _

theorem looks_requireAnotherAdmin : Looks S requireAnotherAdmin s := by
  refine (looks_store rfl).andThen fun n ↦ ?_
  split
  · exact looks_throw _
  · exact looks_pure _

/-! ## What leaves the store alone where it refuses -/

theorem Looks.leavesAlone {p : Program.Fallible accountOps ε α} (h : Looks S p s) :
    LeavesAlone S p s := h.mono fun _ _ hs _ _ ↦ hs

/-- As long as it only looks, it may refuse. -/
theorem Looks.before {p : Program.Fallible accountOps ε α}
    {f : α → Program.Fallible accountOps ε β} (h : Looks S p s)
    (hf : ∀ a, LeavesAlone S (f a) s) : LeavesAlone S (p >>= f) s := by
  refine Comes.andThen h (fun e s' hs _ _ ↦ hs) fun a s' hs ↦ ?_
  cases hs
  exact hf a

/-- And what is done in the end is not refused. -/
theorem LeavesAlone.return {p : Program.Fallible accountOps ε α} (h : LeavesAlone S p s) (f : α → β) :
    LeavesAlone S (do let a ← p; return f a) s := by
  refine Comes.andThen h (fun e s' hs _ _ ↦ hs e rfl) fun a s' _ ↦ comes_pure fun e he ↦ ?_
  cases he

theorem LeavesAlone.serve {p : Method α} (h : LeavesAlone S p s) (error : AuthError → ApiError) :
    LeavesAlone S (serve p error) s := by
  refine comes_serve (h.mono fun r s' hr e he ↦ ?_)
  cases r with
  | error e => exact hr e rfl
  | ok a => cases he

theorem leavesAlone_putUser (u : User) : LeavesAlone S (store (.putUser u)) s := by
  refine comes_store fun hop e he ↦ ?_
  obtain ⟨r, hr⟩ := S.ok_of_answered (by simp [AccountOp.looksUp]) hop
  rw [hr] at he
  cases he

theorem leavesAlone_deleteUser (id : String) : LeavesAlone S (store (.deleteUser id)) s := by
  refine comes_store fun hop e he ↦ ?_
  cases hr : (S.exec s (.deleteUser id)).1 with
  | ok r =>
    rw [hr] at he
    cases he
  | error e =>
    cases e with
    | notFound => exact S.deleteUser_notFound s id hr
    | failed doing => exact absurd hr (hop doing)

theorem createUser_leavesAlone (env : Env) (username displayName password : String) (role : Role) :
    LeavesAlone S (createUser env username displayName password role) s := by
  rw [createUser]
  refine (looks_computed _).before fun _ ↦ ?_
  refine (looks_computed _).before fun _ ↦ ?_
  refine (looks_computed _).before fun hash ↦ ?_
  refine (looks_requireFree _).before fun _ ↦ ?_
  refine (looks_drawn _ _).before fun id ↦ ?_
  exact (leavesAlone_putUser _).return _

theorem setup_leavesAlone (env : Env) (service : Service)
    (username displayName password : String) :
    LeavesAlone S (setup env service username displayName password) s := by
  rw [setup]
  refine (looks_needsSetup service).before fun needs ↦ ?_
  cases needs
  · exact (looks_throw _).leavesAlone
  · exact createUser_leavesAlone env _ _ _ _

theorem deleteUser_leavesAlone (id : String) : LeavesAlone S (deleteUser id) s := by
  rw [deleteUser]
  refine (looks_store rfl).before fun u ↦ ?_
  refine Looks.before ?_ fun _ ↦ leavesAlone_deleteUser id
  split
  · exact looks_requireAnotherAdmin
  · exact looks_pure _

/-! ## The password -/

/-- To end sessions is not refused. -/
theorem revokeAll_comes (userID keep : String) (sessions : List Session) :
    Comes S (revokeAll userID keep sessions) s fun r _ ↦ ∃ a, r = .ok a := by
  induction sessions generalizing s with
  | nil => exact comes_pure ⟨_, rfl⟩
  | cons session rest ih =>
    rw [revokeAll]
    split
    · exact ih
    · have hask : Comes S (ask (.deleteSession session.sessionID)) s fun r _ ↦
          ∃ ans, r = .ok ans ∧ Answered (.deleteSession session.sessionID) ans :=
        comes_ask fun hop ↦ ⟨_, rfl, hop⟩
      refine hask.andThen (fun e s' ⟨_, he, _⟩ ↦ by cases he) fun ans s' hans ↦ ?_
      obtain ⟨_, heq, hop⟩ := hans
      cases heq
      match ans with
      | .ok _ => exact ih
      | .error .notFound => exact ih
      | .error (.failed doing) => exact absurd rfl (hop doing)

theorem revokeExcept_comes (userID keep : String) :
    Comes S (revokeExcept userID keep) s fun r _ ↦ ∃ a, r = .ok a := by
  have hlist : Comes S (store (.listSessions 0)) s fun r _ ↦ ∃ sessions, r = .ok sessions := by
    refine comes_store fun hop ↦ ?_
    obtain ⟨r, hr⟩ := S.ok_of_answered (by simp [AccountOp.looksUp]) hop
    exact ⟨r, by rw [hr]; rfl⟩
  refine hlist.andThen (fun e s' ⟨_, he⟩ ↦ by cases he) fun sessions s' _ ↦ ?_
  exact revokeAll_comes userID keep sessions

/-- The user is looked up before anything else. -/
theorem getUser_comes (id : String) : Comes S (store (.getUser id)) s fun r s' ↦
    s' = s ∧ r = (found ((S.users s id).map S.user)).mapError .store := by
  refine comes_store fun _ ↦ ⟨S.exec_reads s _ rfl, ?_⟩
  rw [S.getUser]

theorem putUser_comes (u : User) : Comes S (store (.putUser u)) s fun r s' ↦ r = .ok () ∧
    S.users s' = Function.update (S.users s) u.userID (some (S.row u (S.users s u.userID))) ∧
    S.sessions s' = S.sessions s := by
  refine comes_store fun hop ↦ ?_
  obtain ⟨r, hr⟩ := S.ok_of_answered (by simp [AccountOp.looksUp]) hop
  exact ⟨by rw [hr]; rfl, S.putUser s u hr⟩

/-- A password is refused before it is written, or not at all. -/
theorem setPassword_comes (env : Env) (now : GoTime) (id password keep : String) :
    Comes S (setPassword env now id password keep) s fun r s' ↦
      (∀ e, r = .error e → s' = s ∧
        (S.users s id = none ∨ ∃ e, hashPassword env password = .error e)) ∧
      (∀ a, r = .ok a → ∃ hash, hashPassword env password = .ok hash) := by
  rw [setPassword]
  refine (getUser_comes id).andThen (fun e s' ⟨hs, he⟩ ↦ ?_) fun u s' ⟨hs, hu⟩ ↦ ?_
  · refine ⟨fun e' _ ↦ ⟨hs, .inl ?_⟩, fun a ha ↦ by cases ha⟩
    cases hget : S.users s id with
    | none => rfl
    | some r =>
      rw [hget] at he
      cases he
  · cases hs
    have hhash : Comes S (computed (hashPassword env password)) s fun r s' ↦
        s' = s ∧ r = hashPassword env password := comes_computed ⟨rfl, rfl⟩
    refine hhash.andThen (fun e s' ⟨hs, he⟩ ↦ ?_) fun hash s' ⟨hs, hhash⟩ ↦ ?_
    · exact ⟨fun e' _ ↦ ⟨hs, .inr ⟨e, he.symm⟩⟩, fun a ha ↦ by cases ha⟩
    · refine (putUser_comes _).andThen (fun e s' ⟨he, _⟩ ↦ by cases he) fun _ s' _ ↦ ?_
      refine (revokeExcept_comes id keep).mono fun r s' ⟨a, hr⟩ ↦ ?_
      subst hr
      exact ⟨fun e he ↦ (by cases he), fun a _ ↦ ⟨hash, hhash.symm⟩⟩

theorem setPassword_leavesAlone (env : Env) (now : GoTime) (id password keep : String) :
    LeavesAlone S (setPassword env now id password keep) s :=
  (setPassword_comes env now id password keep).mono fun _ _ h e he ↦ (h.1 e he).1

/-! ## The update -/

/-- The changes are accepted: the user is there, the role is one, and an admin is left. -/
def Accepted (S : AccountStore σ υ ς) (s : σ) (id : String) (c : Changes) : Prop :=
  ∃ r, S.users s id = some r ∧ (c.losingAdmin (S.user r) → 1 < S.admins s) ∧
    c.checkRole = .ok ()

/-- The changes make a difference: to the row of the user, or to one who is signed in. -/
def Alters (S : AccountStore σ υ ς) (s : σ) (id : String) (c : Changes) (now : GoTime) : Prop :=
  ∃ r, S.users s id = some r ∧ (S.row (c.apply now (S.user r)) (some r) ≠ r ∨
    ((c.apply now (S.user r)).disabled ∨ c.role.isSome) ∧
      ∃ k session, S.sessions s k = some session ∧ S.owner session = id)

theorem requireAnotherAdmin_comes : Comes S requireAnotherAdmin s fun r s' ↦ s' = s ∧
    ((∃ e, r = .error e) ∧ ¬1 < S.admins s ∨ r = .ok () ∧ 1 < S.admins s) := by
  have hcount : Comes S (store .countAdmins) s fun r s' ↦ s' = s ∧ r = .ok (S.admins s) :=
    comes_store fun _ ↦ ⟨S.exec_reads s _ rfl, by rw [S.countAdmins]; rfl⟩
  refine hcount.andThen (fun e s' ⟨_, he⟩ ↦ by cases he) fun n s' ⟨hs, hn⟩ ↦ ?_
  cases hs
  cases hn
  split
  · rename_i hle
    exact comes_throw ⟨rfl, .inl ⟨⟨_, rfl⟩, Nat.not_lt.mpr hle⟩⟩
  · rename_i hle
    exact comes_pure ⟨rfl, .inr ⟨rfl, Nat.lt_of_not_le hle⟩⟩

/-- To delete the sessions of someone who has none is to delete nothing. -/
theorem filter_sessions_eq_iff (id : String) :
    (fun k ↦ (S.sessions s k).filter fun r ↦ S.owner r ≠ id) = S.sessions s ↔
      ¬∃ k session, S.sessions s k = some session ∧ S.owner session = id := by
  rw [funext_iff]
  constructor
  · rintro h ⟨k, session, hk, howner⟩
    have hfilter := h k
    rw [hk, Option.filter_some, if_neg (by simp [howner])] at hfilter
    cases hfilter
  · intro h k
    rcases hk : S.sessions s k with _ | session
    · rfl
    · have howner : S.owner session ≠ id := fun howner ↦ h ⟨k, session, hk, howner⟩
      rw [Option.filter_some, if_pos (by simp [howner])]

/-- What is revoked. -/
theorem deleteUserSessions_comes (id : String) (revoked : Prop) [Decidable revoked] :
    Comes S (if revoked then do let _ ← ask (.deleteUserSessions id) else pure () : Method Unit) s
      fun r s' ↦ r = .ok () ∧ S.users s' = S.users s ∧ (S.sessions s' = S.sessions s ↔
        ¬(revoked ∧ ∃ k session, S.sessions s k = some session ∧ S.owner session = id)) := by
  split
  · rename_i hrevoked
    have hask : Comes S (ask (.deleteUserSessions id)) s fun r s' ↦ (∃ ans, r = .ok ans) ∧
        S.users s' = S.users s ∧
        S.sessions s' = fun k ↦ (S.sessions s k).filter fun r ↦ S.owner r ≠ id := by
      refine comes_ask fun hop ↦ ⟨⟨_, rfl⟩, ?_⟩
      obtain ⟨n, hn⟩ := S.ok_of_answered (by simp [AccountOp.looksUp]) hop
      exact S.deleteUserSessions s id n hn
    refine hask.andThen (fun e s' ⟨⟨_, he⟩, _⟩ ↦ by cases he) fun ans s' ⟨_, husers, hsessions⟩ ↦ ?_
    refine comes_pure ⟨rfl, husers, ?_⟩
    rw [hsessions, filter_sessions_eq_iff, not_and, imp_iff_right hrevoked]
  · rename_i hrevoked
    exact comes_pure ⟨rfl, rfl, by simp [hrevoked]⟩

/-- What is written of changes that are accepted. -/
theorem write_comes {id : String} {r : υ} (hr : S.users s id = some r) (c : Changes)
    (now : GoTime) :
    Comes S (do
      store (.putUser (c.apply now (S.user r)))
      (if (c.apply now (S.user r)).disabled ∨ c.role.isSome then do
        let _ ← ask (.deleteUserSessions id)
      else pure () : Method Unit)
      return c.apply now (S.user r)) s fun result s' ↦
        (∃ u, result = .ok u) ∧ (S.users s' id).isSome ∧ (S.Same s s' ↔ ¬Alters S s id c now) := by
  have hid : (c.apply now (S.user r)).userID = id := S.userID_user s id r hr
  refine (putUser_comes _).andThen (fun e s' ⟨he, _⟩ ↦ by cases he)
    fun _ s₁ ⟨_, husers, hsessions⟩ ↦ ?_
  refine (deleteUserSessions_comes id _).andThen (fun e s' ⟨he, _⟩ ↦ by cases he)
    fun _ s₂ ⟨_, husers', hsessions'⟩ ↦ comes_pure ⟨⟨_, rfl⟩, ?_⟩
  rw [hsessions] at hsessions'
  rw [← husers', hid, hr] at husers
  have hsame : S.users s₂ = S.users s ↔ S.row (c.apply now (S.user r)) (some r) = r := by
    rw [husers, Function.update_eq_self_iff, hr, Option.some_inj]
  refine ⟨by rw [husers, Function.update_self]; rfl, ?_⟩
  have halters : Alters S s id c now ↔ (S.row (c.apply now (S.user r)) (some r) ≠ r ∨
      ((c.apply now (S.user r)).disabled ∨ c.role.isSome) ∧
        ∃ k session, S.sessions s k = some session ∧ S.owner session = id) := by
    refine ⟨fun ⟨r', hr', h⟩ ↦ ?_, fun h ↦ ⟨r, hr, h⟩⟩
    rw [hr] at hr'
    cases hr'
    exact h
  rw [halters, not_or, not_not, AccountStore.Same, hsame, hsessions']

/-- An update is refused before anything is written, or not at all. -/
theorem updateUser_comes (env : Env) (id : String) (c : Changes) :
    Comes S (updateUser env id c) s fun result s' ↦
      (∀ e, result = .error e → s' = s ∧ ¬Accepted S s id c) ∧
      (∀ u, result = .ok u → Accepted S s id c ∧ (S.users s' id).isSome ∧
        (S.Same s s' ↔ ¬Alters S s id c (env.clock 0))) := by
  rw [updateUser]
  rcases hr : S.users s id with _ | r
  · have hnone : ¬Accepted S s id c := fun ⟨r, hr', _⟩ ↦ by
      rw [hr] at hr'
      cases hr'
    refine (getUser_comes id).andThen (fun e s' ⟨hs, he⟩ ↦ ?_) fun u s' ⟨hs, hu⟩ ↦ ?_
    · exact ⟨fun _ _ ↦ ⟨hs, hnone⟩, fun u hu ↦ by cases hu⟩
    · rw [hr] at hu
      cases hu
  have haccepted : Accepted S s id c ↔
      (c.losingAdmin (S.user r) → 1 < S.admins s) ∧ c.checkRole = .ok () := by
    refine ⟨fun ⟨r', hr', h⟩ ↦ ?_, fun h ↦ ⟨r, hr, h⟩⟩
    rw [hr] at hr'
    cases hr'
    exact h
  refine (getUser_comes id).andThen (fun e s' ⟨hs, he⟩ ↦ ?_) fun u s' ⟨hs, hu⟩ ↦ ?_
  · rw [hr] at he
    cases he
  cases hs
  rw [hr] at hu
  cases hu
  have hadmin : Comes S (if c.losingAdmin (S.user r) then requireAnotherAdmin else pure () :
      Method Unit) s fun result s' ↦ s' = s ∧
        ((∃ e, result = .error e) ∧ ¬(c.losingAdmin (S.user r) → 1 < S.admins s) ∨
          result = .ok () ∧ (c.losingAdmin (S.user r) → 1 < S.admins s)) := by
    split
    · rename_i hlosing
      refine requireAnotherAdmin_comes.mono fun result s' h ↦ ?_
      simpa only [hlosing, true_imp_iff] using h
    · rename_i hlosing
      exact comes_pure ⟨rfl, .inr ⟨rfl, fun h ↦ absurd h hlosing⟩⟩
  refine hadmin.andThen (fun e s' ⟨hs, h⟩ ↦ ?_) fun _ s' ⟨hs, h⟩ ↦ ?_
  · obtain ⟨-, hno⟩ | ⟨he, -⟩ := h
    · refine ⟨fun _ _ ↦ ⟨hs, fun h ↦ hno (haccepted.mp h).1⟩, fun u hu ↦ by cases hu⟩
    · cases he
  cases hs
  obtain ⟨⟨e, he⟩, -⟩ | ⟨-, hyes⟩ := h
  · cases he
  have hrole : Comes S (computed c.checkRole) s fun result s' ↦ s' = s ∧ result = c.checkRole :=
    comes_computed ⟨rfl, rfl⟩
  refine hrole.andThen (fun e s' ⟨hs, he⟩ ↦ ?_) fun _ s' ⟨hs, hok⟩ ↦ ?_
  · refine ⟨fun _ _ ↦ ⟨hs, fun h ↦ ?_⟩, fun u hu ↦ by cases hu⟩
    rw [(haccepted.mp h).2] at he
    cases he
  cases hs
  refine (write_comes hr c (env.clock 0)).mono fun result s' ⟨⟨u, hu⟩, h⟩ ↦ ?_
  subst hu
  exact ⟨fun e he ↦ (by cases he), fun _ _ ↦ ⟨haccepted.mpr ⟨hyes, hok.symm⟩, h⟩⟩

/-! ## The requests -/

/-- What is answered, and what is stored afterwards. -/
def respond (S : AccountStore σ υ ς) (env : Env) (service : Option Service)
    (principal : Option Principal) (req : Request) (s : σ) : Except ApiError Reply × σ :=
  (handle env service principal req).run.run S.exec s

/-- No call of the store fails. -/
def Undisturbed (S : AccountStore σ υ ς) (env : Env) (service : Option Service)
    (principal : Option Principal) (req : Request) (s : σ) : Prop :=
  (handle env service principal req).run.Answers S.exec Answered s

/-- An update makes a difference, and comes with a password that is refused. -/
def RefusedLate (S : AccountStore σ υ ς) (env : Env) (s : σ) : Request → Prop
  | .updateUser id (.ok req) => ∃ role password, parseRoleIf env req.role = .ok role ∧
    req.password = some password ∧ (∃ e, hashPassword env password = .error e) ∧
    Accepted S s id ⟨role, req.displayName, req.disabled⟩ ∧
    Alters S s id ⟨role, req.displayName, req.disabled⟩ (env.clock 0)
  | _ => False

/-- The last part of the update, which may find that the password is refused. -/
theorem resetPassword_comes (env : Env) (id : String) (password : Option String)
    (hid : (S.users s id).isSome) : Comes S (resetPassword env id password) s fun r s' ↦
      (∀ e, r = .error e → s' = s ∧
        ∃ pw, password = some pw ∧ ∃ e, hashPassword env pw = .error e) ∧
      (∀ a, r = .ok a → ∀ pw, password = some pw → ∃ hash, hashPassword env pw = .ok hash) := by
  cases password with
  | none => exact comes_pure ⟨fun e he ↦ (by cases he), fun a _ pw hpw ↦ (by cases hpw)⟩
  | some password =>
    refine comes_serve ((setPassword_comes env _ id password "").mono fun r s' ⟨herror, hok⟩ ↦ ?_)
    cases r with
    | error e =>
      obtain ⟨hs, hnone | hhash⟩ := herror e rfl
      · rw [hnone] at hid
        cases hid
      · exact ⟨fun _ _ ↦ ⟨hs, password, rfl, hhash⟩, fun a ha ↦ (by cases ha)⟩
    | ok a =>
      refine ⟨fun e he ↦ (by cases he), fun a' _ pw hpw ↦ ?_⟩
      cases hpw
      exact hok a rfl

/-- Where it refuses, the same is stored, unless this is such an update. -/
theorem handleUpdateUser_comes (env : Env) (id : String) (body : Body UpdateUserRequest) :
    Comes S (handleUpdateUser env id body) s fun r s' ↦
      ((∃ e, r = .error e) → S.Same s s') ↔ ¬RefusedLate S env s (.updateUser id body) := by
  have hearly : ∀ {s' : σ} {p : Prop}, s' = s → ¬RefusedLate S env s (.updateUser id body) →
      ((p → S.Same s s') ↔ ¬RefusedLate S env s (.updateUser id body)) :=
    fun hs hlate ↦ iff_of_true (fun _ ↦ hs ▸ .refl S s) hlate
  rw [handleUpdateUser]
  have hbody : Comes S (answer (decodeBody body)) s fun r s' ↦ s' = s ∧ r = decodeBody body :=
    comes_answer ⟨rfl, rfl⟩
  refine hbody.andThen (fun e s' ⟨hs, he⟩ ↦ hearly hs ?_) fun req s' ⟨hs, hreq⟩ ↦ ?_
  · cases body with
    | error text => exact not_false
    | ok req => cases he
  cases hs
  cases body with
  | error text => cases hreq
  | ok body =>
    cases hreq
    have hrole : Comes S (answer (parseRoleIf env req.role)) s fun r s' ↦
        s' = s ∧ r = parseRoleIf env req.role := comes_answer ⟨rfl, rfl⟩
    refine hrole.andThen (fun e s' ⟨hs, he⟩ ↦ hearly hs ?_) fun role s' ⟨hs, hrole⟩ ↦ ?_
    · rintro ⟨role, password, hrole, -⟩
      rw [hrole] at he
      cases he
    cases hs
    have hlate : RefusedLate S env s (.updateUser id (.ok req)) ↔
        (∃ pw, req.password = some pw ∧ ∃ e, hashPassword env pw = .error e) ∧
          Accepted S s id ⟨role, req.displayName, req.disabled⟩ ∧
          Alters S s id ⟨role, req.displayName, req.disabled⟩ (env.clock 0) := by
      constructor
      · rintro ⟨role', password, hrole', hpassword, hhash, h⟩
        rw [hrole'] at hrole
        cases hrole
        exact ⟨⟨password, hpassword, hhash⟩, h⟩
      · rintro ⟨⟨password, hpassword, hhash⟩, h⟩
        exact ⟨role, password, hrole.symm, hpassword, hhash, h⟩
    have hupdate : Comes S (serve (updateUser env id ⟨role, req.displayName, req.disabled⟩)
        (userError env id "updating the user failed")) s fun r s' ↦
        (∀ e, r = .error e → s' = s ∧ ¬Accepted S s id ⟨role, req.displayName, req.disabled⟩) ∧
        (∀ u, r = .ok u → Accepted S s id ⟨role, req.displayName, req.disabled⟩ ∧
          (S.users s' id).isSome ∧ (S.Same s s' ↔
            ¬Alters S s id ⟨role, req.displayName, req.disabled⟩ (env.clock 0))) := by
      refine comes_serve ((updateUser_comes env id _).mono fun r s' h ↦ ?_)
      cases r with
      | error e => exact ⟨fun _ _ ↦ h.1 e rfl, fun u hu ↦ (by cases hu)⟩
      | ok u => exact ⟨fun e he ↦ (by cases he), fun u' _ ↦ h.2 u rfl⟩
    refine hupdate.andThen (fun e s' h ↦ ?_) fun u s₁ h ↦ ?_
    · obtain ⟨hs, hno⟩ := h.1 e rfl
      exact hearly hs fun hlater ↦ hno (hlate.mp hlater).2.1
    · obtain ⟨haccepted, hid, hsame⟩ := h.2 u rfl
      refine (resetPassword_comes env id req.password hid).andThen (fun e s' h ↦ ?_)
        fun _ s' h ↦ comes_pure ?_
      · obtain ⟨rfl, hpassword⟩ := h.1 e rfl
        rw [imp_iff_right ⟨e, rfl⟩, hlate, hsame, not_iff_not]
        exact ⟨fun halters ↦ ⟨hpassword, haccepted, halters⟩, fun hlater ↦ hlater.2.2⟩
      · refine iff_of_true (fun ⟨e, he⟩ ↦ (by cases he)) fun hlater ↦ ?_
        obtain ⟨⟨pw, hpw, e, he⟩, -⟩ := hlate.mp hlater
        obtain ⟨hash, hhash⟩ := h.2 _ rfl pw hpw
        rw [he] at hhash
        cases hhash

theorem handleSetup_leavesAlone (env : Env) (service : Option Service) (body : Body SetupRequest) :
    LeavesAlone S (handleSetup env service body) s := by
  rw [handleSetup]
  refine (looks_answer _).before fun service ↦ ?_
  refine (looks_answer _).before fun req ↦ ?_
  have hsetup := (setup_leavesAlone (S := S) (s := s) env service req.username req.displayName
    req.password).serve (setupError env)
  refine Comes.andThen hsetup (fun e s' hs _ _ ↦ hs e rfl) fun u s' _ ↦ ?_
  -- Whatever comes of the login, there is an account to answer with.
  refine (comes_attempt _).andThen (fun e s'' ⟨_, he⟩ ↦ by cases he) fun r s'' _ ↦ ?_
  cases r with
  | error e => exact comes_pure fun e he ↦ by cases he
  | ok x => exact comes_pure fun e he ↦ by cases he

theorem handleCreateUser_leavesAlone (env : Env) (body : Body CreateUserRequest) :
    LeavesAlone S (handleCreateUser env body) s := by
  rw [handleCreateUser]
  refine (looks_answer _).before fun req ↦ ?_
  refine (looks_answer _).before fun role ↦ ?_
  exact ((createUser_leavesAlone env _ _ _ _).serve _).return _

theorem handleDeleteUser_leavesAlone (env : Env) (principal : Option Principal) (id : String) :
    LeavesAlone S (handleDeleteUser env principal id) s := by
  rw [handleDeleteUser]
  refine (looks_answer _).before fun _ ↦ ?_
  exact ((deleteUser_leavesAlone id).serve _).return _

theorem handleChangePassword_leavesAlone (env : Env) (principal : Option Principal)
    (body : Body ChangePasswordRequest) :
    LeavesAlone S (handleChangePassword env principal body) s := by
  rw [handleChangePassword]
  refine (looks_answer _).before fun p ↦ ?_
  refine (looks_answer _).before fun req ↦ ?_
  refine (looks_answer _).before fun _ ↦ ?_
  exact ((setPassword_leavesAlone env _ _ _ _).serve _).return _

theorem handle_comes (env : Env) (service : Option Service) (principal : Option Principal)
    (req : Request) : Comes S (handle env service principal req) s fun r s' ↦
      ((∃ e, r = .error e) → S.Same s s') ↔ ¬RefusedLate S env s req := by
  have hother : ∀ {p : Handler Reply}, LeavesAlone S p s → ∀ {late : Prop}, ¬late →
      Comes S p s fun r s' ↦ ((∃ e, r = .error e) → S.Same s s') ↔ ¬late :=
    fun h _ hlate ↦ h.mono fun r s' hr ↦
      iff_of_true (fun ⟨e, he⟩ ↦ hr e he ▸ .refl S s) hlate
  cases req with
  | setup body => exact hother (handleSetup_leavesAlone env service body) not_false
  | createUser body => exact hother (handleCreateUser_leavesAlone env body) not_false
  | updateUser id body => exact handleUpdateUser_comes env id body
  | deleteUser id => exact hother (handleDeleteUser_leavesAlone env principal id) not_false
  | changePassword body =>
    exact hother (handleChangePassword_leavesAlone env principal body) not_false

/-- **A request that is refused changes nothing, unless it is an update that is refused late.** -/
theorem refused_changes_nothing_iff (S : AccountStore σ υ ς) (env : Env) (service : Option Service)
    (principal : Option Principal) (req : Request) (s : σ)
    (h : Undisturbed S env service principal req s) :
    ((∃ e, (respond S env service principal req s).1 = .error e) →
      S.Same s (respond S env service principal req s).2) ↔ ¬RefusedLate S env s req :=
  Program.ensures_iff.mp (handle_comes env service principal req).ensures h

/-! ### On a unit with two accounts -/

theorem memStore_answered (lower : Char → Char) (scan : Scan User Session) (m : MemAccounts)
    (op : AccountOp) : Answered op ((memStore lower scan).exec m op).1 := by
  have hfound : ∀ {α : Type} (x : Option α) doing, found x ≠ .error (.failed doing) :=
    fun x doing ↦ by cases x <;> simp [found]
  intro doing
  cases op with
  | getUser | getUserByUsername | getUserByOIDC | getSession => exact hfound _ doing
  | deleteUser id | touchSession id | deleteSession id =>
    simp only [memStore, MemAccounts.exec]
    split <;> simp
  | _ => simp [memStore, MemAccounts.exec]

/-- In memory no call fails. -/
theorem memStore_undisturbed (lower : Char → Char) (scan : Scan User Session) (env : Env)
    (service : Option Service) (principal : Option Principal) (req : Request) (m : MemAccounts) :
    Undisturbed (memStore lower scan) env service principal req m :=
  Program.answers_of_forall (memStore_answered lower scan) _

/-- An environment that has a salt and the rest. -/
def benchEnv : Env where
  lower := Char.toLower
  quote := String.quote
  storeText
    | .notFound => "not found"
    | .failed doing => doing
  clock n := 1000 + n
  salt := some [1, 2, 3]
  newID := some "u3"
  newToken := some "token"
  tokenID token := token
  encode password _ := password
  verifyPassword hash password := hash = password
  userAgent := "curl"
  clientIP := "127.0.0.1"

/-- An admin, and an operator who is signed in. -/
def twoAccounts : MemAccounts where
  users := (Keyed.empty.put
    { userID := "u1", username := "root", role := .admin, createdAt := 1, updatedAt := 1 }).put
    { userID := "u2", username := "ops", role := .operator, createdAt := 1, updatedAt := 1 }
  sessions := Keyed.empty.put
    { sessionID := "s1", userID := "u2", createdAt := 1, expiresAt := 2000, lastSeen := 1 }

/-- To make a viewer of the operator, with a password that is too short. -/
def demotion : Request :=
  .updateUser "u2" (.ok { role := some "viewer", password := some "short" })

/-- The request is refused, but the operator has been demoted and signed out. -/
theorem demotion_refused :
    let S := memStore Char.toLower default
    Undisturbed S benchEnv (some {}) none demotion twoAccounts ∧
      (respond S benchEnv (some {}) none demotion twoAccounts).1 =
        .error (invalidParameter "password" "password is too weak: use at least 12 characters") ∧
      ¬S.Same twoAccounts (respond S benchEnv (some {}) none demotion twoAccounts).2 := by
  intro S
  have hbefore : (S.users twoAccounts "u2").map User.role = some .operator := by decide
  have hafter : (S.users (respond S benchEnv (some {}) none demotion twoAccounts).2 "u2").map
      User.role = some .viewer := by decide
  refine ⟨memStore_undisturbed _ _ _ _ _ _ _, by decide, fun hsame ↦ ?_⟩
  rw [hsame.1, hbefore] at hafter
  exact absurd hafter (by decide)

/-- Of the last admin, the demotion itself is refused, and nothing is changed. -/
theorem lastAdmin_refused :
    let S := memStore Char.toLower default
    let req : Request := .updateUser "u1" (.ok { role := some "viewer", password := some "short" })
    (∃ e, (respond S benchEnv (some {}) none req twoAccounts).1 = .error e) ∧
      S.Same twoAccounts (respond S benchEnv (some {}) none req twoAccounts).2 := by
  intro S req
  have hrefused : (respond S benchEnv (some {}) none req twoAccounts).1 = .error (conflict
      "this is the only enabled admin; promote another account first") := by decide
  have hintime : ¬RefusedLate S benchEnv twoAccounts req := by
    rintro ⟨role, password, hrole, -, -, ⟨r, hr, hlosing, -⟩, -⟩
    have hviewer : parseRoleIf benchEnv (some "viewer") = .ok (some .viewer) := by decide
    have hroot : (S.users twoAccounts "u1").map (fun r ↦ Changes.losingAdmin
        ⟨some .viewer, none, none⟩ (S.user r)) = some true := by decide
    rw [hviewer] at hrole
    cases hrole
    rw [hr, Option.map_some, Option.some_inj] at hroot
    exact absurd (hlosing hroot) (by decide)
  exact ⟨⟨_, hrefused⟩, (refused_changes_nothing_iff S benchEnv (some {}) none req twoAccounts
    (memStore_undisturbed _ _ _ _ _ _ _)).mpr hintime ⟨_, hrefused⟩⟩

end ClassG.Auth
