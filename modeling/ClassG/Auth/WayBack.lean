import ClassG.Auth.Administrators
import ClassG.Auth.Refused

/-!
# There is always a way back in

Every call of the service keeps an administrator, if none of its writes races with another call's.
So there always is one, once there is one; and until then the unit can be set up, unless an account
of another kind is put first.
-/

set_option autoImplicit false

namespace ClassG.Auth

open Store

section calls

variable {ι σ υ ς : Type} [DecidableEq ι] {S : UserTable σ υ ς} {site : Site σ}
  {bare : Prop} {i : ι} {w w' : AccountWorld ι σ} {id : String}

/-! ## The calls -/

variable {k : AccountCall} {ε ε' α β : Type}

/-- What is shown of a part of a call. -/
structure Does (S : UserTable σ υ ς) (site : Site σ) (bare : Prop) (i : ι) (k : AccountCall)
    (p : Program.Fallible accountOps ε α) (w : AccountWorld ι σ)
    (Q : Except ε α → AccountWorld ι σ → Prop) : Prop where
  proves : (wayBack S ι bare).Proves (accounts ι S site) i k Q p.run w

/-- It keeps an administrator, whatever comes of it. -/
def Safe (S : UserTable σ υ ς) (site : Site σ) (bare : Prop) (i : ι) (k : AccountCall)
    (p : Program.Fallible accountOps ε α) (w : AccountWorld ι σ) : Prop :=
  Does S site bare i k p w fun _ _ ↦ True

theorem Does.mono {p : Program.Fallible accountOps ε α}
    {Q Q' : Except ε α → AccountWorld ι σ → Prop} (h : Does S site bare i k p w Q)
    (hQ : ∀ r w, Q r w → Q' r w) : Does S site bare i k p w Q' := ⟨h.proves.mono hQ⟩

theorem Does.safe {p : Program.Fallible accountOps ε α} {Q : Except ε α → AccountWorld ι σ → Prop}
    (h : Does S site bare i k p w Q) : Safe S site bare i k p w := h.mono fun _ _ _ ↦ trivial

theorem Does.bind {p : Program.Fallible accountOps ε α}
    {f : α → Program.Fallible accountOps ε β} {P : Except ε α → AccountWorld ι σ → Prop}
    {Q : Except ε β → AccountWorld ι σ → Prop} (h : Does S site bare i k p w P)
    (herror : ∀ e w, P (.error e) w → Q (.error e) w)
    (hok : ∀ a w, P (.ok a) w → Does S site bare i k (f a) w Q) :
    Does S site bare i k (p >>= f) w Q :=
  ⟨h.proves.andThen herror fun a w ha ↦ (hok a w ha).proves⟩

theorem Does.andThen {p : Program.Fallible accountOps ε α}
    {f : α → Program.Fallible accountOps ε β} {P : Except ε α → AccountWorld ι σ → Prop}
    (h : Does S site bare i k p w P) (hok : ∀ a w, P (.ok a) w → Safe S site bare i k (f a) w) :
    Safe S site bare i k (p >>= f) w := Does.bind h (fun _ _ _ ↦ trivial) hok

theorem Safe.andThen {p : Program.Fallible accountOps ε α}
    {f : α → Program.Fallible accountOps ε β} (h : Safe S site bare i k p w)
    (hf : ∀ a w, Safe S site bare i k (f a) w) : Safe S site bare i k (p >>= f) w :=
  Does.andThen h fun a w _ ↦ hf a w

theorem does_pure {a : α} {Q : Except ε α → AccountWorld ι σ → Prop} (h : Q (.ok a) w) :
    Does S site bare i k (pure a : Program.Fallible accountOps ε α) w Q := ⟨h⟩

theorem safe_throw (e : ε) :
    Safe S site bare i k (throw e : Program.Fallible accountOps ε α) w := ⟨trivial⟩

theorem does_computed (r : Except AuthError α) :
    Does S site bare i k (computed r) w fun _ w' ↦ w' = w := ⟨rfl⟩

theorem does_drawn (doing : String) (x : Option α) :
    Does S site bare i k (drawn doing x) w fun r w' ↦ w' = w ∧ ∀ a, r = .ok a → x = some a := by
  cases x with
  | none => exact ⟨rfl, fun _ h ↦ by cases h⟩
  | some a => exact ⟨rfl, fun _ h ↦ by cases h; rfl⟩

theorem does_adapt {p : Program.Fallible accountOps ε α} {f : ε → ε'}
    {Q : Except ε' α → AccountWorld ι σ → Prop}
    (h : Does S site bare i k p w fun r w ↦ Q (r.mapError f) w) :
    Does S site bare i k (p.adapt f) w Q := ⟨Outline.proves_bind.mpr h.proves⟩

/-- A call of the store. -/
theorem does_ask {op : AccountOp}
    {Q : Except AuthError (Except StoreError op.Result) → AccountWorld ι σ → Prop}
    (h : ∀ w' e, (wayBack S ι bare).Finds i w w' → (wayBack S ι bare).assume i k w' op →
      (wayBack S ι bare).Keeps i w' ((accounts ι S site).act i e w' op) ∧
        Q (.ok ((accounts ι S site).effect i e w'.shared op).1)
          ((accounts ι S site).act i e w' op)) :
    Does S site bare i k (ask op) w Q := by
  refine ⟨fun w' hw e _ hassume ↦ ?_⟩
  obtain ⟨hkeeps, hQ⟩ := h w' e hw hassume
  exact ⟨trivial, hkeeps, hQ⟩

theorem does_store {op : AccountOp} {Q : Except AuthError op.Result → AccountWorld ι σ → Prop}
    (h : ∀ w' e, (wayBack S ι bare).Finds i w w' → (wayBack S ι bare).assume i k w' op →
      (wayBack S ι bare).Keeps i w' ((accounts ι S site).act i e w' op) ∧
        Q (((accounts ι S site).effect i e w'.shared op).1.mapError .store)
          ((accounts ι S site).act i e w' op)) :
    Does S site bare i k (store op) w Q := by
  refine ⟨fun w' hw e _ hassume ↦ ?_⟩
  obtain ⟨hkeeps, hQ⟩ := h w' e hw hassume
  refine ⟨trivial, hkeeps, ?_⟩
  cases hr : ((accounts ι S site).effect i e w'.shared op).1 with
  | ok r =>
    rw [hr] at hQ
    exact hQ
  | error e =>
    rw [hr] at hQ
    exact hQ

theorem safe_ask {op : AccountOp} (hop : ¬op.writesUsers) : Safe S site bare i k (ask op) w :=
  does_ask fun _ _ hw _ ↦ ⟨keeps_other hw.2.2 hop, trivial⟩

theorem safe_store {op : AccountOp} (hop : ¬op.writesUsers) : Safe S site bare i k (store op) w :=
  does_store fun _ _ hw _ ↦ ⟨keeps_other hw.2.2 hop, trivial⟩

/-! ### What is read -/

theorem not_writesUsers_of_readsUser {op : AccountOp} (h : op.readsUser) : ¬op.writesUsers := by
  cases op <;> simp [AccountOp.writesUsers, AccountOp.readsUser] at h ⊢

/-- A user who has been read and is no administrator is none. -/
theorem unpromoted_of_read {e : Option String} {op : AccountOp} (hop : op.readsUser)
    (hid : ¬IsAdmin S w.shared id) : Unpromoted S i ((accounts ι S site).act i e w op) id := by
  intro _
  rwa [isAdmin_of_same (lookup_act w i e (not_writesUsers_of_readsUser hop))]

theorem mayWrite_of_read {e : Option String} {op : AccountOp} {u : User} (hop : op.readsUser)
    (hw : (wayBack S ι bare).inv w) (hu : S.lookup w.shared u.userID = some u) :
    MayWrite S i ((accounts ι S site).act i e w op) u.userID u.enabledAdmin := by
  by_cases hadmin : u.enabledAdmin
  · exact .inl hadmin
  refine .inr ⟨?_, .inl (unpromoted_of_read hop ?_)⟩
  · obtain ⟨id, hid⟩ := hw.resolve_right fun ⟨_, hno⟩ ↦ by rw [hno] at hu; cases hu
    exact ⟨id, (isAdmin_of_same (lookup_act w i e (not_writesUsers_of_readsUser hop))).mpr hid⟩
  · rintro ⟨v, hv, henabled⟩
    obtain rfl := Option.some.inj (hu.symm.trans hv)
    exact hadmin henabled

theorem does_getUser (id : String) : Does S site bare i k (store (.getUser id)) w fun r w' ↦
    ∀ u, r = .ok u → u.userID = id ∧ MayWrite S i w' u.userID u.enabledAdmin := by
  refine does_store fun w' e hw _ ↦ ⟨keeps_other hw.2.2 (by simp [AccountOp.writesUsers]), ?_⟩
  intro u hu
  cases e with
  | some doing => cases hu
  | none =>
    have hlookup : S.lookup w'.shared id = some u := by
      change (S.exec w'.shared (.getUser id)).1.mapError AuthError.store = .ok u at hu
      rw [S.exec_getUser] at hu
      cases hx : S.lookup w'.shared id with
      | none =>
        rw [hx] at hu
        cases hu
      | some v =>
        rw [hx] at hu
        cases hu
        rfl
    have hid := S.userID_of_lookup hlookup
    exact ⟨hid, mayWrite_of_read rfl hw.2.2 (by rw [hid, hlookup])⟩

/-- What a thread knows when it has looked a user up: of the user, and of an id it will draw. -/
structure Looked (S : UserTable σ υ ς) (i : ι) (k : AccountCall) (ans : Except StoreError User)
    (w : AccountWorld ι σ) : Prop where
  mayWrite : ∀ u, ans = .ok u → MayWrite S i w u.userID u.enabledAdmin
  unpromoted : ∀ id, k.drawnID = some id → Unpromoted S i w id

theorem looked_of_read {op : AccountOp} {e : Option String} {ans : Except StoreError User}
    (hop : op.readsUser) (hw : (wayBack S ι bare).inv w)
    (hassume : (wayBack S ι bare).assume i k w op)
    (hans : ∀ u, ans = .ok u → S.lookup w.shared u.userID = some u) :
    Looked S i k ans ((accounts ι S site).act i e w op) where
  mayWrite u hu := mayWrite_of_read hop hw (hans u hu)
  unpromoted id hid := by
    refine unpromoted_of_read hop ?_
    rintro ⟨u, hu, -⟩
    rw [hassume.2.2 hop id hid] at hu
    cases hu

theorem does_getUserByUsername (name : String) :
    Does S site bare i k (ask (.getUserByUsername name)) w fun r w' ↦
      ∀ ans, r = .ok ans → Looked S i k ans w' := by
  refine does_ask fun w' e hw hassume ↦ ⟨keeps_other hw.2.2 (by simp [AccountOp.writesUsers]), ?_⟩
  rintro ans ⟨⟩
  refine looked_of_read rfl hw.2.2 hassume fun u hu ↦ ?_
  cases e with
  | some doing => cases hu
  | none => exact S.lookup_of_username hu

theorem does_getUserByOIDC (issuer subject : String) :
    Does S site bare i k (ask (.getUserByOIDC issuer subject)) w fun r w' ↦
      ∀ ans, r = .ok ans → Looked S i k ans w' := by
  refine does_ask fun w' e hw hassume ↦ ⟨keeps_other hw.2.2 (by simp [AccountOp.writesUsers]), ?_⟩
  rintro ans ⟨⟩
  refine looked_of_read rfl hw.2.2 hassume fun u hu ↦ ?_
  cases e with
  | some doing => cases hu
  | none => exact S.lookup_of_oidc hu

/-- When the administrators have been counted, each of them may go. -/
theorem does_requireAnotherAdmin (id : String) :
    Does S site bare i k requireAnotherAdmin w fun r w' ↦
      r = .ok () → MayWrite S i w' id False := by
  have hcount : Does S site bare i k (store .countAdmins) w fun r w' ↦
      ∀ n, r = .ok n → 1 < n → MayWrite S i w' id False := by
    refine does_store fun w' e hw _ ↦ ⟨keeps_other hw.2.2 (by simp [AccountOp.writesUsers]), ?_⟩
    intro n hn hlt
    cases e with
    | some doing => cases hn
    | none =>
      change (S.exec w'.shared .countAdmins).1.mapError AuthError.store = .ok n at hn
      rw [S.countAdmins] at hn
      cases hn
      obtain ⟨id', r, hr, hadmin, hid'⟩ := S.exists_ne_of_one_lt_admins _ hlt id
      have hother : IsAdmin S ((accounts ι S site).act i none w' .countAdmins).shared id' :=
        (isAdmin_of_same (lookup_act w' i none (by simp [AccountOp.writesUsers]))).mpr
          ⟨S.user r, by rw [UserTable.lookup, hr, Option.map_some], hadmin⟩
      exact .inr ⟨⟨id', hother⟩, .inr fun _ ↦ ⟨id', hid', hother⟩⟩
  refine hcount.bind (fun _ _ _ h ↦ by cases h) fun n w' hn ↦ ?_
  split
  · exact ⟨fun h ↦ by cases h⟩
  · rename_i hlt
    exact does_pure fun _ ↦ hn n rfl (Nat.lt_of_not_le hlt)

/-! ### What is written -/

/-- What the thread knows of a user outlasts what is not about users. -/
theorem MayWrite.act {stays : Prop} (h : MayWrite S i w id stays) (e : Option String)
    {op : AccountOp} (hop : ¬op.writesUsers) (hreads : ¬op.readsUser) (hcount : op ≠ .countAdmins) :
    MayWrite S i ((accounts ι S site).act i e w op) id stays := by
  have hiff (id) : IsAdmin S ((accounts ι S site).act i e w op).shared id ↔ IsAdmin S w.shared id :=
    isAdmin_of_same (lookup_act w i e hop)
  -- Neither a user has been read nor the administrators counted anew.
  have hsince {p : What AccountCall accountOps Outcome → Bool} {x : AccountMoment ι σ}
      (hp : ∀ ans, p (.did op ans) = false) (hx : x ∈ since i p w.history) :
      x ∈ since i p ((accounts ι S site).act i e w op).history := by
    rw [Component.act, since_cons_of_not (by simp [Moment.own, hp])]
    exact List.mem_cons_of_mem _ hx
  refine h.imp_right fun hwritten ↦ ?_
  obtain ⟨⟨id', hadmin⟩, h⟩ := hwritten
  refine ⟨⟨id', (hiff id').mpr hadmin⟩, h.imp ?_ ?_⟩
  · intro h hpromotes
    rw [hiff]
    exact h fun x hx ↦ hpromotes x (hsince (fun _ ↦ by simpa [Auth.readsUser] using hreads) hx)
  · intro h hdismisses
    have hnot (ans) : countsAdmins (.did op ans) = false := by
      cases op <;> first | rfl | exact absurd rfl hcount
    obtain ⟨id', hid', hadmin⟩ := h fun x hx ↦ hdismisses x (hsince hnot hx)
    exact ⟨id', hid', (hiff id').mpr hadmin⟩

/-- A user is put who may be. -/
theorem does_putUser {u : User}
    (hmay : ∀ w', (wayBack S ι bare).Finds i w w' →
      (wayBack S ι bare).assume i k w' (.putUser u) → MayWrite S i w' u.userID u.enabledAdmin) :
    Does S site bare i k (store (.putUser u)) w fun r w' ↦
      r = .ok () → MayWrite S i w' u.userID u.enabledAdmin := by
  refine does_store fun w' e hw hassume ↦ ?_
  have hmay := hmay w' hw hassume
  have hkeeps : (wayBack S ι bare).Keeps i w' ((accounts ι S site).act i e w' (.putUser u)) :=
    keeps_putUser hw.2.2 hmay hassume.1
  refine ⟨hkeeps, fun hok ↦ ?_⟩
  cases e with
  | some doing => cases hok
  | none =>
    have hput : (S.exec w'.shared (.putUser u)).1 = .ok () := by
      change (S.exec w'.shared (.putUser u)).1.mapError AuthError.store = .ok () at hok
      cases hr : (S.exec w'.shared (.putUser u)).1 with
      | ok r => rfl
      | error e =>
        rw [hr] at hok
        cases hok
    obtain ⟨v, hv, h⟩ := UserTable.lookup_putUser hput
    by_cases hu : u.enabledAdmin
    · exact .inl hu
    refine .inr ⟨hkeeps.1.resolve_right fun ⟨_, hno⟩ ↦ ?_, .inl fun _ hadmin ↦ ?_⟩
    · have hnone : S.lookup (S.exec w'.shared (.putUser u)).2 u.userID = none := hno u.userID
      rw [h, Function.update_self] at hnone
      cases hnone
    · rw [Component.act] at hadmin
      have hnow := (isAdmin_of_put hv h).mp hadmin
      rw [if_pos rfl] at hnow
      exact hu hnow

theorem safe_ask_putUser {u : User} (hmay : MayWrite S i w u.userID u.enabledAdmin) :
    Safe S site bare i k (ask (.putUser u)) w :=
  does_ask fun _ _ hw hassume ↦ ⟨keeps_putUser hw.2.2 (hmay.finds hw) hassume.1, trivial⟩

theorem safe_deleteUser {id : String} (hmay : MayWrite S i w id False) :
    Safe S site bare i k (store (.deleteUser id)) w :=
  does_store fun _ _ hw hassume ↦ ⟨keeps_deleteUser hw.2.2 (hmay.finds hw) hassume.1, trivial⟩

/-! ### The methods -/

theorem safe_requireFree (username : String) : Does S site bare i k (requireFree username) w
    fun r w' ↦ r = .ok () → ∀ id, k.drawnID = some id → Unpromoted S i w' id := by
  refine (does_getUserByUsername username).bind (fun _ _ _ h ↦ by cases h) fun ans w' h ↦ ?_
  match ans with
  | .ok _ => exact ⟨fun h ↦ by cases h⟩
  | .error .notFound => exact does_pure fun _ ↦ (h _ rfl).unpromoted
  | .error (.failed _) => exact ⟨fun h ↦ by cases h⟩

/-- A new account may be put: if it is no administrator's, there is one already. -/
theorem mayWrite_of_new {u : User} (hnew : Unpromoted S i w u.userID)
    (hw : (wayBack S ι bare).Finds i w w')
    (hassume : (wayBack S ι bare).assume i k w' (.putUser u)) :
    MayWrite S i w' u.userID u.enabledAdmin := by
  by_cases hu : u.enabledAdmin
  · exact .inl hu
  · refine .inr ⟨hw.2.2.resolve_right fun ⟨hbare, hno⟩ ↦ ?_, .inl (hnew.finds hw)⟩
    exact hassume.2.1 hbare ⟨u.userID, by simp [AccountOp.dismisses, hu]⟩ hno

theorem safe_createUser (env : Env) (username displayName password : String) (role : Role)
    (hk : k.drawnID = env.newID) :
    Safe S site bare i k (createUser env username displayName password role) w := by
  rw [createUser]
  refine (does_computed _).andThen fun _ w _ ↦ ?_
  refine (does_computed _).andThen fun _ w _ ↦ ?_
  refine (does_computed _).andThen fun hash w _ ↦ ?_
  refine (safe_requireFree _).andThen fun _ w hnew ↦ ?_
  refine (does_drawn _ env.newID).andThen fun id w' hdrawn ↦ ?_
  obtain ⟨rfl, hid⟩ := hdrawn
  have hnew := hnew rfl id (hk.trans (hid id rfl))
  exact (does_putUser fun _ ↦ mayWrite_of_new hnew).andThen fun _ _ _ ↦ does_pure trivial

theorem safe_setup (env : Env) (service : Service) (username displayName password : String)
    (hk : k.drawnID = env.newID) :
    Safe S site bare i k (setup env service username displayName password) w := by
  rw [setup]
  have hneeds : Safe S site bare i k (needsSetup service) w := by
    rw [needsSetup]
    split
    · exact (safe_store (by simp [AccountOp.writesUsers])).andThen fun _ _ ↦ does_pure trivial
    · exact does_pure trivial
  refine hneeds.andThen fun needs w ↦ ?_
  cases needs
  · exact safe_throw _
  · exact safe_createUser env _ _ _ _ hk

/-- Unless an administrator is lost, one who is an administrator stays one. -/
theorem enabledAdmin_apply {c : Changes} {u : User} (hc : ¬c.losingAdmin u) (now : GoTime)
    (hu : u.enabledAdmin) : (c.apply now u).enabledAdmin := by
  have hkeep : (c.apply now u).role = .admin ∧ ¬(c.apply now u).disabled := by
    simp only [User.enabledAdmin, decide_eq_true_eq] at hu
    obtain ⟨hrole, hdisabled⟩ := hu
    simp only [Changes.losingAdmin, decide_eq_true_eq, hrole, hdisabled, not_and, not_or] at hc
    obtain ⟨hrole', hdisabled'⟩ := hc trivial (by simp)
    constructor
    · cases hr : c.role with
      | none => simp [Changes.apply, hr, hrole]
      | some r =>
        by_contra hne
        exact hrole' ⟨r, hr, by simpa [Changes.apply, hr] using hne⟩
    · cases hd : c.disabled with
      | none => simpa [Changes.apply, hd] using hdisabled
      | some d => simpa [Changes.apply, hd] using hdisabled'
  exact decide_eq_true hkeep

theorem safe_updateUser (env : Env) (id : String) (c : Changes) :
    Safe S site bare i k (updateUser env id c) w := by
  rw [updateUser]
  refine (does_getUser id).andThen fun u w hu ↦ ?_
  obtain ⟨hid, hmay⟩ := hu u rfl
  have hguard : Does S site bare i k (if c.losingAdmin u then requireAnotherAdmin else pure () :
      Method Unit) w fun r w' ↦
        r = .ok () → MayWrite S i w' u.userID (c.apply (env.clock 0) u).enabledAdmin := by
    split
    · refine (does_requireAnotherAdmin u.userID).mono fun r w' h hr ↦ ?_
      exact .inr ((h hr).resolve_left not_false)
    · rename_i hc
      exact does_pure fun _ ↦ hmay.imp_left (enabledAdmin_apply hc _)
  refine hguard.andThen fun _ w hmay ↦ ?_
  have hmay := hmay rfl
  refine (does_computed _).andThen fun _ w' hw ↦ ?_
  subst hw
  refine (does_putUser (u := c.apply (env.clock 0) u) fun _ hw _ ↦ hmay.finds hw).andThen
    fun _ w _ ↦ ?_
  have hrevoke : Safe S site bare i k (if (c.apply (env.clock 0) u).disabled ∨ c.role.isSome then do
      let _ ← ask (.deleteUserSessions id) else pure () : Method Unit) w := by
    split
    · exact (safe_ask (by simp [AccountOp.writesUsers])).andThen fun _ _ ↦ does_pure trivial
    · exact does_pure trivial
  exact hrevoke.andThen fun _ _ ↦ does_pure trivial

theorem safe_deleteMethod (id : String) : Safe S site bare i k (deleteUser id) w := by
  rw [deleteUser]
  refine (does_getUser id).andThen fun u w hu ↦ ?_
  obtain ⟨hid, hmay⟩ := hu u rfl
  have hguard : Does S site bare i k (if u.role = .admin ∧ !u.disabled then requireAnotherAdmin
      else pure () : Method Unit) w fun r w' ↦ r = .ok () → MayWrite S i w' id False := by
    split
    · exact does_requireAnotherAdmin id
    · rename_i hu
      refine does_pure fun _ ↦ ?_
      have hnot : ¬u.enabledAdmin := by simpa [User.enabledAdmin] using hu
      exact .inr (hid ▸ hmay.resolve_left hnot)
  exact hguard.andThen fun _ w hmay ↦ safe_deleteUser (hmay rfl)

theorem safe_revokeAll (userID keep : String) (sessions : List Session) :
    Safe S site bare i k (revokeAll userID keep sessions) w := by
  induction sessions generalizing w with
  | nil => exact does_pure trivial
  | cons session rest ih =>
    rw [revokeAll]
    split
    · exact ih
    · refine (safe_ask (by simp [AccountOp.writesUsers])).andThen fun ans w ↦ ?_
      rcases ans with (_ | _) | _
      · exact ih
      · exact safe_throw _
      · exact ih

theorem safe_setPassword (env : Env) (now : GoTime) (id password keep : String) :
    Safe S site bare i k (setPassword env now id password keep) w := by
  rw [setPassword]
  refine (does_getUser id).andThen fun u w hu ↦ ?_
  obtain ⟨-, hmay⟩ := hu u rfl
  refine (does_computed _).andThen fun hash w' hw ↦ ?_
  subst hw
  refine (does_putUser (u := { u with passwordHash := hash, updatedAt := now })
    fun _ hw _ ↦ hmay.finds hw).andThen fun _ w _ ↦ ?_
  rw [revokeExcept]
  exact (safe_store (by simp [AccountOp.writesUsers])).andThen fun _ _ ↦ safe_revokeAll _ _ _

theorem safe_startSession (env : Env) (service : Service) {u : User}
    (hmay : MayWrite S i w u.userID u.enabledAdmin) :
    Safe S site bare i k (startSession env service u) w := by
  rw [startSession]
  refine (does_drawn _ _).andThen fun token w' hdrawn ↦ ?_
  obtain ⟨rfl, -⟩ := hdrawn
  have hsession (session : Session) : Does S site bare i k (store (.putSession session)) w'
      fun _ w ↦ MayWrite S i w u.userID u.enabledAdmin :=
    does_store fun _ e hw _ ↦ ⟨keeps_other hw.2.2 (by simp [AccountOp.writesUsers]),
      (hmay.finds hw).act e (by simp [AccountOp.writesUsers]) (by simp [AccountOp.readsUser])
        (by simp)⟩
  refine (hsession _).andThen fun _ w hmay ↦ ?_
  refine (safe_ask_putUser (u := { u with
    lastLoginAt := some (env.clock 1), updatedAt := env.clock 1 }) hmay).andThen fun _ _ ↦ ?_
  exact does_pure trivial

theorem safe_login (env : Env) (service : Service) (username password : String) :
    Safe S site bare i k (login env service username password) w := by
  rw [login]
  refine (does_getUserByUsername username).andThen fun ans w h ↦ ?_
  match ans with
  | .error .notFound => exact safe_throw _
  | .error (.failed _) => exact safe_throw _
  | .ok u =>
    refine (does_computed _).andThen fun _ w' hw ↦ ?_
    subst hw
    exact (safe_startSession env service ((h _ rfl).mayWrite u rfl)).andThen
      fun _ _ ↦ does_pure trivial

/-! ### Single sign-on -/

theorem does_sso {p : Method α} {Q : α → AccountWorld ι σ → Prop}
    (h : Does S site bare i k p w fun r w ↦ ∀ a, r = .ok a → Q a w) :
    Does S site bare i k (sso p) w fun r w ↦ ∀ a, r = .ok a → Q a w := by
  refine does_adapt (h.mono fun r w hQ a ha ↦ hQ a ?_)
  cases r with
  | ok _ =>
    cases ha
    rfl
  | error e => cases ha

/-- Where it is refused, nothing is to be shown. -/
theorem Does.bindOk {p : Program.Fallible accountOps ε α} {f : α → Program.Fallible accountOps ε β}
    {P : α → AccountWorld ι σ → Prop} {Q : β → AccountWorld ι σ → Prop}
    (h : Does S site bare i k p w fun r w ↦ ∀ a, r = .ok a → P a w)
    (hok : ∀ a w, P a w → Does S site bare i k (f a) w fun r w ↦ ∀ b, r = .ok b → Q b w) :
    Does S site bare i k (p >>= f) w fun r w ↦ ∀ b, r = .ok b → Q b w :=
  h.bind (fun _ _ _ _ hb ↦ by cases hb) fun a w hP ↦ hok a w (hP a rfl)

theorem does_throw (e : ε) {Q : α → AccountWorld ι σ → Prop} :
    Does S site bare i k (throw e : Program.Fallible accountOps ε α) w
      fun r w ↦ ∀ a, r = .ok a → Q a w := ⟨fun _ ha ↦ by cases ha⟩

theorem does_sso_putUser {u : User}
    (hmay : ∀ w', (wayBack S ι bare).Finds i w w' →
      (wayBack S ι bare).assume i k w' (.putUser u) → MayWrite S i w' u.userID u.enabledAdmin) :
    Does S site bare i k (sso (store (.putUser u))) w
      fun r w' ↦ ∀ a, r = .ok a → MayWrite S i w' u.userID u.enabledAdmin :=
  does_sso ((does_putUser hmay).mono fun _ _ h _ hr ↦ h hr)

theorem does_createSSOUser (env : Env) (issuer subject username displayName : String) (role : Role)
    (hnew : ∀ id, env.newID = some id → Unpromoted S i w id) :
    Does S site bare i k (createSSOUser env issuer subject username displayName role) w
      fun r w' ↦ ∀ u, r = .ok u → MayWrite S i w' u.userID u.enabledAdmin := by
  rw [createSSOUser]
  refine (does_sso (Q := fun _ w' ↦ w' = w) ((does_computed _).mono fun _ _ h _ _ ↦ h)).bindOk
    fun _ w₁ hw ↦ ?_
  subst hw
  split
  · exact (does_throw _ (Q := fun _ _ ↦ False)).bindOk fun _ _ h ↦ h.elim
  refine (does_sso (Q := fun id w' ↦ w' = w₁ ∧ env.newID = some id)
    ((does_drawn _ _).mono fun _ _ h id hid ↦ ⟨h.1, h.2 id hid⟩)).bindOk
      fun id w' hdrawn ↦ ?_
  obtain ⟨rfl, hid⟩ := hdrawn
  refine (does_sso_putUser fun _ ↦ mayWrite_of_new (hnew id hid)).bindOk
    fun _ w hmay ↦ does_pure fun u hu ↦ ?_
  cases hu
  exact hmay

theorem does_provision (env : Env) (id : Identity) (role : Role) (hk : k.drawnID = env.newID) :
    Does S site bare i k (provision env id role) w
      fun r w' ↦ ∀ u, r = .ok u → MayWrite S i w' u.userID u.enabledAdmin := by
  rw [provision]
  refine (does_sso (does_getUserByUsername id.username)).bindOk fun ans w h ↦ ?_
  match ans with
  | .error (.failed _) => exact does_throw _
  | .error .notFound =>
    exact does_createSSOUser env _ _ _ _ role fun id hid ↦ h.unpromoted id (hk.trans hid)
  | .ok existing =>
    dsimp only
    split
    · exact does_throw _
    · have hmay := h.mayWrite existing rfl
      refine (does_sso_putUser (u := existing.linked id (env.clock 0))
        fun _ hw _ ↦ hmay.finds hw).bindOk fun _ w hmay ↦ does_pure fun u hu ↦ ?_
      cases hu
      exact hmay

theorem does_resolveSSOIdentity (env : Env) (id : Identity) (auto : Bool) (roleName : String)
    (hk : k.drawnID = env.newID) :
    Does S site bare i k (resolveSSOIdentity env id auto roleName) w
      fun r w' ↦ ∀ u, r = .ok u → MayWrite S i w' u.userID u.enabledAdmin := by
  rw [resolveSSOIdentity]
  refine (does_sso (does_getUserByOIDC id.issuer id.subject)).bindOk fun ans w h ↦ ?_
  match ans with
  | .error (.failed _) => exact does_throw _
  | .ok u =>
    dsimp only
    split
    · exact does_throw _
    · refine does_pure fun _ hu ↦ ?_
      cases hu
      exact h.mayWrite u rfl
  | .error .notFound =>
    dsimp only
    split
    · exact does_throw _
    · split
      · exact does_throw _
      · exact does_provision env id _ hk

/-! ### Whole calls -/

theorem returns (r : Outcome) (w : AccountWorld ι σ) : (wayBack S ι bare).Returns i k r w :=
  fun _ hw ↦ ⟨hw.2.2, fun _ _ ↦ ⟨id, traced_quiet _ rfl⟩⟩

/-- What is left of a call keeps an administrator. -/
structure Kept (S : UserTable σ υ ς) (site : Site σ) (bare : Prop) (i : ι) (k : AccountCall)
    (p : Program accountOps Outcome) (w : AccountWorld ι σ) : Prop where
  holds : (wayBack S ι bare).Holds (accounts ι S site) i k p w

theorem kept_pure (r : Outcome) : Kept S site bare i k (pure r) w := ⟨returns r w⟩

theorem Does.kept {p : Program.Fallible accountOps ε α} {Q : Except ε α → AccountWorld ι σ → Prop}
    (h : Does S site bare i k p w Q) {f : Except ε α → Program accountOps Outcome}
    (hf : ∀ r w, Q r w → Kept S site bare i k (f r) w) :
    Kept S site bare i k (p.run >>= f) w :=
  ⟨Outline.proves_bind.mpr (h.proves.mono fun r w hr ↦ (hf r w hr).holds)⟩

theorem Safe.kept_plain {p : Method α} (h : Safe S site bare i k p w) :
    Kept S site bare i k (plain p) w :=
  Does.kept h fun r w _ ↦ by cases r <;> exact kept_pure _

theorem safe_startSSOSession (env : Env) (service : Service) {u : User}
    (hmay : MayWrite S i w u.userID u.enabledAdmin) :
    Safe S site bare i k (startSSOSession env service u) w := by
  rw [startSSOSession]
  split
  · exact safe_throw _
  · exact safe_startSession env service hmay

theorem kept_signOn (env : Env) (service : Service) (p : Provider) (id : Identity)
    (hk : k.drawnID = env.newID) {f : CallbackReply → Program accountOps Outcome}
    (hf : ∀ r, ∃ o, f r = pure o) :
    Kept S site bare i k (signOn env service p id >>= f) w := by
  have hend (r : CallbackReply) (w : AccountWorld ι σ) : Kept S site bare i k (pure r >>= f) w := by
    obtain ⟨o, ho⟩ := hf r
    change Kept S site bare i k (f r) w
    rw [ho]
    exact kept_pure o
  refine ⟨Outline.proves_bind.mpr (Outline.proves_bind.mpr ?_)⟩
  refine (does_resolveSSOIdentity env id _ _ hk).proves.mono fun r w hr ↦ ?_
  cases r with
  | error e => exact (hend _ w).holds
  | ok u =>
    refine Outline.proves_bind.mpr ((safe_startSSOSession env service (hr u rfl)).proves.mono ?_)
    rintro (e | token) w -
    · exact (hend _ w).holds
    · exact (hend _ w).holds

theorem kept_callback (env : Env) (service : Service) (oidc : Option Provider) (q : Callback)
    (hk : k.drawnID = env.newID) {f : CallbackReply → Program accountOps Outcome}
    (hf : ∀ r, ∃ o, f r = pure o) :
    Kept S site bare i k (handleOIDCCallback env service oidc q >>= f) w := by
  have hend (r : CallbackReply) : Kept S site bare i k (pure r >>= f) w := by
    obtain ⟨o, ho⟩ := hf r
    change Kept S site bare i k (f r) w
    rw [ho]
    exact kept_pure o
  unfold handleOIDCCallback
  split
  · exact hend _
  · split
    · exact hend _
    · split
      · exact hend _
      · exact hend _
      · exact kept_signOn env service _ _ hk hf

theorem kept_program (service : Service) (k : AccountCall) (w : AccountWorld ι σ) :
    Kept S site bare i k (k.program service) w := by
  cases k with
  | setup env username displayName password =>
    exact (safe_setup env _ _ _ _ rfl).kept_plain
  | createUser env username displayName password role =>
    exact (safe_createUser env _ _ _ _ rfl).kept_plain
  | updateUser env id changes => exact (safe_updateUser env id changes).kept_plain
  | deleteUser id => exact (safe_deleteMethod id).kept_plain
  | setPassword env now id password keep => exact (safe_setPassword env now id _ _).kept_plain
  | login env username password =>
    exact (safe_login env _ username password).kept fun r w _ ↦ by cases r <;> exact kept_pure _
  | callback env oidc q =>
    exact kept_callback env _ oidc q rfl fun r ↦ by cases r <;> exact ⟨_, rfl⟩

/-- Every call is as outlined. -/
theorem wayBack_sound : (wayBack S ι bare).Sound (accounts ι S site) :=
  fun _ k _ _ hinv ↦ ⟨⟨hinv, fun _ _ ↦ ⟨id, traced_quiet _ rfl⟩⟩, (kept_program _ k _).holds⟩

end calls

/-! ## In every run -/

section runs

variable {ι σ υ ς : Type} [DecidableEq ι] {S : UserTable σ υ ς} {site : Site σ}

abbrev AccountTrace (ι σ : Type) :=
  Component.Trace ι AccountCall accountOps Outcome σ (Option String)

abbrev AccountState (ι σ : Type) := Component.State ι AccountCall accountOps Outcome σ

/-- The rule for the invariant of the outline. -/
theorem inv_of_run (bare : Prop) {tr : AccountTrace ι σ} {s : AccountState ι σ}
    (h : (accounts ι S site).machine.Run tr s)
    (hinit : ∀ t, site.init t → HasAdmin S t ∨ bare ∧ NoUsers S t)
    (hC : ∀ x ∈ tr, Component.Meets (wayBack S ι bare).assume x.pre x.act) :
    HasAdmin S s.world.shared ∨ bare ∧ NoUsers S s.world.shared := by
  refine (Outline.sound wayBack_lawful wayBack_sound hinit h fun x hx ↦ ?_).inv
  obtain ⟨pre, act, post⟩ := x
  cases act <;> exact hC _ hx

variable (S) in
/-- A unit with an administrator, whose accounts are kept up. -/
def upkeep (service : Service) : Site σ where
  service := service
  admits k := k.upkeep
  init := HasAdmin S

variable (S) in
/-- A unit with no users. -/
def firstRun (service : Service) : Site σ where
  service := service
  init := NoUsers S

/-- **Once there is an administrator, there always is**, whatever calls update and delete users, set
passwords and log in, if none of their writes races with another. -/
theorem hasAdmin_of_unraced (S : UserTable σ υ ς) (service : Service) {tr : AccountTrace ι σ}
    {s : AccountState ι σ} (h : (accounts ι S (upkeep S service)).machine.Run tr s)
    (hunraced : ∀ x ∈ tr, Component.Meets (fun i _ w op ↦ Unraced S i w op) x.pre x.act) :
    HasAdmin S s.world.shared := by
  refine (inv_of_run False h (fun t ht ↦ .inl ht) fun x hx ↦ ?_).resolve_right fun hbare ↦ hbare.1
  obtain ⟨_, -, hpre, -⟩ := h.of_mem hx
  refine (hunraced x hx).mono fun i k op next hi hop ↦ ⟨hop, False.elim, fun _ id hid ↦ ?_⟩
  -- None of these calls draws an id.
  have hk : k.upkeep := Component.admits_of_run hpre hi
  cases k <;> simp [AccountCall.upkeep, AccountCall.drawnID] at hk hid

theorem needsSetup_iff (service : Service) (hmode : service.enabled) (s : σ) :
    ((needsSetup service).run.run S.exec s).1 = .ok true ↔ NoUsers S s := by
  obtain ⟨n, hn, hzero⟩ := S.countUsers s
  have hanswer : ((needsSetup service).run.run S.exec s).1 = .ok (decide (n = 0)) := by
    rw [needsSetup, if_pos hmode]
    change (Program.run S.exec
      (Program.bind (Program.bind (Program.call accountOps .countUsers) _) _) s).1 = _
    simp only [Program.call, Program.bind, Program.run, hn]
    rfl
  rw [hanswer, NoUsers]
  simp [hzero, UserTable.lookup]

/-- Alone, nothing races. -/
theorem unraced_of_alone {i : ι} {w : AccountWorld ι σ} (h : ∀ x ∈ w.history, x.thread = i)
    (op : AccountOp) : Unraced S i w op where
  promoted _ _ x hx hother := absurd (h x ((List.takeWhile_sublist _).subset hx)) hother
  dismissed _ x hx hother := absurd (h x ((List.takeWhile_sublist _).subset hx)) hother

/-- **A unit can always get an administrator**, in every sequential run from an empty table, if no
account that is not an administrator's is put where there is none. -/
theorem needsSetup_or_hasAdmin (S : UserTable σ υ ς) (service : Service) (hmode : service.enabled)
    {tr : AccountTrace Unit σ} {s : AccountState Unit σ}
    (h : (accounts Unit S (firstRun S service)).machine.Run tr s)
    (hnew : ∀ x ∈ tr, Component.Meets (fun _ k w op ↦ DrawsNew S k w op) x.pre x.act)
    (hpopulated : ∀ x ∈ tr, Component.Meets (fun _ _ w op ↦ Populated S w op) x.pre x.act) :
    ((needsSetup service).run.run S.exec s.world.shared).1 = .ok true ∨
      HasAdmin S s.world.shared := by
  rw [needsSetup_iff service hmode]
  refine (inv_of_run True h (fun t ht ↦ .inr ⟨trivial, ht⟩) fun x hx ↦ ?_).symm.imp_left And.right
  exact ((hpopulated x hx).and (hnew x hx)).mono fun _ _ _ _ _ hop ↦
    ⟨unraced_of_alone (fun _ _ ↦ rfl) _, fun _ ↦ hop.1, hop.2⟩

end runs

/-! ### In memory -/

section memory

/-- The store in memory. -/
abbrev unitTable : UserTable MemAccounts User Session := memTable Char.toLower default

theorem memTable_hasAdmin {m : MemAccounts} :
    HasAdmin unitTable m ↔ ∃ u ∈ m.users.rows, u.enabledAdmin := by
  have hlookup (id : String) : unitTable.lookup m id = m.users.get id := Option.map_id_apply
  constructor
  · rintro ⟨id, u, hu, hadmin⟩
    exact ⟨u, Keyed.mem_rows_of_get ((hlookup id).symm.trans hu), hadmin⟩
  · rintro ⟨u, hu, hadmin⟩
    exact ⟨u.userID, u, (hlookup _).trans (Keyed.mem_rows.mp hu), hadmin⟩

variable {ι : Type}

instance (site : Site MemAccounts) (i : ι) (e : Option String) (m : MemAccounts)
    (op : accountOps.Op) : Decidable ((accounts ι unitTable site).ready i e m op) :=
  .isTrue trivial

instance (i : ι) (k : AccountCall) :
    Decidable ((accounts ι unitTable (upkeep unitTable {})).admits i k) :=
  inferInstanceAs (Decidable (k.upkeep = true))

instance (i : ι) (k : AccountCall) :
    Decidable ((accounts ι unitTable (firstRun unitTable {})).admits i k) :=
  .isTrue trivial

/-- Two administrators. -/
def twoAdmins : MemAccounts where
  users := (Keyed.empty.put
    { userID := "u1", username := "root", role := .admin, createdAt := 1, updatedAt := 1 }).put
    { userID := "u2", username := "chief", role := .admin, createdAt := 1, updatedAt := 1 }

theorem twoAdmins_hasAdmin : HasAdmin unitTable twoAdmins := memTable_hasAdmin.mpr (by decide)

/-- The demotion of a user. -/
def demote (id : String) : AccountCall := .updateUser benchEnv id { role := some .viewer }

local instance neZeroTwo : NeZero 2 := ⟨by decide⟩

/-- Each of the two is demoted, and the administrators are counted twice before that. -/
def mutualDemotion : List (Turn (Fin 2) AccountCall (Option String)) :=
  [.start 0 (demote "u1"), .start 1 (demote "u2"), .step 0 none, .step 1 none, .step 0 none,
    .step 1 none, .step 0 none, .step 1 none]

/-- Then there is none. -/
theorem mutualDemotion_leaves_none :
    ∃ tr s, (accounts (Fin 2) unitTable (upkeep unitTable {})).machine.Run tr s ∧
      ¬HasAdmin unitTable s.world.shared := by
  refine ⟨_, _, Component.run_replay _ mutualDemotion twoAdmins_hasAdmin (by decide), ?_⟩
  rw [memTable_hasAdmin]
  decide

/-- One of them is demoted, and nobody else does anything. -/
def loneDemotion : List (Turn (Fin 2) AccountCall (Option String)) :=
  [.start 0 (demote "u1"), .step 0 none, .step 0 none, .step 0 none, .step 0 none, .finish 0]

/-- Then the other is left. -/
theorem loneDemotion_leaves_one : HasAdmin unitTable (Machine.replay
    (accounts (Fin 2) unitTable (upkeep unitTable {})).take (.fresh twoAdmins)
      loneDemotion).world.shared := by
  refine hasAdmin_of_unraced unitTable {}
    (Component.run_replay _ loneDemotion twoAdmins_hasAdmin (by decide)) fun x hx ↦ ?_
  have halone : ∀ x ∈ Machine.replaySteps (accounts (Fin 2) unitTable (upkeep unitTable {})).take
      (.fresh twoAdmins) loneDemotion [],
        Component.Meets (fun i _ w _ ↦ ∀ y ∈ w.history, y.thread = i) x.pre x.act := by
    decide
  exact (halone x hx).mono fun _ _ op _ _ h ↦ unraced_of_alone h op

/-- Someone signs on before the unit has been set up. -/
def firstCallback : List (Turn Unit AccountCall (Option String)) :=
  [.start () (.callback benchEnv (some { autoProvision := true })
      { verified := .ok
          { issuer := "idp", claims := { sub := "7", preferredUsername := "ann" } } }),
    .step () none, .step () none, .step () none, .step () none, .step () none, .finish ()]

theorem noUsers_empty : NoUsers unitTable {} := fun _ ↦ rfl

/-- Then there is an account, and no way to an administrator. -/
theorem firstCallback_locks_out :
    ∃ tr s, (accounts Unit unitTable (firstRun unitTable {})).machine.Run tr s ∧
      (∀ x ∈ tr, Component.Meets (fun _ k w op ↦ DrawsNew unitTable k w op) x.pre x.act) ∧
      ¬(((needsSetup {}).run.run unitTable.exec s.world.shared).1 = .ok true ∨
        HasAdmin unitTable s.world.shared) := by
  refine ⟨_, _, Component.run_replay _ firstCallback noUsers_empty (by decide), by decide, ?_⟩
  rw [memTable_hasAdmin]
  decide

/-- The unit is set up. -/
def firstSetup : List (Turn Unit AccountCall (Option String)) :=
  [.start () (.setup benchEnv "root" "" "correct horse"), .step () none, .step () none,
    .step () none, .finish ()]

/-- Then there is an administrator. -/
theorem firstSetup_hasAdmin :
    let s := Machine.replay (accounts Unit unitTable (firstRun unitTable {})).take (.fresh {})
      firstSetup
    ((needsSetup {}).run.run unitTable.exec s.world.shared).1 = .ok true ∨
      HasAdmin unitTable s.world.shared := by
  refine needsSetup_or_hasAdmin unitTable {} rfl
    (Component.run_replay _ firstSetup noUsers_empty (by decide)) (by decide) fun x hx ↦ ?_
  have happoints : ∀ x ∈ Machine.replaySteps (accounts Unit unitTable (firstRun unitTable {})).take
      (.fresh {}) firstSetup [],
        Component.Meets (fun _ _ _ (op : AccountOp) ↦ op.dismisses = none) x.pre x.act := by
    decide
  exact (happoints x hx).mono fun _ _ _ _ _ h ⟨id, hid⟩ ↦ by
    rw [h] at hid
    cases hid

end memory

end ClassG.Auth
