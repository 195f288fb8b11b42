import ClassG.Auth.Refused
import ClassG.Auth.Threads

/-!
# Single sign-on takes over no account

Calls come one after the other, and a call of the store may fail.  Whoever signs on does so as a user
who is linked to that identity; and where the link is new, it was the unit that allowed for it
(`Entitled`).  No callback changes what an account may do (`Untouched`), and no identity is linked
twice (`UniqueLinks`).
-/

set_option autoImplicit false

namespace ClassG.Auth

open Store

variable {σ υ ς : Type} (S : UserTable σ υ ς)

/-! ## What is promised -/

/-- A call of the store: it does what it does, or fails and changes nothing. -/
def Asked (s : σ) (op : accountOps.Op) (ans : accountOps.Ans op) (s' : σ) : Prop :=
  (ans = (S.exec s op).1 ∧ s' = (S.exec s op).2) ∨ (∃ doing, ans = .error (.failed doing)) ∧ s' = s

/-- A call that has been made, and what has become of it. -/
structure MadeCall where
  call : AccountCall
  outcome : Outcome

/-- The service, called once at a time. -/
def oneByOne (service : Service) (init : σ → Prop) : Machine σ MadeCall where
  init := init
  next s a s' := (a.call.program service).Yields (Asked S) s a.outcome s'

/-- No two users are linked to the same identity. -/
def UniqueLinks (s : σ) : Prop :=
  ∀ id id' u u', S.lookup s id = some u → S.lookup s id' = some u' → u.issuer ≠ "" →
    u.issuer = u'.issuer → u.subject = u'.subject → id = id'

/-- What every account may do, and the identity that it is linked to, is as it was. -/
def Untouched (s s' : σ) : Prop :=
  ∀ id u, S.lookup s id = some u → ∃ u', S.lookup s' id = some u' ∧ u'.role = u.role ∧
    u'.disabled = u.disabled ∧ u'.passwordHash = u.passwordHash ∧
    (u.issuer ≠ "" → u'.issuer = u.issuer ∧ u'.subject = u.subject)

/-- The username is the email. -/
def Provider.usesEmail (p : Provider) (claims : Claims) : Prop :=
  p.usernameClaim = "email" ∨
    p.usernameClaim ≠ "sub" ∧ p.usernameClaim ≠ "preferred_username" ∧ claims.preferredUsername = ""

/-- The user may sign on with the identity: they are linked already, or the unit makes accounts of
its own accord, as powerful as this one, and there was none or one that may be linked. -/
inductive Entitled (lower : Char → Char) (p : Provider) (v : Verified) (s : σ) (u : User) : Prop
  | linked {u₀ : User} (h : S.lookup s u.userID = some u₀) (issuer : u₀.issuer = v.issuer)
      (subject : u₀.subject = v.claims.sub)
  | provisioned {tier : Role} (auto : p.autoProvision)
      (htier : Role.parse lower p.autoProvisioned.2 = some tier) (role : tier.atLeast u.role)
      (before : ∀ u₀, S.lookup s u.userID = some u₀ → u₀.issuer = "" ∧
        (p.usesEmail v.claims → v.claims.emailVerified))

/-- The user is enabled, and linked to the identity. -/
def SignedOn (v : Verified) (s : σ) (u : User) : Prop :=
  ∃ u', S.lookup s u.userID = some u' ∧ u'.role = u.role ∧ ¬u'.disabled ∧ u'.issuer = v.issuer ∧
    u'.subject = v.claims.sub

variable {S} {s s' s'' : σ}

theorem Untouched.refl (s : σ) : Untouched S s s := fun _ u hu ↦ ⟨u, hu, rfl, rfl, rfl, fun _ ↦ ⟨rfl, rfl⟩⟩

theorem Untouched.trans (h : Untouched S s s') (h' : Untouched S s' s'') : Untouched S s s'' := by
  intro id u hu
  obtain ⟨u', hu', hrole, hdisabled, hhash, hlink⟩ := h id u hu
  obtain ⟨u'', hu'', hrole', hdisabled', hhash', hlink'⟩ := h' id u' hu'
  refine ⟨u'', hu'', hrole'.trans hrole, hdisabled'.trans hdisabled, hhash'.trans hhash,
    fun hissuer ↦ ?_⟩
  obtain ⟨hi, hs⟩ := hlink hissuer
  obtain ⟨hi', hs'⟩ := hlink' (hi ▸ hissuer)
  exact ⟨hi'.trans hi, hs'.trans hs⟩

/-! ## Links -/

/-- Every link was there before. -/
def Links (S : UserTable σ υ ς) (s s' : σ) : Prop :=
  ∀ id u', S.lookup s' id = some u' → u'.issuer ≠ "" →
    ∃ u, S.lookup s id = some u ∧ u.issuer = u'.issuer ∧ u.subject = u'.subject

theorem links_of_same (h : S.lookup s' = S.lookup s) : Links S s s' :=
  fun _ u hu _ ↦ ⟨u, h ▸ hu, rfl, rfl⟩

theorem Links.trans (h : Links S s s') (h' : Links S s' s'') : Links S s s'' := by
  intro id u'' hu'' hissuer
  obtain ⟨u', hu', hi', hs'⟩ := h' id u'' hu'' hissuer
  obtain ⟨u, hu, hi, hs⟩ := h id u' hu' (hi' ▸ hissuer)
  exact ⟨u, hu, hi.trans hi', hs.trans hs'⟩

theorem Links.unique (h : Links S s s') (hs : UniqueLinks S s) : UniqueLinks S s' := by
  intro id id' u' v' hu' hv' hissuer heq hsubject
  obtain ⟨u, hu, hui, hus⟩ := h id u' hu' hissuer
  obtain ⟨v, hv, hvi, hvs⟩ := h id' v' hv' (heq ▸ hissuer)
  exact hs id id' u v hu hv (hui ▸ hissuer) (hui.trans (heq.trans hvi.symm))
    (hus.trans (hsubject.trans hvs.symm))

/-- The user is put, or nothing is. -/
def Put (S : UserTable σ υ ς) (u : User) (s s' : σ) : Prop :=
  S.lookup s' = S.lookup s ∨ ∃ v : User, v.SameAccount u ∧
    S.lookup s' = Function.update (S.lookup s) u.userID (some v)

theorem Put.congr {u u' : User} (h : Put S u' s s') (hu : u'.SameAccount u) : Put S u s s' :=
  h.imp_right fun ⟨v, hv, h⟩ ↦ ⟨v, hv.trans hu, hu.userID ▸ h⟩

/-- A user may be put who is not linked, or is linked as before. -/
theorem Put.links {u : User} (h : Put S u s s') (hu : u.issuer ≠ "" → ∃ u₀,
    S.lookup s u.userID = some u₀ ∧ u₀.issuer = u.issuer ∧ u₀.subject = u.subject) :
    Links S s s' := by
  rcases h with h | ⟨v, hv, h⟩
  · exact links_of_same h
  · intro id u' hu' hissuer
    rw [h, Function.update_apply] at hu'
    split at hu'
    · rename_i hid
      cases hu'
      obtain ⟨u₀, hu₀, hi, hs⟩ := hu (hv.issuer ▸ hissuer)
      exact ⟨u₀, hid ▸ hu₀, hi.trans hv.issuer.symm, hs.trans hv.subject.symm⟩
    · exact ⟨u', hu', rfl, rfl⟩

/-- Someone is put who was there and has been changed in no way that matters, or who was not. -/
theorem Put.untouched {u : User} (h : Put S u s s') (hu : ∀ u₀, S.lookup s u.userID = some u₀ →
    u.role = u₀.role ∧ u.disabled = u₀.disabled ∧ u.passwordHash = u₀.passwordHash ∧
      (u₀.issuer ≠ "" → u.issuer = u₀.issuer ∧ u.subject = u₀.subject)) : Untouched S s s' := by
  intro id u₀ hu₀
  rcases h with h | ⟨v, hv, h⟩
  · exact ⟨u₀, h ▸ hu₀, rfl, rfl, rfl, fun _ ↦ ⟨rfl, rfl⟩⟩
  · by_cases hid : id = u.userID
    · subst hid
      obtain ⟨hrole, hdisabled, hhash, hlink⟩ := hu u₀ hu₀
      refine ⟨v, by rw [h, Function.update_self], hv.role.trans hrole, hv.disabled.trans hdisabled,
        hv.passwordHash.trans hhash, fun hissuer ↦ ?_⟩
      exact ⟨hv.issuer.trans (hlink hissuer).1, hv.subject.trans (hlink hissuer).2⟩
    · exact ⟨u₀, by rw [h, Function.update_of_ne hid, hu₀], rfl, rfl, rfl, fun _ ↦ ⟨rfl, rfl⟩⟩

/-- A user may be linked to an identity that nobody is linked to. -/
theorem Put.unique {u : User} (h : Put S u s s') (hs : UniqueLinks S s)
    (hu : u.issuer ≠ "" → ∀ id u₀, S.lookup s id = some u₀ → u₀.issuer = u.issuer →
      u₀.subject ≠ u.subject) : UniqueLinks S s' := by
  rcases h with h | ⟨v, hv, h⟩
  · exact (links_of_same h).unique hs
  · intro id id' w w' hw hw' hissuer heq hsubject
    rw [h, Function.update_apply] at hw hw'
    split at hw
    · cases hw
      split at hw'
      · simp [*]
      · exact absurd (hsubject.symm.trans hv.subject) (hu (hv.issuer ▸ hissuer) id' w' hw'
          (heq.symm.trans hv.issuer))
    · split at hw'
      · cases hw'
        have hissuer' : u.issuer ≠ "" := hv.issuer ▸ heq ▸ hissuer
        exact absurd (hsubject.trans hv.subject) (hu hissuer' id w hw (heq.trans hv.issuer))
      · exact hs id id' w w' hw hw' hissuer heq hsubject

/-! ## What a call does -/

section gives

variable {ε ε' α β : Type}

/-- What a part of a call comes to in any case. -/
structure Gives (S : UserTable σ υ ς) (p : Program.Fallible accountOps ε α) (s : σ)
    (Q : Except ε α → σ → Prop) : Prop where
  always : p.run.Always (Asked S) s Q

theorem Gives.mono {p : Program.Fallible accountOps ε α} {Q Q' : Except ε α → σ → Prop}
    (h : Gives S p s Q) (hQ : ∀ r s, Q r s → Q' r s) : Gives S p s Q' := ⟨h.always.mono hQ⟩

theorem Gives.andThen {p : Program.Fallible accountOps ε α}
    {f : α → Program.Fallible accountOps ε β} {P : Except ε α → σ → Prop}
    {Q : Except ε β → σ → Prop} (h : Gives S p s P) (herror : ∀ e s, P (.error e) s → Q (.error e) s)
    (hok : ∀ a s, P (.ok a) s → Gives S (f a) s Q) : Gives S (p >>= f) s Q :=
  ⟨h.always.andThen herror fun a s ha ↦ (hok a s ha).always⟩

theorem gives_pure {a : α} {Q : Except ε α → σ → Prop} (h : Q (.ok a) s) :
    Gives S (pure a : Program.Fallible accountOps ε α) s Q := ⟨h⟩

theorem gives_throw {e : ε} {Q : Except ε α → σ → Prop} (h : Q (.error e) s) :
    Gives S (throw e : Program.Fallible accountOps ε α) s Q := ⟨h⟩

theorem gives_computed (r : Except AuthError α) :
    Gives S (computed r) s fun _ s' ↦ s' = s := ⟨rfl⟩

theorem gives_drawn (doing : String) (x : Option α) :
    Gives S (drawn doing x) s fun r s' ↦ s' = s ∧ ∀ a, r = .ok a → x = some a := by
  cases x with
  | none => exact ⟨rfl, fun _ h ↦ by cases h⟩
  | some a => exact ⟨rfl, fun _ h ↦ by cases h; rfl⟩

theorem gives_sso {p : Method α} {Q : Except SSOError α → σ → Prop}
    (h : Gives S p s fun r s ↦ Q (r.mapError .auth) s) : Gives S (sso p) s Q :=
  ⟨Program.always_bind.mpr h.always⟩

theorem gives_ask {op : AccountOp} {Q : Except AuthError (Except StoreError op.Result) → σ → Prop}
    (h : ∀ ans s', Asked S s op ans s' → Q (.ok ans) s') : Gives S (ask op) s Q := ⟨h⟩

theorem gives_store {op : AccountOp} {Q : Except AuthError op.Result → σ → Prop}
    (h : ∀ ans s', Asked S s op ans s' → Q (ans.mapError .store) s') : Gives S (store op) s Q := by
  refine ⟨fun ans s' hs' ↦ ?_⟩
  have hQ := h ans s' hs'
  cases ans <;> exact hQ

/-! ### Calls of the store -/

theorem Asked.lookup {op : AccountOp} {ans : accountOps.Ans op} (h : Asked S s op ans s')
    (hop : ¬op.writesUsers) : S.lookup s' = S.lookup s := by
  rcases h with ⟨-, rfl⟩ | ⟨-, rfl⟩
  · exact S.lookup_of_other hop
  · rfl

/-- What is answered, if anything is. -/
theorem Asked.answer {op : AccountOp} {r : op.Result} (h : Asked S s op (.ok r) s') :
    (S.exec s op).1 = .ok r := by
  rcases h with ⟨hr, -⟩ | ⟨⟨doing, hr⟩, -⟩
  · exact hr.symm
  · cases hr

theorem Asked.put {u : User} {ans : accountOps.Ans (.putUser u)}
    (h : Asked S s (.putUser u) ans s') : Put S u s s' ∧ (ans = .ok () → ∃ v : User,
      v.SameAccount u ∧ S.lookup s' = Function.update (S.lookup s) u.userID (some v)) := by
  rcases h with ⟨rfl, rfl⟩ | ⟨⟨doing, rfl⟩, rfl⟩
  · cases S.effect s (.putUser u) with
    | nothing h =>
      refine ⟨.inl h, fun hok ↦ UserTable.lookup_putUser hok⟩
    | put hok hv h => exact ⟨.inr ⟨_, hv, h⟩, fun _ ↦ ⟨_, hv, h⟩⟩
  · exact ⟨.inl rfl, fun hok ↦ by cases hok⟩

theorem gives_askOther {op : AccountOp} (hop : ¬op.writesUsers) :
    Gives S (ask op) s fun _ s' ↦ S.lookup s' = S.lookup s :=
  gives_ask fun _ _ h ↦ h.lookup hop

theorem gives_storeOther {op : AccountOp} (hop : ¬op.writesUsers) :
    Gives S (store op) s fun _ s' ↦ S.lookup s' = S.lookup s :=
  gives_store fun _ _ h ↦ h.lookup hop

theorem gives_getUser (id : String) : Gives S (store (.getUser id)) s fun r s' ↦
    S.lookup s' = S.lookup s ∧ ∀ u, r = .ok u → u.userID = id ∧ S.lookup s id = some u := by
  refine gives_store fun ans s' h ↦ ⟨h.lookup (by simp [AccountOp.writesUsers]), fun u hu ↦ ?_⟩
  cases ans with
  | error e => cases hu
  | ok v =>
    cases hu
    have hget := h.answer
    rw [S.exec_getUser, found_eq_ok] at hget
    exact ⟨S.userID_of_lookup hget, hget⟩

theorem gives_getUserByUsername (name : String) :
    Gives S (ask (.getUserByUsername name)) s fun r s' ↦ S.lookup s' = S.lookup s ∧
      ∃ ans, r = .ok ans ∧ ∀ u, ans = .ok u → S.lookup s u.userID = some u := by
  refine gives_ask fun ans s' h ↦
    ⟨h.lookup (by simp [AccountOp.writesUsers]), ans, rfl, fun u hu ↦ ?_⟩
  subst hu
  exact S.lookup_of_username h.answer

/-- What has been looked up of an identity. -/
structure LookedUp (S : UserTable σ υ ς) (issuer subject : String) (s : σ)
    (ans : Except StoreError User) : Prop where
  found : ∀ u, ans = .ok u → S.lookup s u.userID = some u ∧ u.issuer = issuer ∧ u.subject = subject
  notFound : ans = .error .notFound → issuer ≠ "" → ∀ id u, S.lookup s id = some u →
    u.issuer = issuer → u.subject ≠ subject

theorem gives_getUserByOIDC (issuer subject : String) :
    Gives S (ask (.getUserByOIDC issuer subject)) s fun r s' ↦ S.lookup s' = S.lookup s ∧
      ∃ ans, r = .ok ans ∧ LookedUp S issuer subject s ans := by
  refine gives_ask fun ans s' h ↦ ⟨h.lookup (by simp [AccountOp.writesUsers]), ans, rfl, ?_, ?_⟩
  · rintro u rfl
    have hanswer := h.answer
    exact ⟨S.lookup_of_oidc hanswer, (S.getUserByOIDC s issuer subject u hanswer).2⟩
  · rintro rfl hissuer id u hu
    have hanswer : (S.exec s (.getUserByOIDC issuer subject)).1 = .error .notFound := by
      rcases h with ⟨hr, -⟩ | ⟨⟨doing, hr⟩, -⟩
      · exact hr.symm
      · cases hr
    obtain ⟨r, hr, rfl⟩ := Option.map_eq_some_iff.mp hu
    exact S.getUserByOIDC_notFound s issuer subject hissuer hanswer id r hr

theorem gives_putUser (u : User) : Gives S (store (.putUser u)) s fun r s' ↦ Put S u s s' ∧
    (r = .ok () → ∃ v : User, v.SameAccount u ∧
      S.lookup s' = Function.update (S.lookup s) u.userID (some v)) := by
  refine gives_store fun ans s' h ↦ ⟨h.put.1, fun hok ↦ h.put.2 ?_⟩
  cases ans with
  | ok r => rfl
  | error e => cases hok

theorem gives_askPutUser (u : User) : Gives S (ask (.putUser u)) s fun _ s' ↦ Put S u s s' :=
  gives_ask fun _ _ h ↦ h.put.1

/-! ### Calls that link nobody -/

/-- The same users, whatever comes of it. -/
def OnlyLooks (S : UserTable σ υ ς) (p : Program.Fallible accountOps ε α) (s : σ) : Prop :=
  Gives S p s fun _ s' ↦ S.lookup s' = S.lookup s

theorem OnlyLooks.andThen {p : Program.Fallible accountOps ε α}
    {f : α → Program.Fallible accountOps ε β} (h : OnlyLooks S p s)
    (hf : ∀ a s', OnlyLooks S (f a) s') : OnlyLooks S (p >>= f) s :=
  Gives.andThen h (fun _ _ hs ↦ hs) fun a s' hs ↦ (hf a s').mono fun _ _ hs' ↦ hs'.trans hs

theorem onlyLooks_pure (a : α) : OnlyLooks S (pure a : Program.Fallible accountOps ε α) s :=
  gives_pure rfl

theorem onlyLooks_throw (e : ε) : OnlyLooks S (throw e : Program.Fallible accountOps ε α) s :=
  gives_throw rfl

theorem onlyLooks_computed (r : Except AuthError α) : OnlyLooks S (computed r) s :=
  (gives_computed r).mono fun _ _ h ↦ congrArg S.lookup h

theorem onlyLooks_requireFree (username : String) : OnlyLooks S (requireFree username) s := by
  refine OnlyLooks.andThen ((gives_getUserByUsername username).mono fun _ _ h ↦ h.1) fun ans s' ↦ ?_
  match ans with
  | .ok _ => exact onlyLooks_throw _
  | .error .notFound => exact onlyLooks_pure _
  | .error (.failed _) => exact onlyLooks_throw _

theorem onlyLooks_requireAnotherAdmin : OnlyLooks S requireAnotherAdmin s := by
  refine OnlyLooks.andThen (gives_storeOther (by simp [AccountOp.writesUsers])) fun n s' ↦ ?_
  split
  · exact onlyLooks_throw _
  · exact onlyLooks_pure _

theorem onlyLooks_revokeAll (userID keep : String) (sessions : List Session) :
    OnlyLooks S (revokeAll userID keep sessions) s := by
  induction sessions generalizing s with
  | nil => exact onlyLooks_pure _
  | cons session rest ih =>
    rw [revokeAll]
    split
    · exact ih
    · refine OnlyLooks.andThen (gives_askOther (by simp [AccountOp.writesUsers])) fun ans s' ↦ ?_
      rcases ans with (_ | _) | _
      · exact ih
      · exact onlyLooks_throw _
      · exact ih

/-- No identity is linked to a user. -/
def LinksNobody (S : UserTable σ υ ς) (p : Program.Fallible accountOps ε α) (s : σ) : Prop :=
  Gives S p s fun _ s' ↦ Links S s s'

theorem OnlyLooks.linksNobody {p : Program.Fallible accountOps ε α} (h : OnlyLooks S p s) :
    LinksNobody S p s := h.mono fun _ _ ↦ links_of_same

theorem LinksNobody.andThen {p : Program.Fallible accountOps ε α}
    {f : α → Program.Fallible accountOps ε β} (h : LinksNobody S p s)
    (hf : ∀ a s', LinksNobody S (f a) s') : LinksNobody S (p >>= f) s :=
  Gives.andThen h (fun _ _ hs ↦ hs) fun a s' hs ↦ (hf a s').mono fun _ _ hs' ↦ hs.trans hs'

/-- What comes after something that only looks may use what the users were before. -/
theorem OnlyLooks.before {p : Program.Fallible accountOps ε α}
    {f : α → Program.Fallible accountOps ε β} (h : OnlyLooks S p s)
    (hf : ∀ a s', S.lookup s' = S.lookup s → LinksNobody S (f a) s') : LinksNobody S (p >>= f) s :=
  Gives.andThen h (fun _ _ hs ↦ links_of_same hs) fun a s' hs ↦
    (hf a s' hs).mono fun _ _ hs' ↦ (links_of_same hs).trans hs'

/-- A user is put as they were found, as far as the link goes. -/
theorem linksNobody_putUser {u u₀ : User} (hu : S.lookup s u.userID = some u₀)
    (hissuer : u.issuer = u₀.issuer) (hsubject : u.subject = u₀.subject) :
    LinksNobody S (store (.putUser u)) s :=
  (gives_putUser u).mono fun _ _ h ↦ h.1.links fun _ ↦ ⟨u₀, hu, hissuer.symm, hsubject.symm⟩

theorem linksNobody_createUser (env : Env) (username displayName password : String) (role : Role) :
    LinksNobody S (createUser env username displayName password role) s := by
  rw [createUser]
  refine (onlyLooks_computed _).before fun _ _ _ ↦ ?_
  refine (onlyLooks_computed _).before fun _ _ _ ↦ ?_
  refine (onlyLooks_computed _).before fun hash _ _ ↦ ?_
  refine (onlyLooks_requireFree _).before fun _ s _ ↦ ?_
  refine OnlyLooks.before ((gives_drawn _ _).mono fun _ _ h ↦ congrArg S.lookup h.1) fun id s _ ↦ ?_
  refine LinksNobody.andThen ?_ fun _ _ ↦ (onlyLooks_pure _).linksNobody
  exact (gives_putUser _).mono fun _ _ h ↦ h.1.links fun hissuer ↦ absurd rfl hissuer

theorem linksNobody_setup (env : Env) (service : Service) (username displayName password : String) :
    LinksNobody S (setup env service username displayName password) s := by
  rw [setup]
  have hneeds : OnlyLooks S (needsSetup service) s := by
    rw [needsSetup]
    split
    · exact OnlyLooks.andThen (gives_storeOther (by simp [AccountOp.writesUsers]))
        fun _ _ ↦ onlyLooks_pure _
    · exact onlyLooks_pure _
  refine hneeds.before fun needs s _ ↦ ?_
  cases needs
  · exact (onlyLooks_throw _).linksNobody
  · exact linksNobody_createUser env _ _ _ _

theorem linksNobody_getUser {id : String} {f : User → Method α}
    (hf : ∀ u s', S.lookup s' u.userID = some u → LinksNobody S (f u) s') :
    LinksNobody S (store (.getUser id) >>= f) s := by
  refine (gives_getUser id).andThen (fun _ _ h ↦ links_of_same h.1) fun u s' ⟨hs, hu⟩ ↦ ?_
  obtain ⟨hid, hu⟩ := hu u rfl
  exact (hf u s' (by rw [hs, hid, hu])).mono fun _ _ hs' ↦ (links_of_same hs).trans hs'

theorem linksNobody_updateUser (env : Env) (id : String) (c : Changes) :
    LinksNobody S (updateUser env id c) s := by
  rw [updateUser]
  refine linksNobody_getUser fun u s₁ hu ↦ ?_
  have hguard : OnlyLooks S (if c.losingAdmin u then requireAnotherAdmin else pure () :
      Method Unit) s₁ := by
    split
    · exact onlyLooks_requireAnotherAdmin
    · exact onlyLooks_pure _
  refine hguard.before fun _ s₂ h₂ ↦ ?_
  refine (onlyLooks_computed _).before fun _ s₃ h₃ ↦ ?_
  refine LinksNobody.andThen (linksNobody_putUser (u := c.apply (env.clock 0) u)
    ((congrFun (h₃.trans h₂) u.userID).trans hu) rfl rfl) fun _ s₄ ↦ ?_
  have hrevoke : OnlyLooks S (if (c.apply (env.clock 0) u).disabled ∨ c.role.isSome then do
      let _ ← ask (.deleteUserSessions id) else pure () : Method Unit) s₄ := by
    split
    · exact OnlyLooks.andThen (gives_askOther (by simp [AccountOp.writesUsers]))
        fun _ _ ↦ onlyLooks_pure _
    · exact onlyLooks_pure _
  exact (hrevoke.andThen fun _ _ ↦ onlyLooks_pure _).linksNobody

theorem linksNobody_deleteUser (id : String) : LinksNobody S (deleteUser id) s := by
  rw [deleteUser]
  refine linksNobody_getUser fun u s₁ _ ↦ ?_
  have hguard : OnlyLooks S (if u.role = .admin ∧ !u.disabled then requireAnotherAdmin
      else pure () : Method Unit) s₁ := by
    split
    · exact onlyLooks_requireAnotherAdmin
    · exact onlyLooks_pure _
  refine hguard.before fun _ s₂ _ ↦ gives_store fun ans s' h ↦ ?_
  rcases h with ⟨-, rfl⟩ | ⟨-, rfl⟩
  · cases S.effect s₂ (.deleteUser id) with
    | nothing h => exact links_of_same h
    | delete hok h =>
      intro k u hu _
      rw [h, Function.update_apply] at hu
      split at hu
      · cases hu
      · exact ⟨u, hu, rfl, rfl⟩
  · exact links_of_same rfl

theorem linksNobody_setPassword (env : Env) (now : GoTime) (id password keep : String) :
    LinksNobody S (setPassword env now id password keep) s := by
  rw [setPassword]
  refine linksNobody_getUser fun u s₁ hu ↦ ?_
  refine (onlyLooks_computed _).before fun hash s₂ h₂ ↦ ?_
  refine LinksNobody.andThen (linksNobody_putUser (u := { u with
    passwordHash := hash, updatedAt := now }) ((congrFun h₂ u.userID).trans hu) rfl rfl)
      fun _ s₃ ↦ ?_
  rw [revokeExcept]
  exact (OnlyLooks.andThen (gives_storeOther (by simp [AccountOp.writesUsers]))
    fun _ _ ↦ onlyLooks_revokeAll _ _ _).linksNobody

/-- The user that starts a session is put once more. -/
theorem gives_startSession (env : Env) (service : Service) (u : User) :
    Gives S (startSession env service u) s fun _ s' ↦ Put S u s s' := by
  rw [startSession]
  refine (gives_drawn _ _).andThen (fun _ _ h ↦ .inl (congrArg S.lookup h.1)) fun token s₁ h₁ ↦ ?_
  have hsession (session : Session) : OnlyLooks S (store (.putSession session)) s₁ :=
    gives_storeOther (by simp [AccountOp.writesUsers])
  refine Gives.andThen (hsession _) (fun _ _ h₂ ↦ .inl (h₂.trans (congrArg S.lookup h₁.1)))
    fun _ s₂ h₂ ↦ ?_
  have hlookup : S.lookup s₂ = S.lookup s := h₂.trans (congrArg S.lookup h₁.1)
  refine (gives_askPutUser _).andThen (fun _ _ h ↦ ?_) fun _ _ h ↦ gives_pure ?_
  all_goals
    rw [Put, hlookup] at h
    exact Put.congr h ⟨rfl, rfl, rfl, rfl, rfl, rfl⟩

theorem linksNobody_login (env : Env) (service : Service) (username password : String) :
    LinksNobody S (login env service username password) s := by
  rw [login]
  refine (gives_getUserByUsername username).andThen (fun _ _ h ↦ links_of_same h.1)
    fun ans s₁ ⟨h₁, ans', hans, hu⟩ ↦ ?_
  cases hans
  match ans with
  | .error .notFound => exact gives_throw (links_of_same h₁)
  | .error (.failed _) => exact gives_throw (links_of_same h₁)
  | .ok u =>
    have hu : S.lookup s₁ u.userID = some u := by rw [h₁, hu u rfl]
    have hlogin : LinksNobody S (computed (checkLogin env u password) >>= fun _ ↦
        startSession env service u >>= fun token ↦ pure (u, token)) s₁ := by
      refine (onlyLooks_computed _).before fun _ s₂ h₂ ↦ ?_
      refine LinksNobody.andThen ((gives_startSession env service u).mono fun _ _ h ↦
        h.links fun _ ↦ ⟨u, (congrFun h₂ _).trans hu, rfl, rfl⟩) fun _ _ ↦
          (onlyLooks_pure _).linksNobody
    exact hlogin.mono fun _ _ h ↦ (links_of_same h₁).trans h

/-! ### Single sign-on -/

theorem identity_eq_ok {lower : Char → Char} {p : Provider} {v : Verified} {id : Identity}
    (h : p.identity lower v = .ok id) : id.issuer = v.issuer ∧ id.subject = v.claims.sub ∧
      (id.usernameFromEmail ↔ p.usesEmail v.claims) ∧
      id.emailVerified = v.claims.emailVerified := by
  rw [Provider.identity] at h
  dsimp only at h
  split at h
  · cases h
  · cases h
    refine ⟨rfl, rfl, ?_, rfl⟩
    dsimp only [Provider.pickUsername, Provider.usesEmail]
    split_ifs <;> simp_all

/-- What every account may do is as it was, and no identity is linked twice. -/
structure Clean (S : UserTable σ υ ς) (s s' : σ) : Prop where
  untouched : Untouched S s s'
  unique : UniqueLinks S s → UniqueLinks S s'

theorem clean_of_same (h : S.lookup s' = S.lookup s) : Clean S s s' where
  untouched _ u hu := ⟨u, h ▸ hu, rfl, rfl, rfl, fun _ ↦ ⟨rfl, rfl⟩⟩
  unique := (links_of_same h).unique

theorem Clean.trans (h : Clean S s s') (h' : Clean S s' s'') : Clean S s s'' :=
  ⟨h.untouched.trans h'.untouched, h'.unique ∘ h.unique⟩

/-- The account of an identity has been found, linked or made. -/
structure Resolved (S : UserTable σ υ ς) (lower : Char → Char) (p : Provider) (v : Verified)
    (s : σ) (u : User) (s' : σ) : Prop where
  entitled : Entitled S lower p v s u
  stored : ∃ u', S.lookup s' u.userID = some u' ∧ u'.SameAccount u
  issuer : u.issuer = v.issuer
  subject : u.subject = v.claims.sub

/-- What comes of looking for the account. -/
def Resolves (S : UserTable σ υ ς) (lower : Char → Char) (p : Provider) (v : Verified) (s₀ : σ)
    (q : SSO User) (s : σ) : Prop :=
  Gives S q s fun r s' ↦ Clean S s₀ s' ∧ ∀ u, r = .ok u → Resolved S lower p v s₀ u s'

section resolve

variable {env : Env} {p : Provider} {v : Verified} {id : Identity} {tier : Role} {s₀ : σ}

/-- The account is put, with the identity. -/
theorem Put.clean {u : User} (h : Put S u s s') (hs : S.lookup s = S.lookup s₀)
    (hissuer : u.issuer = v.issuer) (hsubject : u.subject = v.claims.sub)
    (hnobody : v.issuer ≠ "" → ∀ k u₀, S.lookup s₀ k = some u₀ → u₀.issuer = v.issuer →
      u₀.subject ≠ v.claims.sub)
    (hu : ∀ u₀, S.lookup s₀ u.userID = some u₀ → u₀.issuer = "" ∧ u.role = u₀.role ∧
      u.disabled = u₀.disabled ∧ u.passwordHash = u₀.passwordHash) : Clean S s₀ s' := by
  refine (clean_of_same hs).trans ⟨h.untouched fun u₀ hu₀ ↦ ?_, fun hunique ↦ h.unique hunique ?_⟩
  · obtain ⟨hlink, hrole, hdisabled, hhash⟩ := hu u₀ (hs ▸ hu₀)
    exact ⟨hrole, hdisabled, hhash, fun hne ↦ absurd hlink hne⟩
  · rw [hissuer, hsubject, hs]
    exact hnobody

theorem resolves_throw {e : SSOError} (h : Clean S s₀ s) :
    Resolves S env.lower p v s₀ (throw e) s := gives_throw ⟨h, fun _ hu ↦ by cases hu⟩

/-- And if it has been, it is returned. -/
theorem resolves_putUser {u : User} (hs : S.lookup s = S.lookup s₀)
    (hissuer : u.issuer = v.issuer) (hsubject : u.subject = v.claims.sub)
    (hnobody : v.issuer ≠ "" → ∀ k u₀, S.lookup s₀ k = some u₀ → u₀.issuer = v.issuer →
      u₀.subject ≠ v.claims.sub)
    (hu : ∀ u₀, S.lookup s₀ u.userID = some u₀ → u₀.issuer = "" ∧ u.role = u₀.role ∧
      u.disabled = u₀.disabled ∧ u.passwordHash = u₀.passwordHash)
    (hentitled : Entitled S env.lower p v s₀ u) :
    Resolves S env.lower p v s₀ (sso (store (.putUser u)) >>= fun _ ↦ pure u) s := by
  have hput : Gives S (sso (store (.putUser u))) s fun r s' ↦ Clean S s₀ s' ∧ (r = .ok () →
      ∃ v : User, v.SameAccount u ∧
        S.lookup s' = Function.update (S.lookup s) u.userID (some v)) := by
    refine gives_sso ((gives_putUser u).mono fun r s' h ↦
      ⟨h.1.clean hs hissuer hsubject hnobody hu, fun hok ↦ h.2 ?_⟩)
    cases r with
    | ok a => rfl
    | error e => cases hok
  refine hput.andThen (fun e s' h ↦ ⟨h.1, fun _ hu ↦ by cases hu⟩) fun _ s' h ↦ gives_pure ?_
  refine ⟨h.1, fun u' hu' ↦ ?_⟩
  cases hu'
  obtain ⟨w, hw, h⟩ := h.2 rfl
  exact ⟨hentitled, ⟨w, by rw [h, Function.update_self], hw⟩, hissuer, hsubject⟩

theorem resolves_createSSOUser (hid : p.identity env.lower v = .ok id)
    (hs : S.lookup s = S.lookup s₀) (hauto : p.autoProvision)
    (htier : Role.parse env.lower p.autoProvisioned.2 = some tier)
    (hnobody : v.issuer ≠ "" → ∀ k u₀, S.lookup s₀ k = some u₀ → u₀.issuer = v.issuer →
      u₀.subject ≠ v.claims.sub)
    (hnew : ∀ k ∈ env.newID, S.lookup s₀ k = none) :
    Resolves S env.lower p v s₀
      (createSSOUser env id.issuer id.subject id.username id.name tier) s := by
  obtain ⟨hissuer, hsubject, -⟩ := identity_eq_ok hid
  rw [createSSOUser]
  refine (gives_sso (Q := fun _ s' ↦ s' = s) (gives_computed _)).andThen
    (fun _ s' h ↦ ⟨clean_of_same (h ▸ hs), fun _ hu ↦ by cases hu⟩) fun _ s₁ h₁ ↦ ?_
  subst h₁
  split
  · exact resolves_throw (clean_of_same hs)
  refine (gives_sso (Q := fun r s' ↦ s' = s₁ ∧ ∀ a, r = .ok a → env.newID = some a)
    ((gives_drawn _ _).mono fun r s' h ↦ ⟨h.1, fun a ha ↦ h.2 a ?_⟩)).andThen
      (fun _ s' h ↦ ⟨clean_of_same (h.1 ▸ hs), fun _ hu ↦ by cases hu⟩) fun k s₂ ⟨h₂, hk⟩ ↦ ?_
  · cases r with
    | ok _ =>
      cases ha
      rfl
    | error e => cases ha
  subst h₂
  have hnone : S.lookup s₀ k = none := hnew k (hk k rfl)
  refine resolves_putUser hs hissuer hsubject hnobody (fun u₀ hu₀ ↦ ?_)
    (.provisioned hauto htier (Role.atLeast_refl (Role.valid_of_parse htier)) fun u₀ hu₀ ↦ ?_)
  all_goals
    rw [hnone] at hu₀
    cases hu₀

theorem resolves_provision (hid : p.identity env.lower v = .ok id) (hs : S.lookup s = S.lookup s₀)
    (hauto : p.autoProvision) (htier : Role.parse env.lower p.autoProvisioned.2 = some tier)
    (hnobody : v.issuer ≠ "" → ∀ k u₀, S.lookup s₀ k = some u₀ → u₀.issuer = v.issuer →
      u₀.subject ≠ v.claims.sub)
    (hnew : ∀ k ∈ env.newID, S.lookup s₀ k = none) :
    Resolves S env.lower p v s₀ (provision env id tier) s := by
  obtain ⟨hissuer, hsubject, hemail, hverified⟩ := identity_eq_ok hid
  rw [provision]
  refine (gives_sso (Q := fun r s' ↦ S.lookup s' = S.lookup s ∧ ∀ ans, r = .ok ans →
      ∀ u, ans = .ok u → S.lookup s u.userID = some u)
    ((gives_getUserByUsername id.username).mono fun r s' ⟨h, ans, hr, hu⟩ ↦ ⟨h, ?_⟩)).andThen
      (fun _ s' h ↦ ⟨clean_of_same (h.1.trans hs), fun _ hu ↦ by cases hu⟩) fun ans s₁ ⟨h₁, hu⟩ ↦ ?_
  · subst hr
    rintro _ ⟨⟩
    exact hu
  have h₁ : S.lookup s₁ = S.lookup s₀ := h₁.trans hs
  match ans with
  | .error (.failed _) => exact resolves_throw (clean_of_same h₁)
  | .error .notFound => exact resolves_createSSOUser hid h₁ hauto htier hnobody hnew
  | .ok existing =>
    have hexisting : S.lookup s₀ existing.userID = some existing := hs ▸ hu _ rfl existing rfl
    dsimp only
    split
    · exact resolves_throw (clean_of_same h₁)
    · rename_i hrefused
      simp only [Identity.refused, decide_eq_true_eq, not_or, not_not, not_and,
        Bool.not_eq_eq_eq_not, Bool.not_true] at hrefused
      obtain ⟨hunverified, hlink, hrole⟩ := hrefused
      refine resolves_putUser h₁ hissuer hsubject hnobody (fun u₀ hu₀ ↦ ?_)
        (.provisioned hauto htier ?_ fun u₀ hu₀ ↦ ?_)
      · cases hexisting.symm.trans hu₀
        exact ⟨hlink, rfl, rfl, rfl⟩
      · have hrole : tier.atLeast existing.role := by simpa using hrole
        exact hrole
      · cases hexisting.symm.trans hu₀
        refine ⟨hlink, fun huses ↦ ?_⟩
        have hnot := hunverified (hemail.mpr huses)
        rw [hverified] at hnot
        simpa using hnot

theorem resolves_resolveSSOIdentity (hid : p.identity env.lower v = .ok id)
    (hnew : ∀ k ∈ env.newID, S.lookup s k = none) :
    Resolves S env.lower p v s
      (resolveSSOIdentity env id p.autoProvisioned.1 p.autoProvisioned.2) s := by
  obtain ⟨hissuer, hsubject, -⟩ := identity_eq_ok hid
  rw [resolveSSOIdentity]
  refine (gives_sso (Q := fun r s' ↦ S.lookup s' = S.lookup s ∧ ∀ ans, r = .ok ans →
      LookedUp S id.issuer id.subject s ans)
    ((gives_getUserByOIDC id.issuer id.subject).mono fun r s' ⟨h, ans, hr, hu⟩ ↦ ⟨h, ?_⟩)).andThen
      (fun _ s' h ↦ ⟨clean_of_same h.1, fun _ hu ↦ by cases hu⟩) fun ans s₁ ⟨h₁, hlooked⟩ ↦ ?_
  · subst hr
    rintro _ ⟨⟩
    exact hu
  have hlooked := hlooked ans rfl
  rw [hissuer, hsubject] at hlooked
  match ans with
  | .error (.failed _) => exact resolves_throw (clean_of_same h₁)
  | .ok u =>
    dsimp only
    split
    · exact resolves_throw (clean_of_same h₁)
    · refine gives_pure ⟨clean_of_same h₁, fun u' hu' ↦ ?_⟩
      cases hu'
      obtain ⟨hu, hi, hsub⟩ := hlooked.found u rfl
      exact ⟨.linked hu hi hsub, ⟨u, h₁ ▸ hu, rfl, rfl, rfl, rfl, rfl, rfl⟩, hi, hsub⟩
  | .error .notFound =>
    dsimp only
    split
    · exact resolves_throw (clean_of_same h₁)
    · rename_i hauto
      split
      · exact resolves_throw (clean_of_same h₁)
      · rename_i tier htier
        exact resolves_provision hid h₁ (by simpa [Provider.autoProvisioned] using hauto) htier
          (hlooked.notFound rfl) hnew

/-- The account that has been found is still there when its session has been started. -/
theorem Resolved.signedOn {u : User} (h : Resolved S env.lower p v s₀ u s) (hclean : Clean S s₀ s)
    (hput : Put S u s s') : Clean S s₀ s' ∧ (¬u.disabled → SignedOn S v s' u) := by
  obtain ⟨u', hu', hsame⟩ := h.stored
  have hput' : Put S u' s s' := hput.imp_right fun ⟨w, hw, hs⟩ ↦
    ⟨w, ⟨hw.userID.trans hsame.userID.symm, hw.role.trans hsame.role.symm,
      hw.disabled.trans hsame.disabled.symm, hw.issuer.trans hsame.issuer.symm,
      hw.subject.trans hsame.subject.symm, hw.passwordHash.trans hsame.passwordHash.symm⟩,
      hsame.userID ▸ hs⟩
  have hrow : S.lookup s u'.userID = some u' := by rw [hsame.userID, hu']
  refine ⟨hclean.trans ⟨hput'.untouched fun u₀ hu₀ ↦ ?_,
    (hput'.links fun _ ↦ ⟨u', hrow, rfl, rfl⟩).unique⟩, fun henabled ↦ ?_⟩
  · cases hrow.symm.trans hu₀
    exact ⟨rfl, rfl, rfl, fun _ ↦ ⟨rfl, rfl⟩⟩
  · rcases hput with hs | ⟨w, hw, hs⟩
    · exact ⟨u', hs ▸ hu', hsame.role, by rwa [hsame.disabled], hsame.issuer.trans h.issuer,
        hsame.subject.trans h.subject⟩
    · exact ⟨w, by rw [hs, Function.update_self], hw.role, by rwa [hw.disabled],
        hw.issuer.trans h.issuer, hw.subject.trans h.subject⟩

/-- What a callback comes to. -/
structure CalledBack (S : UserTable σ υ ς) (lower : Char → Char) (p : Provider) (v : Verified)
    (s : σ) (r : CallbackReply) (s' : σ) : Prop where
  clean : Clean S s s'
  signedIn : ∀ u token returnTo, r = .signedIn u token returnTo →
    SignedOn S v s' u ∧ Entitled S lower p v s u

theorem always_signOn (service : Service) (hid : p.identity env.lower v = .ok id)
    (hnew : ∀ k ∈ env.newID, S.lookup s k = none) :
    (signOn env service p id).Always (Asked S) s (CalledBack S env.lower p v s) := by
  refine Program.always_bind.mpr ((resolves_resolveSSOIdentity hid hnew).always.mono
    fun r s₁ ⟨hclean, hr⟩ ↦ ?_)
  cases r with
  | error e => exact ⟨hclean, fun _ _ _ h ↦ by cases h⟩
  | ok u =>
    have hresolved := hr u rfl
    have hstart : Gives S (startSSOSession env service u) s₁ fun r s₂ ↦
        Put S u s₁ s₂ ∧ (∀ token, r = .ok token → ¬u.disabled) := by
      rw [startSSOSession]
      split
      · exact gives_throw ⟨.inl rfl, fun _ h ↦ by cases h⟩
      · rename_i henabled
        exact (gives_startSession env service u).mono fun _ _ h ↦ ⟨h, fun _ _ ↦ henabled⟩
    refine Program.always_bind.mpr (hstart.always.mono fun r s₂ ⟨hput, henabled⟩ ↦ ?_)
    obtain ⟨hclean', hsigned⟩ := hresolved.signedOn hclean hput
    cases r with
    | error e => exact ⟨hclean', fun _ _ _ h ↦ by cases h⟩
    | ok token =>
      refine ⟨hclean', fun u' _ _ h ↦ ?_⟩
      cases h
      exact ⟨hsigned (henabled token rfl), hresolved.entitled⟩

end resolve

/-- No identity is linked by another call. -/
theorem links_of_yields {service : Service} {k : AccountCall} {o : Outcome}
    (hk : ∀ env oidc q, k ≠ .callback env oidc q)
    (h : (k.program service).Yields (Asked S) s o s') : Links S s s' := by
  have hplain {α : Type} {p : Method α} (hp : LinksNobody S p s)
      (h : (plain p).Yields (Asked S) s o s') : Links S s s' := by
    suffices halways : (plain p).Always (Asked S) s fun _ s' ↦ Links S s s' from
      halways.of_yields h
    refine Program.always_bind.mpr (hp.always.mono fun r s' hs ↦ ?_)
    cases r <;> exact hs
  cases k with
  | setup env username displayName password => exact hplain (linksNobody_setup env _ _ _ _) h
  | createUser env username displayName password role =>
    exact hplain (linksNobody_createUser env _ _ _ _) h
  | updateUser env id changes => exact hplain (linksNobody_updateUser env id changes) h
  | deleteUser id => exact hplain (linksNobody_deleteUser id) h
  | setPassword env now id password keep =>
    exact hplain (linksNobody_setPassword env now id password keep) h
  | login env username password =>
    suffices halways : ((AccountCall.login env username password).program service).Always (Asked S)
        s fun _ s' ↦ Links S s s' from halways.of_yields h
    refine Program.always_bind.mpr
      ((linksNobody_login env service username password).always.mono fun r s' hs ↦ ?_)
    cases r <;> exact hs
  | callback env oidc q => exact absurd rfl (hk env oidc q)

/-- What becomes of a callback. -/
structure TookOverNothing (S : UserTable σ υ ς) (env : Env) (oidc : Option Provider) (q : Callback)
    (s : σ) (o : Outcome) (s' : σ) : Prop where
  untouched : Untouched S s s'
  signedIn : ∀ u token, o = .signedIn u token → ∃ p v, oidc = some p ∧ q.verified = .ok v ∧
    SignedOn S v s' u ∧ Entitled S env.lower p v s u

/-- A callback that is refused before the store is asked. -/
theorem calledBack_refused {env : Env} {oidc : Option Provider} {q : Callback} :
    Clean S s s ∧ TookOverNothing S env oidc q s .refused s :=
  ⟨clean_of_same rfl, .refl s, fun _ _ h ↦ by cases h⟩

theorem callback_of_yields {service : Service} {env : Env} {oidc : Option Provider} {q : Callback}
    {o : Outcome} (hnew : ∀ k ∈ env.newID, S.lookup s k = none)
    (h : ((AccountCall.callback env oidc q).program service).Yields (Asked S) s o s') :
    Clean S s s' ∧ TookOverNothing S env oidc q s o s' := by
  suffices halways : ((AccountCall.callback env oidc q).program service).Always (Asked S) s
      fun o s' ↦ Clean S s s' ∧ TookOverNothing S env oidc q s o s' from halways.of_yields h
  rw [AccountCall.program]
  unfold handleOIDCCallback
  split
  · exact calledBack_refused
  · rename_i p
    split
    · exact calledBack_refused
    · split
      · exact calledBack_refused
      · exact calledBack_refused
      · rename_i id hid
        cases hv : q.verified with
        | error e =>
          rw [hv] at hid
          cases hid
        | ok v =>
          rw [hv] at hid
          refine Program.always_bind.mpr ((always_signOn service hid hnew).mono
            fun r s' ⟨hclean, hsigned⟩ ↦ ?_)
          cases r with
          | failed e => exact ⟨hclean, hclean.untouched, fun _ _ h ↦ by cases h⟩
          | login reason => exact ⟨hclean, hclean.untouched, fun _ _ h ↦ by cases h⟩
          | signedIn u token returnTo =>
            refine ⟨hclean, hclean.untouched, fun u' _ h ↦ ?_⟩
            cases h
            exact ⟨p, v, rfl, hv, hsigned u token returnTo rfl⟩

end gives

/-! ## In every run -/

section runs

/-- **Single sign-on takes over no account**, whatever calls there are in whatever order. -/
theorem takes_over_nothing (S : UserTable σ υ ς) (service : Service) (init : σ → Prop)
    {tr : List (Machine.Step σ MadeCall)} {s : σ} (h : (oneByOne S service init).Run tr s)
    (hnew : ∀ x ∈ tr, ∀ id ∈ x.act.call.drawnID, S.lookup x.pre id = none) :
    ((∀ t, init t → UniqueLinks S t) → UniqueLinks S s) ∧
      ∀ x ∈ tr, ∀ env oidc q, x.act.call = .callback env oidc q →
        TookOverNothing S env oidc q x.pre x.act.outcome x.post := by
  constructor
  · intro hinit
    refine h.invariant_of (C := fun s a ↦ ∀ id ∈ a.call.drawnID, S.lookup s id = none) hnew hinit
      fun s a s' hs hnew hnext ↦ ?_
    by_cases hk : ∃ env oidc q, a.call = .callback env oidc q
    · obtain ⟨env, oidc, q, hk⟩ := hk
      change (a.call.program service).Yields (Asked S) s a.outcome s' at hnext
      rw [hk] at hnext hnew
      exact (callback_of_yields hnew hnext).1.unique hs
    · simp only [not_exists] at hk
      exact (links_of_yields hk hnext).unique hs
  · intro x hx env oidc q hk
    obtain ⟨_, -, -, hnext⟩ := h.of_mem hx
    have hnew := hnew x hx
    change (x.act.call.program service).Yields (Asked S) x.pre x.act.outcome x.post at hnext
    rw [hk] at hnext hnew
    exact (callback_of_yields hnew hnext).2

end runs

/-! ### On a unit -/

/-- A viewer, who is not linked. -/
def oneViewer : MemAccounts where
  users := Keyed.empty.put
    { userID := "u1", username := "ann", role := .viewer, createdAt := 1, updatedAt := 1 }

/-- Someone of that name signs on, where accounts may be linked. -/
def annSignsOn : AccountCall :=
  .callback benchEnv (some { autoProvision := true })
    { verified := .ok
        { issuer := "idp", claims := { sub := "7", preferredUsername := "Ann" } } }

/-- What becomes of it. -/
def annSignedOn : Machine.Step MemAccounts MadeCall where
  pre := oneViewer
  act := ⟨annSignsOn, ((annSignsOn.program {}).run (memStore Char.toLower default).exec oneViewer).1⟩
  post := ((annSignsOn.program {}).run (memStore Char.toLower default).exec oneViewer).2

/-- The viewer is linked, and signed on. -/
theorem annSignedOn_takes_over_nothing :
    (∃ u token, annSignedOn.act.outcome = .signedIn u token ∧ u.userID = "u1") ∧
      TookOverNothing (memTable Char.toLower default) benchEnv (some { autoProvision := true })
        { verified := .ok
            { issuer := "idp", claims := { sub := "7", preferredUsername := "Ann" } } }
        oneViewer annSignedOn.act.outcome annSignedOn.post := by
  have hnext : (oneByOne (memTable Char.toLower default) {} (· = oneViewer)).next oneViewer
      annSignedOn.act annSignedOn.post :=
    Program.yields_run _ (fun _ _ ↦ .inl ⟨rfl, rfl⟩) _ _
  refine ⟨⟨_, _, rfl, by decide⟩, ?_⟩
  refine (takes_over_nothing (memTable Char.toLower default) {} (· = oneViewer)
    (.step _ _ (.init rfl) hnext) ?_).2 annSignedOn (List.mem_singleton_self _) _ _ _ rfl
  rintro x hx id hid
  cases List.mem_singleton.mp hx
  cases hid
  decide

end ClassG.Auth
