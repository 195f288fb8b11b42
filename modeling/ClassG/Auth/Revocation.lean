import ClassG.Auth.Refused
import ClassG.Auth.Revoking

/-!
# Revocation is final

Whoever is authenticated has a session that no call had revoked when `Authenticate` began, and an
account that is enabled.  A `Login` reads an account and later writes all of it back, so a change of
the account that comes between the two is lost; and an `UpdateUser` that fails to delete the
sessions returns nevertheless.  Where neither happens revocation is final.
-/

set_option autoImplicit false

namespace ClassG.Auth

open Store

section parts

variable {ι σ υ ς : Type} [DecidableEq ι] {S : SessionTable σ υ ς} {service : Service}
  {possible : Option String → AccountOp → Prop} {w w' : SessionWorld ι σ} {i : ι} {k : SessionCall}
  {ε α : Type} {h₀ : List (SessionMoment ι σ)} {u : String}

/-! ## Authenticate -/

/-- There is an event of the call of which this is so. -/
def During (i : ι) (P : SessionMoment ι σ → Prop) (w : SessionWorld ι σ) : Prop :=
  ∃ x ∈ since i callBegins w.history, P x

theorem lasting_during (P : SessionMoment ι σ → Prop) :
    Lasting S service possible i (During i P) where
  finds _ _ := by
    rintro ⟨x, hx, hP⟩ ⟨⟨newer, hnewer, hother, -⟩, -⟩
    refine ⟨x, ?_, hP⟩
    rw [hnewer, since_append hother]
    exact List.mem_append_right _ hx
  act w e op := by
    rintro ⟨x, hx, hP⟩ -
    refine ⟨x, ?_, hP⟩
    rw [Component.act, since_cons_of_not (by simp [Moment.own, callBegins])]
    exact List.mem_cons_of_mem _ hx

/-- An operation is an event of its call. -/
theorem during_act {P : SessionMoment ι σ → Prop} (e : Option String) (op : AccountOp)
    (h : P ⟨w.shared, i,
      .did op ((access ι S.toUserTable service possible).effect i e w.shared op).1⟩) :
    During i P ((access ι S.toUserTable service possible).act i e w op) := by
  refine ⟨_, ?_, h⟩
  rw [Component.act, since_cons_of_not (by simp [Moment.own, callBegins])]
  exact List.mem_cons_self

theorem Lasting.and {F F' : SessionWorld ι σ → Prop} (h : Lasting S service possible i F)
    (h' : Lasting S service possible i F') : Lasting S service possible i fun w ↦ F w ∧ F' w where
  finds w w' hw hfinds := ⟨h.finds w w' hw.1 hfinds, h'.finds w w' hw.2 hfinds⟩
  act w e op hw hnew := ⟨h.act w e op hw.1 hnew, h'.act w e op hw.2 hnew⟩

/-- The session has been found: it had not been revoked when the call began. -/
def Found (S : SessionTable σ υ ς) (i : ι) (id u : String) (w : SessionWorld ι σ) : Prop :=
  ¬Revoked S (upTo i callBegins w.history) id ∧ During i (fun x ↦ S.ownerOf x.pre id = some u) w

theorem lasting_found {id : String} : Lasting S service possible i (Found S i id u) := by
  refine Lasting.and ⟨fun w w' hw hfinds ↦ ?_, fun w e op hw _ ↦ ?_⟩ (lasting_during _)
  · rwa [hfinds.1.upTo_eq]
  · rwa [Component.act, upTo_cons_of_not (by simp [Moment.own, callBegins])]

theorem leads_getSession (id : String) (hk : ¬k.logsIn) :
    Leads S service possible i k (query (.getSession id) : Program.Fallible accountOps ε _) w
      fun ans w ↦ ∀ sess, ans = .ok sess → Found S i id sess.userID w := by
  refine leads_query (fun w' _ _ ↦ restores_of_not hk w' _) fun w' e hw _ _ sess hans ↦ ?_
  cases e with
  | some doing => cases hans
  | none =>
    have howner : S.ownerOf w'.shared id = some sess.userID := S.getSession w'.shared id sess hans
    refine ⟨fun hrevoked ↦ ?_, during_act none _ howner⟩
    rw [Component.act, upTo_cons_of_not (by simp [Moment.own, callBegins])] at hrevoked
    have hall : Revoked S w'.history id := by
      rw [← since_append_upTo (i := i) (p := callBegins) (h := w'.history)]
      exact hrevoked.mono
    cases howner.symm.trans (hw.2.2.revoked id hall)

theorem leads_getUser (id : String) (hk : ¬k.logsIn) {F : SessionWorld ι σ → Prop}
    (hF : Lasting S service possible i F) (h : F w) :
    Leads S service possible i k (query (.getUser id) : Program.Fallible accountOps ε _) w
      fun ans w ↦ F w ∧ ∀ u, ans = .ok u → u.userID = id ∧
        During i (fun x ↦ S.lookup x.pre id = some u) w := by
  refine leads_query (fun w' _ _ ↦ restores_of_not hk w' _) fun w' e hw hnew _ ↦ ?_
  refine ⟨hF.act w' e _ (hF.finds w w' h hw) hnew, fun u hans ↦ ?_⟩
  cases e with
  | some doing => cases hans
  | none =>
    have hlookup : S.lookup w'.shared id = some u :=
      found_eq_ok.mp ((S.exec_getUser _ _).symm.trans hans)
    exact ⟨S.userID_of_lookup hlookup, during_act none _ hlookup⟩

theorem leads_authenticateUser (env : Env) {id : String} {sess : Session} (hk : ¬k.logsIn)
    (h : Found S i id sess.userID w) :
    Leads S service possible i k (authenticateUser env service id sess) w fun p w ↦
      Authentic S i w.history p := by
  rw [authenticateUser]
  refine (leads_getUser sess.userID hk lasting_found h).bind fun ans w h ↦ ?_
  obtain ⟨hfound, hans⟩ := h
  cases ans with
  | error e =>
    cases e with
    | notFound => exact (leads_any hk lasting_found _ hfound).bind fun _ _ _ ↦ leads_throw _
    | failed doing => exact leads_throw _
  | ok u =>
    obtain ⟨huser, hduring⟩ := hans u rfl
    dsimp only
    split
    · exact (leads_any hk lasting_found _ hfound).bind fun _ _ _ ↦ leads_throw _
    · rename_i henabled
      refine (leads_any hk (lasting_found.and (lasting_during _)) _ ⟨hfound, hduring⟩).bind
        fun _ w h ↦ leads_pure ?_
      obtain ⟨⟨hunrevoked, hsession⟩, hduring⟩ := h
      exact ⟨hunrevoked, huser ▸ hsession, huser ▸ hduring, by simpa using henabled⟩

theorem leads_authenticate (env : Env) (token : String) (hk : ¬k.logsIn) :
    Leads S service possible i k (authenticate env service token) w fun p w ↦
      p.anonymous = false → Authentic S i w.history p := by
  rw [authenticate]
  split
  · exact leads_pure fun h ↦ by cases h
  · split
    · exact leads_throw _
    · refine (leads_getSession _ hk).bind fun ans w h ↦ ?_
      cases ans with
      | error e => cases e <;> exact leads_throw _
      | ok sess =>
        dsimp only
        split
        · exact (leads_any hk lasting_found _ (h sess rfl)).bind fun _ _ _ ↦ leads_throw _
        · exact (leads_authenticateUser env hk (h sess rfl)).mono fun _ _ h _ ↦ h

/-! ## Login -/

/-- The account is the one that the thread has read, unless another call has changed it. -/
def Current (S : SessionTable σ υ ς) (i : ι) (u : User) (w : SessionWorld ι σ) : Prop :=
  (∀ x ∈ since i userRead w.history, x.thread ≠ i → ¬AltersAccount S u.userID x) →
    ∃ v, S.lookup w.shared u.userID = some v ∧ v.SameAccount u

theorem Current.finds {u : User} (h : Current S i u w) (hw : (revocation ι S).Finds i w w') :
    Current S i u w' := by
  obtain ⟨⟨newer, hnewer, hother, -⟩, ⟨-, newer', hnewer', haccounts⟩, -⟩ := hw
  obtain rfl : newer = newer' := List.append_cancel_right (hnewer.symm.trans hnewer')
  intro hunaltered
  rw [hnewer, since_append hother] at hunaltered
  obtain ⟨v, hv, hsame⟩ := h fun x hx ↦ hunaltered x (List.mem_append_right _ hx)
  rcases haccounts _ v hv with ⟨v', hv', hsame'⟩ | ⟨x, hx, halters⟩
  · exact ⟨v', hv', hsame'.trans hsame⟩
  · exact absurd halters (hunaltered x (List.mem_append_left _ hx) (hother x hx))

omit [DecidableEq ι] in
theorem lookup_access (w : SessionWorld ι σ) (i : ι) (e : Option String) {op : AccountOp}
    (hop : ¬op.writesUsers) :
    S.lookup ((access ι S.toUserTable service possible).act i e w op).shared =
      S.lookup w.shared := by
  cases e with
  | some doing => rfl
  | none => exact S.lookup_of_other hop

/-- It stays so where no user is read or written. -/
theorem Current.act {u : User} (h : Current S i u w) (e : Option String) {op : AccountOp}
    (hop : ¬op.writesUsers) (hreads : ¬op.readsUser) :
    Current S i u ((access ι S.toUserTable service possible).act i e w op) := by
  intro hunaltered
  rw [lookup_access w i e hop]
  rw [Component.act, since_cons_of_not (by simp [Moment.own, userRead, hreads])] at hunaltered
  exact h fun x hx ↦ hunaltered x (List.mem_cons_of_mem _ hx)

/-- The account is written as it was, but for the times. -/
theorem Current.restores {u : User} (h : Current S i u w) (t : GoTime)
    (hunaltered : Unaltered S i k w (.putUser { u with lastLoginAt := some t, updatedAt := t })) :
    Restores S k w (.putUser { u with lastLoginAt := some t, updatedAt := t }) := by
  rintro hk _ ⟨⟩
  obtain ⟨v, hv, hsame⟩ := h fun x ↦
    hunaltered hk { u with lastLoginAt := some t, updatedAt := t } rfl x
  exact ⟨v, hv, hsame.userID, hsame.role, hsame.disabled, hsame.issuer, hsame.subject,
    hsame.passwordHash⟩

omit [DecidableEq ι] in
theorem restores_of_ne {op : AccountOp} (hop : ∀ u, op ≠ .putUser u) (w : SessionWorld ι σ) :
    Restores S k w op := fun _ u h ↦ absurd h (hop u)

theorem leads_getUserByUsername (name : String) :
    Leads S service possible i k (ask (.getUserByUsername name)) w fun ans w ↦
      ∀ u, ans = .ok u → Current S i u w := by
  refine leads_query (fun w' _ _ ↦ restores_of_ne (by simp) w') fun w' e _ _ _ u hans _ ↦ ?_
  cases e with
  | some doing => cases hans
  | none =>
    rw [lookup_access w' i none (by simp [AccountOp.writesUsers])]
    exact ⟨u, S.lookup_of_username hans, .refl u⟩

theorem leads_computed (r : Except AuthError α) :
    Leads S service possible i k (computed r) w fun _ w' ↦ w' = w := ⟨fun _ _ ↦ rfl⟩

theorem leads_drawn (doing : String) (x : Option α) :
    Leads S service possible i k (drawn doing x) w fun _ w' ↦ w' = w := by
  cases x with
  | none => exact leads_throw _
  | some a => exact leads_pure rfl

theorem leads_startSession (env : Env) {u : User} (h : Current S i u w) :
    Leads S service possible i k (startSession env service u) w fun _ _ ↦ True := by
  rw [startSession]
  refine (leads_drawn _ _).bind fun token w' hw ↦ ?_
  subst hw
  have hsession (sess : Session) : Leads S service possible i k (store (.putSession sess)) w'
      fun _ w ↦ Current S i u w :=
    leads_store (fun w' _ _ ↦ restores_of_ne (by simp) w') fun w' e hw _ _ _ _ ↦
      (h.finds hw).act e (by simp [AccountOp.writesUsers]) (by simp [AccountOp.readsUser])
  refine (hsession _).bind fun _ w h ↦ ?_
  have hput : Leads S service possible i k (ask (.putUser
      { u with lastLoginAt := some (env.clock 1), updatedAt := env.clock 1 })) w fun _ _ ↦ True :=
    leads_query (fun _ hw hunaltered ↦ (h.finds hw).restores _ hunaltered) fun _ _ _ _ _ ↦ trivial
  exact hput.bind fun _ _ _ ↦ leads_pure trivial

theorem leads_login (env : Env) (username password : String) :
    Leads S service possible i k (login env service username password) w fun _ _ ↦ True := by
  rw [login]
  refine (leads_getUserByUsername username).bind fun ans w h ↦ ?_
  cases ans with
  | error e => cases e <;> exact leads_throw _
  | ok u =>
    refine (leads_computed _).bind fun _ w' hw ↦ ?_
    subst hw
    exact (leads_startSession env (h u rfl)).bind fun _ _ _ ↦ leads_pure trivial

/-! ## Whole calls -/

/-- What is left of the call ends well. -/
structure Behaves (S : SessionTable σ υ ς) (service : Service)
    (possible : Option String → AccountOp → Prop) (i : ι) (k : SessionCall)
    (p : Program accountOps SessionOutcome) (w : SessionWorld ι σ) : Prop where
  holds : (revocation ι S).Holds (access ι S.toUserTable service possible) i k p w

theorem behaves_pure {r : SessionOutcome} (h : EndsWell S i k r w) :
    Behaves S service possible i k (pure r) w := ⟨returns_of_endsWell h⟩

theorem Leads.behaves {p : Program.Fallible accountOps ε α} {Q : α → SessionWorld ι σ → Prop}
    (h : Leads S service possible i k p w Q) {f : Except ε α → Program accountOps SessionOutcome}
    (hok : ∀ a w, Q a w → Behaves S service possible i k (f (.ok a)) w)
    (herror : ∀ e w, Behaves S service possible i k (f (.error e)) w) :
    Behaves S service possible i k (p.run >>= f) w := by
  refine ⟨Outline.proves_bind.mpr (h.proves.mono fun r w hr ↦ ?_)⟩
  cases r with
  | error e => exact (herror e w).holds
  | ok a => exact (hok a w (hr a rfl)).holds

theorem endsWell_account {o : Outcome} (ho : o ≠ .done) : EndsWell S i k (.account o) w where
  revokes _ _ _ _ hr := by cases hr; exact absurd rfl ho
  authentic _ hr := by cases hr

theorem endsWell_done {a : AccountCall} (h : Began i h₀ w) (hgone : ∀ u id, a.revokes u id →
    Was S h₀ id u → S.ownerOf w.shared id = none) :
    EndsWell S i (.account a) (.account .done) w where
  revokes _ u id hk _ hrevokes hwas := by
    cases hk
    exact hgone u id hrevokes (h ▸ hwas)
  authentic _ hr := by cases hr

theorem endsWell_authenticated {p : Principal}
    (h : p.anonymous = false → Authentic S i w.history p) :
    EndsWell S i k (.authenticated p) w where
  revokes _ _ _ _ hr := by cases hr
  authentic _ hr := by cases hr; exact h

theorem endsWell_unauthenticated (e : SessionError) :
    EndsWell S i k (.unauthenticated e) w where
  revokes _ _ _ _ hr := by cases hr
  authentic _ hr := by cases hr

/-- A method that signs no one in. -/
theorem Leads.behaves_plain {p : Method α} {Q : α → SessionWorld ι σ → Prop}
    (h : Leads S service possible i k p w Q)
    (hQ : ∀ a w, Q a w → EndsWell S i k (.account .done) w) :
    Behaves S service possible i k (plain p >>= fun o ↦ pure (.account o)) w := by
  refine ⟨Outline.proves_bind.mpr (Outline.proves_bind.mpr (h.proves.mono fun r w hr ↦ ?_))⟩
  cases r with
  | error e => exact returns_of_endsWell (endsWell_account (by simp))
  | ok a => exact returns_of_endsWell (hQ a w (hr a rfl))

theorem behaves_login (env : Env) (username password : String) :
    Behaves S service possible i k
      ((AccountCall.login env username password).program service >>= fun o ↦ pure (.account o))
        w := by
  refine ⟨Outline.proves_bind.mpr (Outline.proves_bind.mpr
    ((leads_login env username password).proves.mono fun r w _ ↦ ?_))⟩
  rcases r with e | ⟨u, token⟩
  · exact returns_of_endsWell (endsWell_account (by simp))
  · exact returns_of_endsWell (endsWell_account (by simp))

theorem behaves_setPassword (env : Env) (now : GoTime) (password keep : String)
    (h : Began i h₀ w) :
    Behaves S service possible i (.account (.setPassword env now u password keep))
      (plain (setPassword env now u password keep) >>= fun o ↦ pure (.account o)) w := by
  refine Leads.behaves_plain
    (leads_setPassword env now password keep (by simp [SessionCall.logsIn]) h)
    fun _ w h ↦ endsWell_done h.began ?_
  rintro _ id ⟨rfl, hkeep⟩ hwas
  exact h.gone id hwas hkeep

theorem behaves_updateUser (env : Env) (changes : Changes)
    (hpossible : ∀ e, possible e (.deleteUserSessions u) → e = none) (h : Began i h₀ w) :
    Behaves S service possible i (.account (.updateUser env u changes))
      (plain (updateUser env u changes) >>= fun o ↦ pure (.account o)) w := by
  refine Leads.behaves_plain
    (leads_updateUser env changes (by simp [SessionCall.logsIn]) hpossible h)
    fun _ w h ↦ endsWell_done h.began ?_
  rintro _ id ⟨rfl, hchanges⟩ hwas
  exact h.gone id hwas (not_not_intro hchanges)

theorem behaves_deleteUser (h : Began i h₀ w) :
    Behaves S service possible i (.account (.deleteUser u))
      (plain (deleteUser u) >>= fun o ↦ pure (.account o)) w := by
  refine Leads.behaves_plain (leads_deleteUser (by simp [SessionCall.logsIn]) h)
    fun _ w h ↦ endsWell_done h.began ?_
  rintro _ id rfl hwas
  exact h.gone id hwas not_false

theorem behaves_authenticate (env : Env) (token : String) :
    Behaves S service possible i (.authenticate env token)
      ((SessionCall.authenticate env token).program service) w :=
  (leads_authenticate env token (by simp [SessionCall.logsIn])).behaves
    (fun _ _ h ↦ behaves_pure (endsWell_authenticated h))
    fun e _ ↦ behaves_pure (endsWell_unauthenticated e)

theorem behaves_program (hk : k.admitted)
    (hpossible : ∀ e u, possible e (.deleteUserSessions u) → e = none) (h : Began i h₀ w) :
    Behaves S service possible i k (k.program service) w := by
  cases k with
  | authenticate env token => exact behaves_authenticate env token
  | account a =>
    cases a with
    | login env username password => exact behaves_login env username password
    | setPassword env now u password keep => exact behaves_setPassword env now password keep h
    | updateUser env u changes => exact behaves_updateUser env changes (fun e ↦ hpossible e u) h
    | deleteUser u => exact behaves_deleteUser h
    | setup | createUser | callback => cases hk

/-- Every call is as outlined. -/
theorem revocation_sound (hpossible : ∀ e u, possible e (.deleteUserSessions u) → e = none) :
    (revocation ι S).Sound (access ι S.toUserTable service possible) := by
  intro i k w hk hw
  have hbegan : Began i _ (w.record i (.start k)) :=
    upTo_cons_of_own (by simp [Moment.own, callBegins])
  exact ⟨keeps_start hw k, (behaves_program hk hpossible hbegan).holds⟩

end parts

/-! ## In every run -/

section runs

variable {ι σ υ ς : Type} [DecidableEq ι] {S : SessionTable σ υ ς} {service : Service}

/-- A turn that does no harm: no other call has changed an account that a `Login` writes back, and
sessions that are to be deleted are. -/
structure Harmless (S : SessionTable σ υ ς) (s : SessionState ι σ)
    (a : Turn ι SessionCall (Option String)) : Prop where
  login : Component.Meets (Unaltered S) s a
  sessions : ∀ i doing, a = .step i (some doing) → ∀ y ∈ s.about i, ∀ u,
    y.2 ≠ .deleteUserSessions u

/-- Revocation is final: whoever is authenticated has a session that had not been revoked and an
account that is enabled, and no `Login` brings back what an account was. -/
structure RevocationFinal (S : SessionTable σ υ ς) (tr : SessionTrace ι σ) (s : SessionState ι σ) :
    Prop where
  authentic : ∀ newer x older, s.world.history = newer ++ x :: older → ∀ k p,
    x.what = .finish k (.authenticated p) → p.anonymous = false → Authentic S x.thread older p
  login : ∀ x ∈ tr, ∀ i, x.act = .step i none → ∀ y ∈ x.pre.about i,
    Restores S y.1 x.pre.world y.2

/-- What the store fails to do, if it never fails to delete the sessions of a user. -/
def deletesSessions (e : Option String) (op : AccountOp) : Prop :=
  ∀ u, op = .deleteUserSessions u → e = none

/-- Where it does not fail to, the run is one of such a store. -/
theorem run_deletesSessions {tr : SessionTrace ι σ} {s : SessionState ι σ}
    (h : (access ι S.toUserTable service fun _ _ ↦ True).machine.Run tr s)
    (hsessions : ∀ x ∈ tr, Harmless S x.pre x.act) :
    (access ι S.toUserTable service deletesSessions).machine.Run tr s := by
  induction h with
  | init hi => exact .init hi
  | step a s' hr hn ih =>
    obtain ⟨hharmless, hrest⟩ := List.forall_mem_cons.mp hsessions
    refine .step a s' (ih hrest) ⟨?_, hn.2⟩
    cases a with
    | start i k => exact hn.1
    | finish i => trivial
    | step i e =>
      cases e with
      | none => exact fun _ _ _ _ ↦ rfl
      | some doing => exact fun y hy u hop ↦ absurd hop (hharmless.sessions i doing rfl y hy u)

theorem good_of_run {tr : SessionTrace ι σ} {s : SessionState ι σ}
    (h : (access ι S.toUserTable service deletesSessions).machine.Run tr s)
    (hnew : ∀ x ∈ tr, Component.Meets (fun _ _ w op ↦ NewSession S w op) x.pre x.act)
    (hharmless : ∀ x ∈ tr, Harmless S x.pre x.act) :
    (revocation ι S).Good (access ι S.toUserTable service deletesSessions) s := by
  refine Outline.sound revocation_lawful
    (revocation_sound fun e u he ↦ he u rfl) (fun t _ ↦ ?_) h fun x hx ↦ ?_
  · refine ⟨?_, fun _ h ↦ h.elim, fun newer x older heq ↦ by simp at heq⟩
    rintro id u ⟨x, hx, -⟩
    cases hx
  · have hmeets := (hnew x hx).and (hharmless x hx).login
    obtain ⟨pre, act, post⟩ := x
    cases act <;> exact hmeets

/-- **Revocation is final**, in every run in which no account is changed while a `Login` that has
read it has not yet written it back, and no `UpdateUser` fails to delete the sessions. -/
theorem revocationFinal_of_harmless (S : SessionTable σ υ ς) (service : Service)
    {tr : SessionTrace ι σ} {s : SessionState ι σ}
    (h : (access ι S.toUserTable service fun _ _ ↦ True).machine.Run tr s)
    (hnew : ∀ x ∈ tr, Component.Meets (fun _ _ w op ↦ NewSession S w op) x.pre x.act)
    (hharmless : ∀ x ∈ tr, Harmless S x.pre x.act) : RevocationFinal S tr s := by
  have hrun := run_deletesSessions h hharmless
  refine ⟨(good_of_run hrun hnew hharmless).inv.authentic, fun x hx i hact y hy ↦ ?_⟩
  obtain ⟨older, hsuf, hpre, -⟩ := hrun.of_mem hx
  have hold : ∀ x' ∈ older, x' ∈ tr := fun x' hx' ↦ hsuf.subset (List.mem_cons_of_mem _ hx')
  have hgood := good_of_run hpre (fun x' hx' ↦ hnew x' (hold x' hx'))
    fun x' hx' ↦ hharmless x' (hold x' hx')
  obtain ⟨next, hi⟩ := Component.State.thread_of_about hy
  have hassume := (hnew x hx).and (hharmless x hx).login
  rw [hact] at hassume
  exact hgood.promise (e := none) revocation_lawful hi (fun _ _ ↦ rfl) (hassume y hy)

end runs

/-! ### In memory -/

section memory

/-- The store in memory. -/
abbrev unitSessions : SessionTable MemAccounts User Session := memSessions Char.toLower default

/-- The service over it. -/
abbrev unitAccess :
    Component (Fin 2) SessionCall accountOps SessionOutcome MemAccounts (Option String) :=
  access (Fin 2) unitSessions.toUserTable {} fun _ _ ↦ True

instance (i : Fin 2) (e : Option String) (m : MemAccounts) (op : accountOps.Op) :
    Decidable (unitAccess.ready i e m op) := .isTrue trivial

instance (i : Fin 2) (k : SessionCall) : Decidable (unitAccess.admits i k) :=
  inferInstanceAs (Decidable (k.admitted = true))

/-- One account. -/
def oneAccount : MemAccounts where
  users := Keyed.empty.put
    { userID := "u1", username := "ann", role := .operator, passwordHash := "correct horse",
      createdAt := 1, updatedAt := 1 }

local instance nonzeroTwo : NeZero 2 := ⟨by decide⟩

/-- The account is disabled while its user signs in, and then written back. -/
def staleLogin : List (Turn (Fin 2) SessionCall (Option String)) :=
  [.start 0 (.account (.login benchEnv "ann" "correct horse")), .step 0 none,
    .start 1 (.account (.updateUser benchEnv "u1" { disabled := some true })), .step 1 none,
    .step 1 none, .step 1 none, .finish 1, .step 0 none, .step 0 none]

/-- Then it is enabled again. -/
theorem not_revocationFinal_staleLogin :
    ∃ tr s, unitAccess.machine.Run tr s ∧
      (unitSessions.lookup s.world.shared "u1").map User.disabled = some false ∧
        ¬RevocationFinal unitSessions tr s := by
  refine ⟨_, _, Component.run_replay (t := oneAccount) _ staleLogin trivial (by decide), by decide,
    fun h ↦ ?_⟩
  let before := Machine.replay unitAccess.take (.fresh oneAccount) staleLogin.dropLast
  have hdisabled :
      (unitSessions.lookup before.world.shared "u1").map User.disabled = some true := by decide
  obtain ⟨v, hv, hsame⟩ : ∃ v, unitSessions.lookup before.world.shared "u1" = some v ∧
      v.SameAccount _ := h.login _ List.mem_cons_self 0 rfl _ rfl rfl _ rfl
  have henabled : v.disabled = false := hsame.disabled
  rw [hv, Option.map_some, henabled] at hdisabled
  cases hdisabled

/-- The account and a session of it. -/
def signedIn : MemAccounts where
  users := oneAccount.users
  sessions := Keyed.empty.put
    { sessionID := "s1", userID := "u1", createdAt := 1, expiresAt := 2000, lastSeen := 1 }

/-- The role is changed, and the sessions cannot be deleted. -/
def failedRevocation : List (Turn (Fin 2) SessionCall (Option String)) :=
  [.start 1 (.account (.updateUser benchEnv "u1" { role := some .viewer })), .step 1 none,
    .step 1 none, .step 1 (some "deleting user sessions"), .finish 1,
    .start 0 (.authenticate benchEnv "s1"), .step 0 none, .step 0 none, .finish 0]

/-- Then the session still authenticates. -/
theorem not_revocationFinal_failedRevocation :
    ∃ tr s, unitAccess.machine.Run tr s ∧ ¬RevocationFinal unitSessions tr s := by
  refine ⟨_, _, Component.run_replay (t := signedIn) _ failedRevocation trivial (by decide),
    fun h ↦ ?_⟩
  have hauthentic := h.authentic [] _ _ rfl _ _ rfl rfl
  exact hauthentic.unrevoked
    (.inl (.inr ⟨_, "u1", rfl, ⟨rfl, .inl rfl⟩, _, List.mem_cons_self, by decide⟩))

/-- The user signs in and is authenticated, until the password is set. -/
def newPassword : List (Turn (Fin 2) SessionCall (Option String)) :=
  [.start 0 (.account (.login benchEnv "ann" "correct horse")), .step 0 none, .step 0 none,
    .step 0 none, .finish 0, .start 0 (.authenticate benchEnv "token"), .step 0 none, .step 0 none,
    .finish 0, .start 1 (.account (.setPassword benchEnv 1002 "u1" "battery staple" "")),
    .step 1 none, .step 1 none, .step 1 none, .step 1 none, .finish 1,
    .start 0 (.authenticate benchEnv "token"), .step 0 none, .finish 0]

/-- The store does what a turn asks of it. -/
def works : Turn (Fin 2) SessionCall (Option String) → Bool
  | .step _ e => e.isNone
  | .start _ _ | .finish _ => true

/-- Then the session is gone. -/
theorem revocationFinal_newPassword : RevocationFinal unitSessions
    (Machine.replaySteps unitAccess.take (.fresh oneAccount) newPassword [])
    (Machine.replay unitAccess.take (.fresh oneAccount) newPassword) := by
  refine revocationFinal_of_harmless unitSessions {}
    (Component.run_replay _ newPassword trivial (by decide)) (by decide) fun x hx ↦ ?_
  have halone : ∀ x ∈ Machine.replaySteps unitAccess.take (.fresh oneAccount) newPassword [],
      Component.Meets (fun i k w _ ↦ k.logsIn → ∀ y ∈ w.history, y.thread = i) x.pre x.act := by
    decide
  have hworks : ∀ x ∈ Machine.replaySteps unitAccess.take (.fresh oneAccount) newPassword [],
      works x.act := by decide
  constructor
  · refine (halone x hx).mono fun i k op _ _ h hk u _ y hy hother ↦ absurd (h hk y ?_) hother
    exact (List.takeWhile_sublist _).subset hy
  · intro i doing hact
    have hfree := hworks x hx
    rw [hact] at hfree
    cases hfree

end memory

end ClassG.Auth
