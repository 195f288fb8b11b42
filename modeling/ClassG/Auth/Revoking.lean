import ClassG.Auth.Administrators
import ClassG.Auth.Sessions
import ClassG.Store.SessionTable

/-!
# Calls that revoke

When a password has been set, a role changed or an account disabled or deleted, the sessions that
the user had before are gone.  Every other call may come between any two operations of the one that
revokes, so this is said of the past: whose session an id has been (`Was`), and which sessions have
been revoked (`Revoked`).

No operation brings a session back, whichever call it is of.  So what is left to show of a call that
revokes is which sessions it spares: all at first, then those that are listed, and at the end the
one that is to be kept.
-/

set_option autoImplicit false

namespace ClassG.Store.AccountOp

/-- The id of the session that is put. -/
def opens : AccountOp → Option String
  | putSession sess => some sess.sessionID
  | _ => none

end ClassG.Store.AccountOp

namespace ClassG.Auth

open Store

/-- It ends the session of the user. -/
def AccountCall.revokes (u id : String) : AccountCall → Prop
  | setPassword _ _ userID _ keepSession => userID = u ∧ id ≠ keepSession
  | updateUser _ userID changes =>
    userID = u ∧ (changes.role.isSome ∨ changes.disabled = some true)
  | deleteUser userID => userID = u
  | _ => False

/-! ## What has happened -/

section events

variable {ι σ υ ς : Type} (S : SessionTable σ υ ς)

/-- A call has begun. -/
def callBegins : What SessionCall accountOps SessionOutcome → Bool
  | .start _ => true
  | _ => false

/-- A user has been read. -/
def userRead : What SessionCall accountOps SessionOutcome → Bool
  | .did op _ => op.readsUser
  | _ => false

/-- The event has changed the account, or deleted it. -/
def AltersAccount (id : String) (x : SessionMoment ι σ) : Prop :=
  ∃ op r, x.what = .did op (.ok r) ∧ op.target = some id ∧
    ∀ u, op = .putUser u → ∀ v, S.lookup x.pre id = some v → ¬v.SameAccount u

/-- There has been such a session, of this user. -/
def Was (h : List (SessionMoment ι σ)) (id u : String) : Prop :=
  ∃ x ∈ h, S.ownerOf x.pre id = some u

variable [DecidableEq ι]

/-- The session has been revoked: a call has returned that revokes it, and when that began the
session was there, or had been. -/
def Revoked : List (SessionMoment ι σ) → String → Prop
  | [], _ => False
  | x :: older, id => Revoked older id ∨ ∃ k u, x.what = .finish (.account k) (.account .done) ∧
      k.revokes u id ∧ Was S (upTo x.thread callBegins older) id u

/-- Whom thread `i` authenticates had a session that had not been revoked when the call began, and
an account that was there at a moment of the call, and enabled. -/
structure Authentic (i : ι) (h : List (SessionMoment ι σ)) (p : Principal) : Prop where
  unrevoked : ¬Revoked S (upTo i callBegins h) p.sessionID
  session : ∃ x ∈ since i callBegins h, S.ownerOf x.pre p.sessionID = some p.user.userID
  user : ∃ x ∈ since i callBegins h, S.lookup x.pre p.user.userID = some p.user
  enabled : p.user.disabled = false

/-- The account that a `Login` writes is the one that is there. -/
def Restores (k : SessionCall) (w : SessionWorld ι σ) (op : AccountOp) : Prop :=
  k.logsIn → ∀ u, op = .putUser u → ∃ v, S.lookup w.shared u.userID = some v ∧ v.SameAccount u

/-- No other call has changed an account since a `Login` has read it, when it writes it back. -/
def Unaltered (i : ι) (k : SessionCall) (w : SessionWorld ι σ) (op : AccountOp) : Prop :=
  k.logsIn → ∀ u, op = .putUser u → ∀ x ∈ since i userRead w.history, x.thread ≠ i →
    ¬AltersAccount S u.userID x

omit [DecidableEq ι] in
/-- The id of a session that is put is a new one. -/
def NewSession (w : SessionWorld ι σ) (op : AccountOp) : Prop :=
  ∀ id ∈ op.opens, S.ownerOf w.shared id = none ∧ ∀ x ∈ w.history, S.ownerOf x.pre id = none

omit [DecidableEq ι] in
instance (w : SessionWorld ι σ) (op : AccountOp) : Decidable (NewSession S w op) :=
  inferInstanceAs (Decidable (∀ _ ∈ _, _))

end events

/-! ## What a call of the store does -/

section effects

variable {ι σ υ ς : Type} {S : SessionTable σ υ ς} {service : Service}
  {possible : Option String → AccountOp → Prop} {w w' w'' : SessionWorld ι σ}

/-- Sessions that are gone stay gone, and accounts stay as they are unless an event alters them. -/
structure Kin (S : SessionTable σ υ ς) (w w' : SessionWorld ι σ) : Prop where
  gone : ∀ id u, Was S w.history id u → S.ownerOf w.shared id = none →
    S.ownerOf w'.shared id = none
  accounts : ∃ newer, w'.history = newer ++ w.history ∧
    ∀ id u, S.lookup w.shared id = some u →
      (∃ v, S.lookup w'.shared id = some v ∧ v.SameAccount u) ∨ ∃ x ∈ newer, AltersAccount S id x

theorem Was.mono {h newer : List (SessionMoment ι σ)} {id u : String} (hwas : Was S h id u) :
    Was S (newer ++ h) id u := by
  obtain ⟨x, hx, howner⟩ := hwas
  exact ⟨x, List.mem_append_right _ hx, howner⟩

theorem Kin.refl (w : SessionWorld ι σ) : Kin S w w where
  gone _ _ _ h := h
  accounts := ⟨[], rfl, fun _ u hu ↦ .inl ⟨u, hu, .refl u⟩⟩

theorem Kin.trans (h : Kin S w w') (h' : Kin S w' w'') : Kin S w w'' := by
  obtain ⟨hgone, newer, hnewer, haccounts⟩ := h
  obtain ⟨hgone', newest, hnewest, haccounts'⟩ := h'
  constructor
  · intro id u hwas hnone
    exact hgone' id u (hnewer ▸ hwas.mono) (hgone id u hwas hnone)
  · refine ⟨newest ++ newer, by rw [hnewest, hnewer, List.append_assoc], fun id u hu ↦ ?_⟩
    rcases haccounts id u hu with ⟨v, hv, hsame⟩ | ⟨x, hx, halters⟩
    · rcases haccounts' id v hv with ⟨v', hv', hsame'⟩ | ⟨x, hx, halters⟩
      · exact .inl ⟨v', hv', hsame'.trans hsame⟩
      · exact .inr ⟨x, List.mem_append_left _ hx, halters⟩
    · exact .inr ⟨x, List.mem_append_right _ hx, halters⟩

/-- An event that leaves the store alone. -/
theorem Kin.record (w : SessionWorld ι σ) (x : SessionMoment ι σ) :
    Kin S w ⟨w.shared, x :: w.history⟩ where
  gone _ _ _ h := h
  accounts := ⟨[x], rfl, fun _ u hu ↦ .inl ⟨u, hu, .refl u⟩⟩

/-- The sessions after an operation: only a new one can be put. -/
theorem ownerOf_act (i : ι) (e : Option String) {op : AccountOp} (hnew : NewSession S w op)
    {id : String} (hid : (∃ u, Was S w.history id u) ∨ S.ownerOf w.shared id ≠ none) :
    S.ownerOf ((access ι S.toUserTable service possible).act i e w op).shared id = none ∨
      S.ownerOf ((access ι S.toUserTable service possible).act i e w op).shared id =
        S.ownerOf w.shared id := by
  cases e with
  | some doing => exact .inr rfl
  | none =>
    refine S.ownerOf_exec w.shared op id ?_
    rintro sess rfl heq
    obtain ⟨hnone, hnever⟩ := hnew sess.sessionID rfl
    rcases hid with ⟨u, x, hx, howner⟩ | hid
    · rw [heq, hnever x hx] at howner
      cases howner
    · exact hid (heq ▸ hnone)

/-- What has become of an account is told by the event. -/
theorem accounts_act (w : SessionWorld ι σ) (i : ι) (e : Option String) (op : AccountOp)
    {id : String} {u : User} (hu : S.lookup w.shared id = some u) :
    (∃ v, S.lookup ((access ι S.toUserTable service possible).act i e w op).shared id = some v ∧
        v.SameAccount u) ∨
      AltersAccount S id ⟨w.shared, i,
        .did op ((access ι S.toUserTable service possible).effect i e w.shared op).1⟩ := by
  cases e with
  | some doing => exact .inl ⟨u, hu, .refl u⟩
  | none =>
    cases S.effect w.shared op with
    | nothing h => exact .inl ⟨u, (congrFun h id).trans hu, .refl u⟩
    | @put u' v hok hv h =>
      by_cases hid : id = u'.userID
      · subst hid
        by_cases hold : u.SameAccount u'
        · refine .inl ⟨v, ?_, hv.trans hold.symm⟩
          exact (congrFun h _).trans (Function.update_self ..)
        · refine .inr ⟨.putUser u', (), congrArg _ hok, rfl, ?_⟩
          rintro _ ⟨⟩ v' hv'
          obtain rfl := Option.some.inj (hu.symm.trans hv')
          exact hold
      · exact .inl ⟨u, (congrFun h id).trans ((Function.update_of_ne hid ..).trans hu), .refl u⟩
    | @delete id' hok h =>
      by_cases hid : id = id'
      · subst hid
        exact .inr ⟨.deleteUser id, (), congrArg _ hok, rfl, fun _ hop ↦ by cases hop⟩
      · exact .inl ⟨u, (congrFun h id).trans ((Function.update_of_ne hid ..).trans hu), .refl u⟩

theorem Kin.act (w : SessionWorld ι σ) (i : ι) (e : Option String) {op : AccountOp}
    (hnew : NewSession S w op) :
    Kin S w ((access ι S.toUserTable service possible).act i e w op) where
  gone id u hwas hnone := by
    have hcases : S.ownerOf ((access ι S.toUserTable service possible).act i e w op).shared id =
      none ∨ _ := ownerOf_act i e hnew (.inl ⟨u, hwas⟩)
    rcases hcases with h | h
    · exact h
    · rw [h, hnone]
  accounts := ⟨[_], rfl, fun id u hu ↦ (accounts_act w i e op hu).imp_right fun h ↦
    ⟨_, List.mem_singleton_self _, h⟩⟩

end effects

/-! ## What is always so -/

section settled

variable {ι σ υ ς : Type} [DecidableEq ι] {S : SessionTable σ υ ς} {service : Service}
  {possible : Option String → AccountOp → Prop} {w w' : SessionWorld ι σ} {i : ι}

/-- What is to be shown where a call returns. -/
structure EndsWell (S : SessionTable σ υ ς) (i : ι) (k : SessionCall) (r : SessionOutcome)
    (w : SessionWorld ι σ) : Prop where
  revokes : ∀ a u id, k = .account a → r = .account .done → a.revokes u id →
    Was S (upTo i callBegins w.history) id u → S.ownerOf w.shared id = none
  authentic : ∀ p, r = .authenticated p → p.anonymous = false → Authentic S i w.history p

/-- A session never passes from one user to another, one that has been revoked is gone, and whoever
has been authenticated was so rightly. -/
structure Settled (S : SessionTable σ υ ς) (w : SessionWorld ι σ) : Prop where
  owner : ∀ id u, Was S w.history id u →
    S.ownerOf w.shared id = none ∨ S.ownerOf w.shared id = some u
  revoked : ∀ id, Revoked S w.history id → S.ownerOf w.shared id = none
  authentic : ∀ newer x older, w.history = newer ++ x :: older → ∀ k p,
    x.what = .finish k (.authenticated p) → p.anonymous = false → Authentic S x.thread older p

theorem was_of_upTo {h : List (SessionMoment ι σ)} {id u : String}
    (hwas : Was S (upTo i callBegins h) id u) : Was S h id u := by
  obtain ⟨x, hx, howner⟩ := hwas
  exact ⟨x, (List.dropWhile_sublist _).subset hx, howner⟩

theorem Revoked.was {h : List (SessionMoment ι σ)} {id : String} (hrevoked : Revoked S h id) :
    ∃ u, Was S h id u := by
  induction h with
  | nil => exact hrevoked.elim
  | cons x h ih =>
    have hcons {u : String} (hwas : Was S h id u) : Was S ([x] ++ h) id u := hwas.mono
    rcases hrevoked with hrevoked | ⟨-, u, -, -, hwas⟩
    · exact (ih hrevoked).imp fun _ ↦ hcons
    · exact ⟨u, hcons (was_of_upTo hwas)⟩

theorem Revoked.mono {h newer : List (SessionMoment ι σ)} {id : String}
    (hrevoked : Revoked S h id) : Revoked S (newer ++ h) id := by
  induction newer with
  | nil => exact hrevoked
  | cons x newer ih => exact .inl ih

/-- One more event. -/
theorem Settled.cons (hw : Settled S w) {t : σ} {x : SessionMoment ι σ} (hx : x.pre = w.shared)
    (ht : ∀ id, (∃ u, Was S w.history id u) ∨ S.ownerOf w.shared id ≠ none →
      S.ownerOf t id = none ∨ S.ownerOf t id = S.ownerOf w.shared id)
    (hends : ∀ k r, x.what = .finish k r → EndsWell S x.thread k r w) :
    Settled S ⟨t, x :: w.history⟩ := by
  constructor
  · rintro id u ⟨y, hy, howner⟩
    rcases List.mem_cons.mp hy with rfl | hy
    · rw [hx] at howner
      have hcases := ht id (.inr (by simp [howner]))
      rwa [howner] at hcases
    · have hwas : Was S w.history id u := ⟨y, hy, howner⟩
      rcases ht id (.inl ⟨u, hwas⟩) with hnone | hsame
      · exact .inl hnone
      · rw [hsame]
        exact hw.owner id u hwas
  · intro id hrevoked
    have hold : S.ownerOf w.shared id = none ∧ ∃ u, Was S w.history id u := by
      rcases hrevoked with hrevoked | ⟨k, u, hwhat, hrevokes, hwas⟩
      · exact ⟨hw.revoked id hrevoked, hrevoked.was⟩
      · exact ⟨(hends _ _ hwhat).revokes k u id rfl rfl hrevokes hwas, u, was_of_upTo hwas⟩
    rcases ht id (.inl hold.2) with hnone | hsame
    · exact hnone
    · exact hsame.trans hold.1
  · intro newer y older heq k p hwhat hp
    cases newer with
    | nil =>
      obtain ⟨rfl, rfl⟩ := List.cons.inj heq
      exact (hends _ _ hwhat).authentic p rfl hp
    | cons z newer => exact hw.authentic newer y older (List.cons.inj heq).2 k p hwhat hp

variable (S ι) in
/-- The outline of the proofs. -/
def revocation : Outline ι SessionCall accountOps SessionOutcome σ where
  inv := Settled S
  assume i k w op := NewSession S w op ∧ Unaltered S i k w op
  promise _ k w op := Restores S k w op
  rely _ := Kin S

theorem revocation_lawful : (revocation ι S).Lawful where
  rely_refl _ := .refl
  rely_trans _ _ _ _ h h' := h.trans h'

/-- Every operation keeps what is always so. -/
theorem keeps_act (hw : Settled S w) (e : Option String) {op : AccountOp}
    (hnew : NewSession S w op) :
    (revocation ι S).Keeps i w ((access ι S.toUserTable service possible).act i e w op) := by
  refine ⟨hw.cons rfl (fun _ ↦ ownerOf_act i e hnew) fun _ _ hwhat ↦ ?_, fun _ _ ↦ .act w i e hnew⟩
  cases hwhat

theorem keeps_start (hw : Settled S w) (k : SessionCall) :
    (revocation ι S).Keeps i w (w.record i (.start k)) := by
  refine ⟨hw.cons rfl (fun _ _ ↦ .inr rfl) fun _ _ hwhat ↦ ?_, fun _ _ ↦ .record w _⟩
  cases hwhat

theorem EndsWell.finds {k : SessionCall} {r : SessionOutcome} (h : EndsWell S i k r w)
    (hw : (revocation ι S).Finds i w w') : EndsWell S i k r w' := by
  obtain ⟨hmeanwhile, hkin, -⟩ := hw
  have hbegun := hmeanwhile.upTo_eq callBegins
  obtain ⟨newer, hnewer, hother, -⟩ := hmeanwhile
  constructor
  · intro a u id hk hr hrevokes hwas
    rw [hbegun] at hwas
    exact hkin.gone id u (was_of_upTo hwas) (h.revokes a u id hk hr hrevokes hwas)
  · intro p hr hp
    obtain ⟨hunrevoked, ⟨x, hx, howner⟩, ⟨y, hy, huser⟩, henabled⟩ := h.authentic p hr hp
    have hsince : since i callBegins w'.history = newer ++ since i callBegins w.history := by
      rw [hnewer, since_append hother]
    refine ⟨hbegun ▸ hunrevoked, ⟨x, ?_, howner⟩, ⟨y, ?_, huser⟩, henabled⟩
    · exact hsince ▸ List.mem_append_right _ hx
    · exact hsince ▸ List.mem_append_right _ hy

theorem returns_of_endsWell {k : SessionCall} {r : SessionOutcome} (h : EndsWell S i k r w) :
    (revocation ι S).Returns i k r w := by
  intro w' hw
  have hends := h.finds hw
  refine ⟨hw.2.2.cons rfl (fun _ _ ↦ .inr rfl) fun k' r' hwhat ↦ ?_, fun _ _ ↦ .record w' _⟩
  cases hwhat
  exact hends

end settled

/-! ## Parts of calls -/

section parts

variable {ι σ υ ς : Type} [DecidableEq ι] {S : SessionTable σ υ ς} {service : Service}
  {possible : Option String → AccountOp → Prop} {w w' : SessionWorld ι σ} {i : ι} {k : SessionCall}
  {ε α β : Type} {h₀ : List (SessionMoment ι σ)} {u : String} {spared : String → Prop}

/-- What is shown of a part of a call, where it comes to a result. -/
structure Leads (S : SessionTable σ υ ς) (service : Service)
    (possible : Option String → AccountOp → Prop) (i : ι) (k : SessionCall)
    (p : Program.Fallible accountOps ε α) (w : SessionWorld ι σ)
    (Q : α → SessionWorld ι σ → Prop) : Prop where
  proves : (revocation ι S).Proves (access ι S.toUserTable service possible) i k
    (fun r w ↦ ∀ a, r = .ok a → Q a w) p.run w

theorem Leads.mono {p : Program.Fallible accountOps ε α} {Q Q' : α → SessionWorld ι σ → Prop}
    (h : Leads S service possible i k p w Q) (hQ : ∀ a w, Q a w → Q' a w) :
    Leads S service possible i k p w Q' :=
  ⟨h.proves.mono fun _ w hr a ha ↦ hQ a w (hr a ha)⟩

theorem Leads.bind {p : Program.Fallible accountOps ε α}
    {f : α → Program.Fallible accountOps ε β} {P : α → SessionWorld ι σ → Prop}
    {Q : β → SessionWorld ι σ → Prop} (h : Leads S service possible i k p w P)
    (hf : ∀ a w, P a w → Leads S service possible i k (f a) w Q) :
    Leads S service possible i k (p >>= f) w Q :=
  ⟨h.proves.andThen (fun _ _ _ _ hb ↦ by cases hb) fun a w ha ↦ (hf a w (ha a rfl)).proves⟩

theorem leads_pure {a : α} {Q : α → SessionWorld ι σ → Prop} (h : Q a w) :
    Leads S service possible i k (pure a : Program.Fallible accountOps ε α) w Q :=
  ⟨fun b hb ↦ by cases hb; exact h⟩

theorem leads_throw (e : ε) {Q : α → SessionWorld ι σ → Prop} :
    Leads S service possible i k (throw e : Program.Fallible accountOps ε α) w Q :=
  ⟨fun b hb ↦ by cases hb⟩

/-- A call of the store. -/
theorem leads_query {op : AccountOp}
    {Q : Except StoreError op.Result → SessionWorld ι σ → Prop}
    (hpromise : ∀ w', (revocation ι S).Finds i w w' → Unaltered S i k w' op → Restores S k w' op)
    (hQ : ∀ w' e, (revocation ι S).Finds i w w' → NewSession S w' op → possible e op →
      Q ((access ι S.toUserTable service possible).effect i e w'.shared op).1
        ((access ι S.toUserTable service possible).act i e w' op)) :
    Leads S service possible i k (query op : Program.Fallible accountOps ε _) w Q := by
  refine ⟨fun w' hw e hready hassume ↦ ⟨hpromise w' hw hassume.2, keeps_act hw.2.2 e hassume.1, ?_⟩⟩
  rintro a ⟨⟩
  exact hQ w' e hw hassume.1 hready

theorem leads_store {op : AccountOp} {Q : op.Result → SessionWorld ι σ → Prop}
    (hpromise : ∀ w', (revocation ι S).Finds i w w' → Unaltered S i k w' op → Restores S k w' op)
    (hQ : ∀ w' e, (revocation ι S).Finds i w w' → NewSession S w' op → possible e op → ∀ r,
      ((access ι S.toUserTable service possible).effect i e w'.shared op).1 = .ok r →
        Q r ((access ι S.toUserTable service possible).act i e w' op)) :
    Leads S service possible i k (store op) w Q := by
  refine ⟨fun w' hw e hready hassume ↦ ⟨hpromise w' hw hassume.2, keeps_act hw.2.2 e hassume.1, ?_⟩⟩
  have hQ := hQ w' e hw hassume.1 hready
  cases hans : ((access ι S.toUserTable service possible).effect i e w'.shared op).1 with
  | error e => exact fun a ha ↦ by cases ha
  | ok r =>
    rintro _ ⟨⟩
    exact hQ r hans

/-- A fact that outlasts what other threads do, and any operation of this one. -/
structure Lasting (S : SessionTable σ υ ς) (service : Service)
    (possible : Option String → AccountOp → Prop) (i : ι) (F : SessionWorld ι σ → Prop) : Prop where
  finds : ∀ w w', F w → (revocation ι S).Finds i w w' → F w'
  act : ∀ w e op, F w → NewSession S w op →
    F ((access ι S.toUserTable service possible).act i e w op)

omit [DecidableEq ι] in
theorem restores_of_not (hk : ¬k.logsIn) (w : SessionWorld ι σ) (op : AccountOp) :
    Restores S k w op := fun h ↦ absurd h hk

/-- Whatever is done next, what lasts is so at the end. -/
theorem leads_any {F : SessionWorld ι σ → Prop} (hk : ¬k.logsIn)
    (hF : Lasting S service possible i F) (p : Program.Fallible accountOps ε α) (h : F w) :
    Leads S service possible i k p w fun _ w ↦ F w := by
  suffices hall : ∀ (p : Program accountOps (Except ε α)) w, F w →
      (revocation ι S).Proves (access ι S.toUserTable service possible) i k (fun _ w ↦ F w) p w from
    ⟨(hall p.run w h).mono fun _ _ hw _ _ ↦ hw⟩
  intro p
  induction p with
  | done r => exact fun w h ↦ h
  | perform op next ih =>
    intro w h w' hw e _ hassume
    exact ⟨restores_of_not hk w' op, keeps_act hw.2.2 e hassume.1,
      ih _ _ (hF.act w' e op (hF.finds w w' h hw) hassume.1)⟩

/-- The call began after `h₀`. -/
def Began (i : ι) (h₀ : List (SessionMoment ι σ)) (w : SessionWorld ι σ) : Prop :=
  upTo i callBegins w.history = h₀

/-- The sessions that the user had when the call began are gone, but for those that are spared. -/
structure Ending (S : SessionTable σ υ ς) (i : ι) (h₀ : List (SessionMoment ι σ)) (u : String)
    (spared : String → Prop) (w : SessionWorld ι σ) : Prop where
  began : Began i h₀ w
  gone : ∀ id, Was S h₀ id u → ¬spared id → S.ownerOf w.shared id = none

theorem Began.finds (h : Began i h₀ w) (hw : (revocation ι S).Finds i w w') : Began i h₀ w' :=
  (hw.1.upTo_eq callBegins).trans h

theorem Began.act (h : Began i h₀ w) (e : Option String) (op : AccountOp) :
    Began i h₀ ((access ι S.toUserTable service possible).act i e w op) := by
  rw [Began, Component.act, upTo_cons_of_not (by simp [Moment.own, callBegins])]
  exact h

theorem Began.was {id : String} (h : Began i h₀ w) (hwas : Was S h₀ id u) : Was S w.history id u :=
  was_of_upTo (h ▸ hwas)

theorem Ending.finds (h : Ending S i h₀ u spared w) (hw : (revocation ι S).Finds i w w') :
    Ending S i h₀ u spared w' :=
  ⟨h.began.finds hw, fun id hwas hid ↦ hw.2.1.gone id u (h.began.was hwas) (h.gone id hwas hid)⟩

theorem Ending.act (h : Ending S i h₀ u spared w) (e : Option String) {op : AccountOp}
    (hnew : NewSession S w op) :
    Ending S i h₀ u spared ((access ι S.toUserTable service possible).act i e w op) :=
  ⟨h.began.act e op, fun id hwas hid ↦
    (Kin.act w i e hnew).gone id u (h.began.was hwas) (h.gone id hwas hid)⟩

theorem lasting_ending : Lasting S service possible i (Ending S i h₀ u spared) where
  finds _ _ h := h.finds
  act _ e _ h := h.act e

/-- At first all are spared. -/
theorem Began.ending (h : Began i h₀ w) (u : String) : Ending S i h₀ u (fun _ ↦ True) w :=
  ⟨h, fun _ _ hspared ↦ absurd trivial hspared⟩

theorem Ending.mono {spared' : String → Prop} (h : Ending S i h₀ u spared w)
    (hspared : ∀ id, spared id → spared' id) : Ending S i h₀ u spared' w :=
  ⟨h.began, fun id hwas hid ↦ h.gone id hwas fun hold ↦ hid (hspared id hold)⟩

/-- Where the user has no sessions none is spared. -/
theorem Began.ending_of_ne (h : Began i h₀ w) (hw : Settled S w)
    (hne : ∀ id, S.ownerOf w.shared id ≠ some u) : Ending S i h₀ u (fun _ ↦ False) w :=
  ⟨h, fun id hwas _ ↦ (hw.owner id u (h.was hwas)).resolve_right (hne id)⟩

/-! ## The calls that revoke -/

/-- Of the sessions that the user had, those that are not listed are gone. -/
theorem leads_listSessions (u : String) (hk : ¬k.logsIn) (h : Began i h₀ w) :
    Leads S service possible i k (store (.listSessions 0)) w fun l w ↦
      Ending S i h₀ u (fun id ↦ ∃ sess ∈ l, sess.sessionID = id ∧ sess.userID = u) w := by
  refine leads_store (fun w' _ _ ↦ restores_of_not hk w' _) fun w' e hw hnew _ l hl ↦ ?_
  cases e with
  | some doing => cases hl
  | none =>
    have hbegan := h.finds hw
    refine ⟨hbegan.act none _, fun id hwas hlisted ↦ ?_⟩
    rcases hw.2.2.owner id u (hbegan.was hwas) with hnone | hsome
    · exact (Kin.act w' i none hnew).gone id u (hbegan.was hwas) hnone
    · exact absurd (S.mem_of_listSessions hl hsome) hlisted

theorem leads_deleteSession {rest : List Session} {keep : String} {sess : Session}
    (hk : ¬k.logsIn) (h : Ending S i h₀ u (fun id ↦ id = keep ∨
      ∃ s ∈ sess :: rest, s.sessionID = id ∧ s.userID = u) w) :
    Leads S service possible i k (ask (.deleteSession sess.sessionID)) w fun ans w ↦
      Answered (.deleteSession sess.sessionID) ans → Ending S i h₀ u (fun id ↦ id = keep ∨
        ∃ s ∈ rest, s.sessionID = id ∧ s.userID = u) w := by
  refine leads_query (fun w' _ _ ↦ restores_of_not hk w' _) fun w' e hw hnew _ hans ↦ ?_
  have h := h.finds hw
  refine ⟨h.began.act e _, fun id hwas hid ↦ ?_⟩
  cases e with
  | some doing => exact absurd rfl (hans doing)
  | none =>
    by_cases heq : id = sess.sessionID
    · subst heq
      exact S.ownerOf_deleteSession hans
    · refine (h.act none hnew).gone id hwas ?_
      rintro (hkeep | ⟨s, hs, hsid, hsu⟩)
      · exact hid (.inl hkeep)
      · rcases List.mem_cons.mp hs with rfl | hs
        · exact heq hsid.symm
        · exact hid (.inr ⟨s, hs, hsid, hsu⟩)

/-- The loop of `revokeExcept` spares one session. -/
theorem leads_revokeAll {keep : String} {l : List Session} (hk : ¬k.logsIn)
    (h : Ending S i h₀ u (fun id ↦ id = keep ∨
      ∃ sess ∈ l, sess.sessionID = id ∧ sess.userID = u) w) :
    Leads S service possible i k (revokeAll u keep l) w fun _ w ↦
      Ending S i h₀ u (fun id ↦ id = keep) w := by
  induction l generalizing w with
  | nil => exact leads_pure (h.mono fun id hid ↦ by simpa using hid)
  | cons sess rest ih =>
    rw [revokeAll]
    split
    · rename_i hskip
      refine ih (h.mono fun id ↦ ?_)
      rintro (hkeep | ⟨s, hs, rfl, rfl⟩)
      · exact .inl hkeep
      · rcases List.mem_cons.mp hs with rfl | hs
        · exact .inl (hskip.resolve_left (absurd rfl))
        · exact .inr ⟨s, hs, rfl, rfl⟩
    · refine (leads_deleteSession hk h).bind fun ans w h ↦ ?_
      cases ans with
      | ok => exact ih (h fun _ ↦ by simp)
      | error e =>
        cases e with
        | notFound => exact ih (h fun _ ↦ by simp)
        | failed doing => exact leads_throw _

theorem leads_setPassword (env : Env) (now : GoTime) (password keep : String) (hk : ¬k.logsIn)
    (h : Began i h₀ w) :
    Leads S service possible i k (setPassword env now u password keep) w fun _ w ↦
      Ending S i h₀ u (fun id ↦ id = keep) w := by
  rw [setPassword]
  refine (leads_any hk lasting_ending _ (h.ending u)).bind fun _ w h ↦ ?_
  refine (leads_any hk lasting_ending _ h).bind fun _ w h ↦ ?_
  refine (leads_any hk lasting_ending _ h).bind fun _ w h ↦ ?_
  rw [revokeExcept]
  refine (leads_listSessions u hk h.began).bind fun l w h ↦ ?_
  exact leads_revokeAll hk (h.mono fun _ ↦ .inr)

/-- An update of the role or one that disables, if the sessions can be deleted. -/
theorem leads_updateUser (env : Env) (c : Changes) (hk : ¬k.logsIn)
    (hpossible : ∀ e, possible e (.deleteUserSessions u) → e = none) (h : Began i h₀ w) :
    Leads S service possible i k (updateUser env u c) w fun _ w ↦
      Ending S i h₀ u (fun _ ↦ ¬(c.role.isSome ∨ c.disabled = some true)) w := by
  rw [updateUser]
  refine (leads_any hk lasting_ending _ (h.ending u)).bind fun old w h ↦ ?_
  refine (leads_any hk lasting_ending _ h).bind fun _ w h ↦ ?_
  refine (leads_any hk lasting_ending _ h).bind fun _ w h ↦ ?_
  refine (leads_any hk lasting_ending _ h).bind fun _ w h ↦ ?_
  have hrevoke : Leads S service possible i k
      (if (c.apply (env.clock 0) old).disabled ∨ c.role.isSome then do
        let _ ← ask (.deleteUserSessions u) else pure () : Method Unit) w fun _ w ↦
          Ending S i h₀ u (fun _ ↦ ¬(c.role.isSome ∨ c.disabled = some true)) w := by
    split
    · have hask : Leads S service possible i k (ask (.deleteUserSessions u)) w fun _ w ↦
          Ending S i h₀ u (fun _ ↦ False) w := by
        refine leads_query (fun w' _ _ ↦ restores_of_not hk w' _) fun w' e hw hnew he ↦ ?_
        obtain rfl := hpossible e he
        exact ((h.began.finds hw).act none _).ending_of_ne (keeps_act hw.2.2 none hnew).1
          (S.ownerOf_deleteUserSessions w'.shared u)
      exact hask.bind fun _ w h ↦ leads_pure (h.mono fun _ hid ↦ hid.elim)
    · rename_i hstays
      refine leads_pure (h.mono fun _ _ ↦ ?_)
      rintro (hrole | hdisabled)
      · exact hstays (.inr hrole)
      · exact hstays (.inl (by simp [Changes.apply, hdisabled]))
  exact hrevoke.bind fun _ w h ↦ leads_pure h

theorem leads_deleteUser (hk : ¬k.logsIn) (h : Began i h₀ w) :
    Leads S service possible i k (deleteUser u) w fun _ w ↦
      Ending S i h₀ u (fun _ ↦ False) w := by
  rw [deleteUser]
  refine (leads_any hk lasting_ending _ (h.ending u)).bind fun _ w h ↦ ?_
  refine (leads_any hk lasting_ending _ h).bind fun _ w h ↦ ?_
  refine leads_store (fun w' _ _ ↦ restores_of_not hk w' _) fun w' e hw hnew _ _ hok ↦ ?_
  cases e with
  | some doing => cases hok
  | none =>
    exact ((h.began.finds hw).act none _).ending_of_ne (keeps_act hw.2.2 none hnew).1
      (S.ownerOf_deleteUser hok)

end parts

end ClassG.Auth
