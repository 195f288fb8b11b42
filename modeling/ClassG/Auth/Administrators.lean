import ClassG.Auth.Threads

/-!
# Administrators

A user is read before it is written, and the administrators are counted before one is demoted,
disabled or deleted.  Between the two another call may write what the first does not know of.  What
the first may still rely on where none does (`Unraced`) is said here of each call of the store.
-/

set_option autoImplicit false

namespace ClassG.Auth

open Store

/-! ## Administrators come and go -/

section admins

variable {σ υ ς : Type} (S : UserTable σ υ ς)

/-- The user is an enabled administrator. -/
def IsAdmin (s : σ) (id : String) : Prop := ∃ u, S.lookup s id = some u ∧ u.enabledAdmin

/-- There is an enabled administrator. -/
def HasAdmin (s : σ) : Prop := ∃ id, IsAdmin S s id

/-- There are no users. -/
def NoUsers (s : σ) : Prop := ∀ id, S.lookup s id = none

end admins

end ClassG.Auth

namespace ClassG.Store.AccountOp

open Auth

/-- A user is read. -/
def readsUser : AccountOp → Bool
  | getUser _ | getUserByUsername _ | getUserByOIDC _ _ => true
  | _ => false

/-- The user that is written or deleted. -/
def target : AccountOp → Option String
  | putUser u => some u.userID
  | deleteUser id => some id
  | _ => none

/-- The user that is made an enabled administrator, or kept one. -/
def appoints : AccountOp → Option String
  | putUser u => if u.enabledAdmin then some u.userID else none
  | _ => none

/-- The user that is none after that. -/
def dismisses : AccountOp → Option String
  | putUser u => if u.enabledAdmin then none else some u.userID
  | deleteUser id => some id
  | _ => none

end ClassG.Store.AccountOp

namespace ClassG.Auth

open Store

section events

variable {ι σ υ ς : Type} (S : UserTable σ υ ς)

/-- A user has been read. -/
def readsUser : What AccountCall accountOps Outcome → Bool
  | .did op _ => op.readsUser
  | _ => false

/-- The administrators have been counted. -/
def countsAdmins : What AccountCall accountOps Outcome → Bool
  | .did .countAdmins _ => true
  | _ => false

/-- The event has made the user an enabled administrator. -/
def Promotes (id : String) (x : AccountMoment ι σ) : Prop :=
  ∃ op r, x.what = .did op (.ok r) ∧ op.appoints = some id ∧ ¬IsAdmin S x.pre id

/-- The event has taken an enabled administrator away. -/
def Dismisses (x : AccountMoment ι σ) : Prop :=
  ∃ op r id, x.what = .did op (.ok r) ∧ op.dismisses = some id ∧ IsAdmin S x.pre id

variable [DecidableEq ι]

/-- No other call comes between: the user that is written has not been promoted since the thread
read a user, and if an administrator is taken away, no other has been since it counted them. -/
structure Unraced (i : ι) (w : AccountWorld ι σ) (op : AccountOp) : Prop where
  promoted : ∀ id, op.target = some id → ∀ x ∈ since i readsUser w.history, x.thread ≠ i →
    ¬Promotes S id x
  dismissed : (∃ id, op.dismisses = some id ∧ IsAdmin S w.shared id) →
    ∀ x ∈ since i countsAdmins w.history, x.thread ≠ i → ¬Dismisses S x

/-- A user who is no administrator is not put where there are no users. -/
def Populated (w : AccountWorld ι σ) (op : AccountOp) : Prop :=
  (∃ id, op.dismisses = some id) → ¬NoUsers S w.shared

/-- The id that a call has drawn is a new one when it looks. -/
def DrawsNew (k : AccountCall) (w : AccountWorld ι σ) (op : AccountOp) : Prop :=
  op.readsUser → ∀ id ∈ k.drawnID, S.lookup w.shared id = none

instance (k : AccountCall) (w : AccountWorld ι σ) (op : AccountOp) :
    Decidable (DrawsNew S k w op) :=
  inferInstanceAs (Decidable (_ → _))

end events

/-! ## What a call of the store does to the administrators -/

section effects

variable {ι σ υ ς : Type} {S : UserTable σ υ ς} {s s' : σ} {id id' : String} {u v : User}

theorem isAdmin_of_same (h : S.lookup s' = S.lookup s) : IsAdmin S s' id ↔ IsAdmin S s id := by
  rw [IsAdmin, h, IsAdmin]

theorem isAdmin_of_put (hv : v.SameAccount u)
    (h : S.lookup s' = Function.update (S.lookup s) u.userID (some v)) :
    IsAdmin S s' id ↔ if id = u.userID then u.enabledAdmin = true else IsAdmin S s id := by
  rw [IsAdmin, h, Function.update_apply]
  split
  · simp [hv.enabledAdmin]
  · rfl

theorem isAdmin_of_delete (h : S.lookup s' = Function.update (S.lookup s) id' none) :
    IsAdmin S s' id ↔ id ≠ id' ∧ IsAdmin S s id := by
  rw [IsAdmin, h, Function.update_apply]
  split
  · simp [*]
  · simp [*, IsAdmin]

theorem not_noUsers (h : HasAdmin S s) : ¬NoUsers S s := by
  obtain ⟨id, u, hu, -⟩ := h
  intro hno
  rw [hno] at hu
  cases hu

/-- Whoever is an administrator now and was none before has been promoted since, and whoever is none
and was one has been dismissed. -/
def Traced (S : UserTable σ υ ς) (w w' : AccountWorld ι σ) : Prop :=
  ∃ newer, w'.history = newer ++ w.history ∧
    (∀ id, IsAdmin S w'.shared id → IsAdmin S w.shared id ∨ ∃ x ∈ newer, Promotes S id x) ∧
    ∀ id, IsAdmin S w.shared id → IsAdmin S w'.shared id ∨ ∃ x ∈ newer, Dismisses S x

theorem Traced.refl (w : AccountWorld ι σ) : Traced S w w :=
  ⟨[], rfl, fun _ ↦ .inl, fun _ ↦ .inl⟩

theorem Traced.trans {w w' w'' : AccountWorld ι σ} (h : Traced S w w') (h' : Traced S w' w'') :
    Traced S w w'' := by
  obtain ⟨newer, hnewer, hup, hdown⟩ := h
  obtain ⟨newest, hnewest, hup', hdown'⟩ := h'
  refine ⟨newest ++ newer, by rw [hnewest, hnewer, List.append_assoc], fun id hid ↦ ?_,
    fun id hid ↦ ?_⟩
  · rcases hup' id hid with hid | ⟨x, hx, hpromotes⟩
    · rcases hup id hid with hid | ⟨x, hx, hpromotes⟩
      · exact .inl hid
      · exact .inr ⟨x, List.mem_append_right _ hx, hpromotes⟩
    · exact .inr ⟨x, List.mem_append_left _ hx, hpromotes⟩
  · rcases hdown id hid with hid | ⟨x, hx, hdismisses⟩
    · rcases hdown' id hid with hid | ⟨x, hx, hdismisses⟩
      · exact .inl hid
      · exact .inr ⟨x, List.mem_append_left _ hx, hdismisses⟩
    · exact .inr ⟨x, List.mem_append_right _ hx, hdismisses⟩

/-- An event that leaves the users alone. -/
theorem traced_quiet {w : AccountWorld ι σ} (x : AccountMoment ι σ)
    (h : S.lookup s = S.lookup w.shared) : Traced S w ⟨s, x :: w.history⟩ :=
  ⟨[x], rfl, fun _ hid ↦ .inl ((isAdmin_of_same h).mp hid),
    fun _ hid ↦ .inl ((isAdmin_of_same h).mpr hid)⟩

variable {site : Site σ}

theorem lookup_act (w : AccountWorld ι σ) (i : ι) (e : Option String) {op : AccountOp}
    (hop : ¬op.writesUsers) :
    S.lookup ((accounts ι S site).act i e w op).shared = S.lookup w.shared := by
  cases e with
  | some doing => rfl
  | none => exact S.lookup_of_other hop

/-- What has happened where the store has done what it was asked to. -/
theorem what_of_ok {op : AccountOp} {r : op.Result} (h : (S.exec s op).1 = .ok r) :
    (.did op (S.exec s op).1 : What AccountCall accountOps Outcome) = .did op (.ok r) := by
  rw [h]

theorem traced_act (w : AccountWorld ι σ) (i : ι) (e : Option String) (op : AccountOp) :
    Traced S w ((accounts ι S site).act i e w op) := by
  cases e with
  | some doing => exact traced_quiet _ rfl
  | none =>
    cases S.effect w.shared op with
    | nothing h => exact traced_quiet _ h
    | @put u v hok hv h =>
      refine ⟨[_], rfl, fun id hid ↦ ?_, fun id hid ↦ ?_⟩
      · by_cases hold : IsAdmin S w.shared id
        · exact .inl hold
        · have hnew := (isAdmin_of_put hv h).mp hid
          split at hnew
          · rename_i hu
            exact .inr ⟨_, List.mem_singleton_self _, _, (), what_of_ok hok,
              by simp [AccountOp.appoints, hnew, hu], hold⟩
          · exact absurd hnew hold
      · by_cases hu : id = u.userID ∧ ¬u.enabledAdmin
        · exact .inr ⟨_, List.mem_singleton_self _, _, (), id, what_of_ok hok,
            by simp [AccountOp.dismisses, hu], hid⟩
        · refine .inl ((isAdmin_of_put hv h).mpr ?_)
          split
          · rename_i heq
            by_contra hno
            exact hu ⟨heq, hno⟩
          · exact hid
    | @delete id' hok h =>
      refine ⟨[_], rfl, fun id hid ↦ ?_, fun id hid ↦ ?_⟩
      · exact .inl ((isAdmin_of_delete h).mp hid).2
      · by_cases hid' : id = id'
        · exact .inr ⟨_, List.mem_singleton_self _, _, (), id, what_of_ok hok,
            by rw [AccountOp.dismisses, hid'], hid⟩
        · exact .inl ((isAdmin_of_delete h).mpr ⟨hid', hid⟩)

end effects

/-! ## What a call knows of the user it writes -/

section knows

variable {ι σ υ ς : Type} [DecidableEq ι] {S : UserTable σ υ ς} {site : Site σ}
  {bare : Prop}

variable (S) in
/-- The outline of the proofs: there is an administrator, or no user at all where that is allowed
for.  Whatever other calls do, it can be traced. -/
def wayBack (ι : Type) [DecidableEq ι] (bare : Prop) :
    Outline ι AccountCall accountOps Outcome σ where
  inv w := HasAdmin S w.shared ∨ bare ∧ NoUsers S w.shared
  assume i k w op := Unraced S i w op ∧ (bare → Populated S w op) ∧ DrawsNew S k w op
  rely _ w w' := (HasAdmin S w.shared → HasAdmin S w'.shared) ∧ Traced S w w'

theorem wayBack_lawful : (wayBack S ι bare).Lawful where
  rely_refl _ w := ⟨id, .refl w⟩
  rely_trans _ _ _ _ h h' := ⟨fun hw ↦ h'.1 (h.1 hw), h.2.trans h'.2⟩

/-- The user was no administrator when the thread read it. -/
def Unpromoted (S : UserTable σ υ ς) (i : ι) (w : AccountWorld ι σ) (id : String) : Prop :=
  (∀ x ∈ since i readsUser w.history, x.thread ≠ i → ¬Promotes S id x) → ¬IsAdmin S w.shared id

/-- There was another administrator when the thread counted them. -/
def Backed (S : UserTable σ υ ς) (i : ι) (w : AccountWorld ι σ) (id : String) : Prop :=
  (∀ x ∈ since i countsAdmins w.history, x.thread ≠ i → ¬Dismisses S x) →
    ∃ id', id' ≠ id ∧ IsAdmin S w.shared id'

variable {i : ι} {w w' : AccountWorld ι σ} {id : String}

/-- What has happened since, while others were at work. -/
theorem since_of_finds {p : What AccountCall accountOps Outcome → Bool}
    (h : (wayBack S ι bare).Finds i w w') : ∃ newer, (∀ x ∈ newer, x.thread ≠ i) ∧
      since i p w'.history = newer ++ since i p w.history ∧
      (∀ id, IsAdmin S w'.shared id → IsAdmin S w.shared id ∨ ∃ x ∈ newer, Promotes S id x) ∧
      ∀ id, IsAdmin S w.shared id → IsAdmin S w'.shared id ∨ ∃ x ∈ newer, Dismisses S x := by
  obtain ⟨⟨newer, hnewer, hother, -⟩, ⟨-, newer', hnewer', hup, hdown⟩, -⟩ := h
  obtain rfl : newer = newer' := List.append_cancel_right (hnewer.symm.trans hnewer')
  exact ⟨newer, hother, by rw [hnewer, since_append hother], hup, hdown⟩

theorem Unpromoted.finds (h : Unpromoted S i w id) (hw : (wayBack S ι bare).Finds i w w') :
    Unpromoted S i w' id := by
  obtain ⟨newer, hother, hsince, hup, -⟩ := since_of_finds hw
  intro hpromotes hadmin
  rw [hsince] at hpromotes
  rcases hup id hadmin with hold | ⟨x, hx, hpromoted⟩
  · exact h (fun x hx ↦ hpromotes x (List.mem_append_right _ hx)) hold
  · exact hpromotes x (List.mem_append_left _ hx) (hother x hx) hpromoted

theorem Backed.finds (h : Backed S i w id) (hw : (wayBack S ι bare).Finds i w w') :
    Backed S i w' id := by
  obtain ⟨newer, hother, hsince, -, hdown⟩ := since_of_finds hw
  intro hdismisses
  rw [hsince] at hdismisses
  obtain ⟨id', hid', hadmin⟩ := h fun x hx ↦ hdismisses x (List.mem_append_right _ hx)
  rcases hdown id' hadmin with hnow | ⟨x, hx, hdismissed⟩
  · exact ⟨id', hid', hnow⟩
  · exact absurd hdismissed (hdismisses x (List.mem_append_left _ hx) (hother x hx))

/-- The thread may write the user, who `stays` an enabled administrator or does not. -/
def MayWrite (S : UserTable σ υ ς) (i : ι) (w : AccountWorld ι σ) (id : String) (stays : Prop) :
    Prop :=
  stays ∨ HasAdmin S w.shared ∧ (Unpromoted S i w id ∨ Backed S i w id)

theorem MayWrite.finds {stays : Prop} (h : MayWrite S i w id stays)
    (hw : (wayBack S ι bare).Finds i w w') : MayWrite S i w' id stays := by
  refine h.imp_right fun ⟨hadmin, h⟩ ↦ ⟨hw.2.1.1 hadmin, ?_⟩
  exact h.imp (fun h ↦ h.finds hw) fun h ↦ h.finds hw

/-- Where the user goes, another administrator is left. -/
theorem exists_other {op : AccountOp} (h : HasAdmin S w.shared)
    (hknows : Unpromoted S i w id ∨ Backed S i w id) (hunraced : Unraced S i w op)
    (htarget : op.target = some id) (hdismisses : op.dismisses = some id) :
    ∃ id', id' ≠ id ∧ IsAdmin S w.shared id' := by
  by_cases hid : IsAdmin S w.shared id
  · rcases hknows with hknows | hknows
    · exact absurd hid (hknows (hunraced.promoted id htarget))
    · exact hknows (hunraced.dismissed ⟨id, hdismisses, hid⟩)
  · obtain ⟨id', hadmin⟩ := h
    exact ⟨id', fun heq ↦ hid (heq ▸ hadmin), hadmin⟩

/-! ## Each call of the store keeps an administrator -/

theorem keeps_of_hasAdmin {e : Option String} {op : AccountOp}
    (h : HasAdmin S w.shared → HasAdmin S ((accounts ι S site).act i e w op).shared)
    (hinv : (wayBack S ι bare).inv ((accounts ι S site).act i e w op)) :
    (wayBack S ι bare).Keeps i w ((accounts ι S site).act i e w op) :=
  ⟨hinv, fun _ _ ↦ ⟨h, traced_act w i e op⟩⟩

/-- An operation that leaves the users alone. -/
theorem keeps_same {e : Option String} {op : AccountOp} (hw : (wayBack S ι bare).inv w)
    (h : S.lookup ((accounts ι S site).act i e w op).shared = S.lookup w.shared) :
    (wayBack S ι bare).Keeps i w ((accounts ι S site).act i e w op) := by
  have hiff : HasAdmin S ((accounts ι S site).act i e w op).shared ↔
      HasAdmin S w.shared := exists_congr fun id ↦ isAdmin_of_same h
  refine keeps_of_hasAdmin hiff.mpr (hw.imp hiff.mpr fun ⟨hbare, hno⟩ ↦ ⟨hbare, fun id ↦ ?_⟩)
  rw [h, hno]

theorem keeps_other {e : Option String} {op : AccountOp} (hw : (wayBack S ι bare).inv w)
    (hop : ¬op.writesUsers) :
    (wayBack S ι bare).Keeps i w ((accounts ι S site).act i e w op) :=
  keeps_same hw (lookup_act w i e hop)

theorem keeps_putUser {e : Option String} {u : User} (hw : (wayBack S ι bare).inv w)
    (hmay : MayWrite S i w u.userID u.enabledAdmin) (hunraced : Unraced S i w (.putUser u)) :
    (wayBack S ι bare).Keeps i w ((accounts ι S site).act i e w (.putUser u)) := by
  cases e with
  | some doing => exact keeps_same hw rfl
  | none =>
    cases S.effect w.shared (.putUser u) with
    | nothing h => exact keeps_same hw h
    | @put _ v hok hv h =>
      have hadmin : HasAdmin S (S.exec w.shared (.putUser u)).2 := by
        by_cases hu : u.enabledAdmin
        · exact ⟨u.userID, (isAdmin_of_put hv h).mpr (by rwa [if_pos rfl])⟩
        · obtain ⟨hadmin, hknows⟩ := hmay.resolve_left hu
          obtain ⟨id, hid, hother⟩ := exists_other hadmin hknows hunraced rfl
            (by simp [AccountOp.dismisses, hu])
          exact ⟨id, (isAdmin_of_put hv h).mpr (by rwa [if_neg hid])⟩
      exact keeps_of_hasAdmin (fun _ ↦ hadmin) (.inl hadmin)

theorem keeps_deleteUser {e : Option String} {id : String} (hw : (wayBack S ι bare).inv w)
    (hmay : MayWrite S i w id False) (hunraced : Unraced S i w (.deleteUser id)) :
    (wayBack S ι bare).Keeps i w
      ((accounts ι S site).act i e w (.deleteUser id)) := by
  cases e with
  | some doing => exact keeps_same hw rfl
  | none =>
    cases S.effect w.shared (.deleteUser id) with
    | nothing h => exact keeps_same hw h
    | delete hok h =>
      obtain ⟨hadmin, hknows⟩ := hmay.resolve_left not_false
      obtain ⟨id', hid', hother⟩ := exists_other hadmin hknows hunraced rfl rfl
      have hadmin : HasAdmin S (S.exec w.shared (.deleteUser id)).2 :=
        ⟨id', (isAdmin_of_delete h).mpr ⟨hid', hother⟩⟩
      exact keeps_of_hasAdmin (fun _ ↦ hadmin) (.inl hadmin)

end knows

end ClassG.Auth
