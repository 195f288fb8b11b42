import Mathlib.Logic.Basic
import ClassG.Ui.LiveStream

/-!
# One live socket

The close handler of a socket writes the fields of the class without asking whether the socket is
still the current one.  What keeps the two apart is that a new socket is opened only when the
handlers of the last one have seen its close event, or were taken off it.  `close` and the retries
see to that by themselves; `connect` and `resume` do not.

* `Guarded` — the state in which `connect` and `resume` are safe.
* `Single` — the invariant of the runs whose calls are all guarded.
* `one_live_socket` — what such runs do.
* `resume_orphans` — a run with a `resume` between a socket's end and its close event.
-/

set_option autoImplicit false

namespace ClassG.Ui

open Machine Tab

variable {φ : Type}

/-! ## The condition -/

/-- `connect` comes when there is no socket, and no timer either unless the factory throws;
`resume` does not come when the current socket is closing or closed. -/
def Guarded (w : Tab φ) : Act φ → Prop
  | .connect made => w.socket = none ∧ (made = true → w.timer = none)
  | .resume _ => w.readyState ≠ some .closing ∧ w.readyState ≠ some .closed
  | _ => True

instance (w : Tab φ) (a : Act φ) : Decidable (Guarded w a) :=
  match a with
  | .connect made => inferInstanceAs (Decidable (_ ∧ (made = true → _)))
  | .resume _ => inferInstanceAs (Decidable (_ ∧ _))
  | .close | .fire .. | .becomes .. | .opened _ | .message .. | .errored _ | .closed _ =>
    inferInstanceAs (Decidable True)

/-! ## The invariant -/

/-- What holds of the page between two steps. -/
structure Single (w : Tab φ) : Prop where
  armed : w.armed = w.timer.toList
  /-- A socket whose handlers may still be called is the current one. -/
  current : ∀ k, (w.sockets k).handled = true → (w.sockets k).closeDelivered = false →
    w.socket = some k
  delivered : ∀ k, (w.sockets k).closeDelivered = true → (w.sockets k).readyState = .closed
  apart : w.socket = none ∨ w.timer = none
  stopped : w.stopped = true → w.socket = none ∧ w.timer = none

/-- The sockets and the timers are as they were. -/
structure Keeps (w w' : Tab φ) : Prop where
  armed : w'.armed = w.armed
  timer : w'.timer = w.timer
  sockets : w'.sockets = w.sockets
  socket : w'.socket = w.socket
  stopped : w'.stopped = w.stopped

namespace Single

variable {w : Tab φ}

theorem congr (h : Single w) {w' : Tab φ} (hk : Keeps w w') : Single w' where
  armed := by rw [hk.armed, hk.timer, h.armed]
  current := by rw [hk.sockets, hk.socket]; exact h.current
  delivered := by rw [hk.sockets]; exact h.delivered
  apart := by rw [hk.socket, hk.timer]; exact h.apart
  stopped := by rw [hk.stopped, hk.socket, hk.timer]; exact h.stopped

/-- The timer is gone. -/
theorem untimed (h : Single w) {w' : Tab φ} (harmed : w'.armed = []) (htimer : w'.timer = none)
    (hsockets : w'.sockets = w.sockets) (hsocket : w'.socket = w.socket)
    (hstopped : w'.stopped = w.stopped) : Single w' where
  armed := by rw [harmed, htimer, Option.toList_none]
  current := by rw [hsockets, hsocket]; exact h.current
  delivered := by rw [hsockets]; exact h.delivered
  apart := .inr htimer
  stopped hs := by
    rw [hsocket]
    exact ⟨(h.stopped (hstopped ▸ hs)).1, htimer⟩

end Single

/-! ## What the parts of a step do -/

section parts

variable {w : Tab φ}

@[simp] theorem clearTimer_timer : w.clearTimer.timer = none := by
  rw [clearTimer]
  split
  · rfl
  · assumption

@[simp] theorem clearTimer_socket : w.clearTimer.socket = w.socket := by
  rw [clearTimer]
  split <;> rfl

@[simp] theorem clearTimer_sockets : w.clearTimer.sockets = w.sockets := by
  rw [clearTimer]
  split <;> rfl

@[simp] theorem clearTimer_stopped : w.clearTimer.stopped = w.stopped := by
  rw [clearTimer]
  split <;> rfl

@[simp] theorem clearTimer_frames : w.clearTimer.frames = w.frames := by
  rw [clearTimer]
  split <;> rfl

@[simp] theorem clearTimer_created : w.clearTimer.created = w.created := by
  rw [clearTimer]
  split <;> rfl

/-- Where `this.timer` is the only one armed, none is left. -/
theorem clearTimer_armed (h : w.armed = w.timer.toList) : w.clearTimer.armed = [] := by
  rw [clearTimer]
  split
  · rename_i t ht
    show w.armed.filter (· ≠ t) = []
    rw [h, ht]
    simp
  · rename_i ht
    rw [h, ht, Option.toList_none]

theorem single_clearTimer (h : Single w) : Single w.clearTimer :=
  h.untimed (clearTimer_armed h.armed) clearTimer_timer clearTimer_sockets clearTimer_socket
    clearTimer_stopped

/-- A retry is scheduled where there is no socket. -/
theorem single_scheduleReconnect (h : Single w) (hsocket : w.socket = none) :
    Single w.scheduleReconnect := by
  rw [scheduleReconnect]
  split
  · exact h
  · rename_i hrunning
    have hc : Single (clearTimer { w with attempt := w.attempt + 1, state := .reconnecting }) :=
      single_clearTimer (h.congr ⟨rfl, rfl, rfl, rfl, rfl⟩)
    have hnone : (clearTimer { w with attempt := w.attempt + 1, state := .reconnecting }).socket =
        none := clearTimer_socket.trans hsocket
    refine ⟨?_, hc.current, hc.delivered, .inl hnone, fun hs ↦ ?_⟩
    · show (clearTimer _).armed ++ [_] = [_]
      rw [hc.armed, clearTimer_timer, Option.toList_none, List.nil_append]
    · exact absurd (clearTimer_stopped.symm.trans hs) hrunning

theorem scheduleReconnect_pending (h : w.stopped = false) : w.scheduleReconnect.timer ≠ none := by
  rw [scheduleReconnect, if_neg (by simp [h])]
  exact Option.some_ne_none _

@[simp] theorem scheduleReconnect_stopped : w.scheduleReconnect.stopped = w.stopped := by
  rw [scheduleReconnect]
  split
  · rfl
  · exact clearTimer_stopped

/-- A socket is opened where there is none, and no timer either unless the factory throws. -/
theorem single_openSocket (h : Single w) (hsocket : w.socket = none) {made : Bool}
    (htimer : made = true → w.timer = none) : Single (w.openSocket made) := by
  rw [openSocket]
  split
  · exact h
  · rename_i hrunning
    cases made with
    | false => exact single_scheduleReconnect (h.congr ⟨rfl, rfl, rfl, rfl, rfl⟩) hsocket
    | true =>
      refine ⟨h.armed, fun k hk hopen ↦ ?_, fun k hk ↦ ?_, .inr (htimer rfl),
        fun hs ↦ absurd hs hrunning⟩
      · by_cases hnew : k = w.created
        · rw [hnew]
          rfl
        · have hold : Function.update w.sockets w.created { handled := true } k = w.sockets k :=
            Function.update_of_ne hnew ..
          have hcur := h.current k (hold ▸ hk) (hold ▸ hopen)
          rw [hsocket] at hcur
          cases hcur
      · by_cases hnew : k = w.created
        · subst hnew
          have hk' : (Function.update w.sockets w.created { handled := true }
            w.created).closeDelivered = true := hk
          rw [Function.update_self] at hk'
          cases hk'
        · have hold : Function.update w.sockets w.created { handled := true } k = w.sockets k :=
            Function.update_of_ne hnew ..
          show (Function.update w.sockets w.created { handled := true } k).readyState = _
          rw [hold]
          exact h.delivered k (hold ▸ hk)

/-- It leaves a socket or a timer. -/
theorem openSocket_live (made : Bool) (h : w.stopped = false) :
    (w.openSocket made).socket ≠ none ∨ (w.openSocket made).timer ≠ none := by
  rw [openSocket, if_neg (by simp [h])]
  cases made with
  | true => exact .inl (Option.some_ne_none _)
  | false => exact .inr (scheduleReconnect_pending h)

@[simp] theorem openSocket_stopped (made : Bool) : (w.openSocket made).stopped = w.stopped := by
  rw [openSocket]
  split
  · rfl
  · cases made with
    | true => rfl
    | false => exact scheduleReconnect_stopped

/-- `send` changes only what was sent. -/
theorem send_eq (f : ClientFrame) : ∃ sent, w.send f = { w with sent := sent } := by
  rw [send]
  split
  · split
    · exact ⟨_, rfl⟩
    · exact ⟨w.sent, rfl⟩
  · exact ⟨w.sent, rfl⟩

theorem keeps_onopen : Keeps w w.onopen := by
  obtain ⟨sent, hsent⟩ := send_eq (w := { w with
    everConnected := true, attempt := 0, state := .open }) (.subscribe w.topics)
  rw [onopen]
  dsimp only
  rw [hsent]
  exact ⟨rfl, rfl, rfl, rfl, rfl⟩

theorem keeps_onmessage (m : Message φ) : Keeps w (w.onmessage m) := by
  rcases m with _ | _ | _ | f
  · exact ⟨rfl, rfl, rfl, rfl, rfl⟩
  · exact ⟨rfl, rfl, rfl, rfl, rfl⟩
  · obtain ⟨sent, hsent⟩ := send_eq (w := w) .pong
    rw [onmessage, hsent]
    exact ⟨rfl, rfl, rfl, rfl, rfl⟩
  · exact ⟨rfl, rfl, rfl, rfl, rfl⟩

end parts

/-! ## The steps -/

section steps

variable {w w' : Tab φ} {a : Act φ}

/-- The socket's record is replaced by one whose handlers are called no more than before. -/
theorem Single.setSocket (h : Single w) {k : ℕ} {x : Socket}
    (hcurrent : x.handled = true → x.closeDelivered = false →
      (w.sockets k).handled = true ∧ (w.sockets k).closeDelivered = false)
    (hdelivered : x.closeDelivered = true → x.readyState = .closed) :
    Single (w.setSocket k x) := by
  refine ⟨h.armed, fun l hl hopen ↦ ?_, fun l hl ↦ ?_, h.apart, h.stopped⟩
  · by_cases hlk : l = k
    · subst hlk
      have hx : Function.update w.sockets l x l = x := Function.update_self ..
      obtain ⟨hh, hd⟩ := hcurrent (hx ▸ hl) (hx ▸ hopen)
      exact h.current l hh hd
    · have hx : Function.update w.sockets k x l = w.sockets l := Function.update_of_ne hlk ..
      exact h.current l (hx ▸ hl) (hx ▸ hopen)
  · show (Function.update w.sockets k x l).readyState = .closed
    by_cases hlk : l = k
    · subst hlk
      have hx : Function.update w.sockets l x l = x := Function.update_self ..
      rw [hx]
      exact hdelivered (hx ▸ hl)
    · have hx : Function.update w.sockets k x l = w.sockets l := Function.update_of_ne hlk ..
      rw [hx]
      exact h.delivered l (hx ▸ hl)

theorem single_delivered (h : Single w) {k : ℕ} (hclosed : (w.sockets k).readyState = .closed) :
    Single (w.delivered k) :=
  h.setSocket (fun _ hd ↦ (nomatch hd)) fun _ ↦ hclosed

/-- After its close event, the current socket can be let go. -/
theorem single_released (h : Single w) {k : ℕ} (hhandled : (w.sockets k).handled = true)
    (hopen : (w.sockets k).closeDelivered = false) (hclosed : (w.sockets k).readyState = .closed) :
    Single { w.delivered k with socket := none } := by
  have hcur := h.current k hhandled hopen
  have hd := single_delivered h hclosed
  refine ⟨hd.armed, fun l hl hlopen ↦ ?_, hd.delivered, .inl rfl, fun hs ↦ ⟨rfl, (hd.stopped hs).2⟩⟩
  obtain rfl := Option.some.inj (hcur.symm.trans (hd.current l hl hlopen))
  have hx : (w.delivered k).sockets k = { w.sockets k with closeDelivered := true } :=
    Function.update_self ..
  have hlopen' : ((w.delivered k).sockets k).closeDelivered = false := hlopen
  rw [hx] at hlopen'
  cases hlopen'

theorem single_close (h : Single w) : Single w.close := by
  rw [close]
  generalize hc : clearTimer { w with stopped := true } = c
  have harmed : c.armed = [] := hc ▸ clearTimer_armed h.armed
  have htimer : c.timer = none := hc ▸ clearTimer_timer
  have hsockets : c.sockets = w.sockets := hc ▸ clearTimer_sockets
  have hsocket : c.socket = w.socket := hc ▸ clearTimer_socket
  have hpending : c.armed = c.timer.toList := by
    rw [harmed, htimer, Option.toList_none]
  dsimp only
  split
  · rename_i k hk
    have hx : Single (w.setSocket k (w.sockets k).detach.close) := by
      refine h.setSocket (fun hh ↦ ?_) fun hd ↦ ?_
      · rw [Socket.close] at hh
        split at hh <;> cases hh
      · rw [Socket.close] at hd ⊢
        split at hd
        · rename_i hlt
          have hclosed : (w.sockets k).readyState = .closed := h.delivered k hd
          simp [Socket.detach, hclosed, ReadyState.number] at hlt
        · rename_i hlt
          rw [if_neg hlt]
          exact h.delivered k hd
    refine ⟨hpending, fun l hl hopen ↦ ?_, fun l hl ↦ ?_, .inl rfl, fun _ ↦ ⟨rfl, htimer⟩⟩
    · have hsame : Function.update c.sockets k (c.sockets k).detach.close =
          (w.setSocket k (w.sockets k).detach.close).sockets := by
        rw [hsockets]
        rfl
      have hl' : (Function.update c.sockets k (c.sockets k).detach.close l).handled = true := hl
      have hopen' : (Function.update c.sockets k (c.sockets k).detach.close l).closeDelivered =
        false := hopen
      have hcur := hx.current l (hsame ▸ hl') (hsame ▸ hopen')
      obtain rfl := Option.some.inj ((hsocket.symm.trans hk).symm.trans hcur)
      rw [Function.update_self, Socket.close] at hl'
      split at hl' <;> cases hl'
    · have hsame : Function.update c.sockets k (c.sockets k).detach.close =
          (w.setSocket k (w.sockets k).detach.close).sockets := by
        rw [hsockets]
        rfl
      have hl' : (Function.update c.sockets k (c.sockets k).detach.close l).closeDelivered =
        true := hl
      show (Function.update c.sockets k (c.sockets k).detach.close l).readyState = .closed
      rw [hsame] at hl' ⊢
      exact hx.delivered l hl'
  · rename_i hk
    exact ⟨hpending, fun l hl hopen ↦ hsocket ▸ h.current l (hsockets ▸ hl) (hsockets ▸ hopen),
      fun l hl ↦ hsockets ▸ h.delivered l (hsockets ▸ hl), .inl hk, fun _ ↦ ⟨hk, htimer⟩⟩

/-- A timer that fires was the only one, and there was no socket. -/
theorem single_fired (h : Single w) {t : ℕ} (ht : t ∈ w.armed) :
    Single { w with armed := w.armed.filter (· ≠ t), timer := none } ∧ w.socket = none := by
  rw [h.armed, Option.mem_toList] at ht
  refine ⟨h.untimed ?_ rfl rfl rfl rfl, ?_⟩
  · show w.armed.filter (· ≠ t) = []
    rw [h.armed, ht]
    simp
  · refine h.apart.resolve_right fun hnone ↦ ?_
    rw [hnone] at ht
    cases ht

theorem single_resume (h : Single w) {made : Bool} (hg : Guarded w (.resume made)) :
    Single (w.resume made) := by
  rw [resume]
  split
  · exact h
  split
  · exact h
  split
  · exact h
  · rename_i hopen hconnecting
    have hnone : w.socket = none := by
      rcases hs : w.socket with _ | k
      · rfl
      · exfalso
        have hready : w.readyState = some (w.sockets k).readyState := by rw [readyState, hs]; rfl
        rw [Guarded, hready] at hg
        rw [hready] at hopen hconnecting
        rcases hr : (w.sockets k).readyState with _ | _ | _ | _
        · exact hconnecting (congrArg some hr)
        · exact hopen (congrArg some hr)
        · exact hg.1 (congrArg some hr)
        · exact hg.2 (congrArg some hr)
    have hc : Single { w.clearTimer with attempt := 0 } :=
      (single_clearTimer h).congr ⟨rfl, rfl, rfl, rfl, rfl⟩
    exact single_openSocket hc (clearTimer_socket.trans hnone) fun _ ↦ clearTimer_timer

/-- **A guarded step keeps the invariant.** -/
theorem single_step (h : Single w) (hg : Guarded w a) (he : Effect w a w') : Single w' := by
  cases he with
  | connect made =>
    have hs : Single { w with stopped := false } :=
      ⟨h.armed, h.current, h.delivered, h.apart, fun hs ↦ (nomatch hs)⟩
    exact single_openSocket hs hg.1 hg.2
  | close => exact single_close h
  | resume made => exact single_resume h hg
  | @fire t made ht =>
    obtain ⟨hs, hnone⟩ := single_fired h ht
    exact single_openSocket hs hnone fun _ ↦ rfl
  | @becomes k r hk hr =>
    refine h.setSocket (fun hh hd ↦ ⟨hh, hd⟩) fun hd ↦ ?_
    -- a closed socket goes nowhere
    rw [h.delivered k hd] at hr
    cases r <;> simp [ReadyState.number] at hr
  | opened => exact h.congr keeps_onopen
  | message => exact h.congr (keeps_onmessage _)
  | @closed k hr hk hh => exact single_scheduleReconnect (single_released h hh hk hr) rfl
  | unheard hr => exact single_delivered h hr
  | ignored => exact h

end steps

/-! ## The calls -/

/-- `connect` and `close`. -/
def Act.isCall : Act φ → Bool
  | .connect _ | .close => true
  | _ => false

/-- The last of the calls of `connect` and `close`. -/
def lastCall (tr : List (Step (Tab φ) (Act φ))) : Option (Act φ) :=
  (tr.map (·.act)).find? Act.isCall

/-- What the last call says of the stream. -/
structure Called (tr : List (Step (Tab φ) (Act φ))) (w : Tab φ) : Prop where
  connected : ∀ made, lastCall tr = some (.connect made) →
    w.stopped = false ∧ (w.socket ≠ none ∨ w.timer ≠ none)
  closed : lastCall tr = some .close → w.stopped = true

section calls

variable {tr : List (Step (Tab φ) (Act φ))} {w w' : Tab φ} {a : Act φ}

theorem Keeps.live (hk : Keeps w w') : w'.stopped = w.stopped ∧ (w.stopped = false →
    w.socket ≠ none ∨ w.timer ≠ none → w'.socket ≠ none ∨ w'.timer ≠ none) :=
  ⟨hk.stopped, fun _ hlive ↦ by rwa [hk.socket, hk.timer]⟩

/-- A step that is no call leaves a running stream running, with a socket or a timer. -/
theorem live_step (he : Effect w a w') (ha : a.isCall = false) :
    w'.stopped = w.stopped ∧ (w.stopped = false → w.socket ≠ none ∨ w.timer ≠ none →
      w'.socket ≠ none ∨ w'.timer ≠ none) := by
  cases he with
  | connect | close => cases ha
  | resume made =>
    rw [resume]
    split
    · exact ⟨rfl, fun _ ↦ id⟩
    split
    · exact ⟨rfl, fun _ ↦ id⟩
    split
    · exact ⟨rfl, fun _ ↦ id⟩
    · exact ⟨(openSocket_stopped made).trans clearTimer_stopped,
        fun hs _ ↦ openSocket_live made (clearTimer_stopped.trans hs)⟩
  | @fire t made ht => exact ⟨openSocket_stopped made, fun hs _ ↦ openSocket_live made hs⟩
  | becomes | unheard | ignored => exact ⟨rfl, fun _ ↦ id⟩
  | opened => exact keeps_onopen.live
  | message => exact (keeps_onmessage _).live
  | closed => exact ⟨scheduleReconnect_stopped, fun hs _ ↦ .inr (scheduleReconnect_pending hs)⟩

theorem close_stopped : w.close.stopped = true := by
  rw [close]
  dsimp only
  split <;> exact clearTimer_stopped

theorem called_step (hc : Called tr w) (he : Effect w a w') : Called (⟨w, a, w'⟩ :: tr) w' := by
  by_cases ha : a.isCall = true
  · have hlast : lastCall (⟨w, a, w'⟩ :: tr) = some a := by
      simp [lastCall, ha]
    refine ⟨fun made hm ↦ ?_, fun hm ↦ ?_⟩
    · obtain rfl := Option.some.inj (hlast.symm.trans hm)
      cases he with
      | connect => exact ⟨openSocket_stopped made, openSocket_live made rfl⟩
      | ignored hi => simp at hi
    · obtain rfl := Option.some.inj (hlast.symm.trans hm)
      cases he with
      | close => exact close_stopped
      | ignored hi => simp at hi
  · have hlast : lastCall (⟨w, a, w'⟩ :: tr) = lastCall tr := by
      simp [lastCall, ha]
    obtain ⟨hstopped, hlive⟩ := live_step he (eq_false_of_ne_true ha)
    refine ⟨fun made hm ↦ ?_, fun hm ↦ hstopped.trans (hc.closed (hlast ▸ hm))⟩
    obtain ⟨hrunning, h⟩ := hc.connected made (hlast ▸ hm)
    exact ⟨hstopped.trans hrunning, hlive hrunning h⟩

/-- A stopped stream does nothing until it is connected. -/
theorem quiet_step (h : Single w) (hs : w.stopped = true) (he : Effect w a w')
    (ha : ∀ made, a ≠ .connect made) :
    w'.armed = [] ∧ w'.frames = w.frames ∧ w'.created = w.created := by
  obtain ⟨hsocket, htimer⟩ := h.stopped hs
  have harmed : w.armed = [] := by rw [h.armed, htimer, Option.toList_none]
  have hunheard {k : ℕ} (hh : (w.sockets k).handled = true)
      (hk : (w.sockets k).closeDelivered = false) : False := by
    have hcur := h.current k hh hk
    rw [hsocket] at hcur
    cases hcur
  cases he with
  | connect made => exact absurd rfl (ha made)
  | close =>
    rw [close]
    dsimp only
    split
    · exact ⟨clearTimer_armed h.armed, clearTimer_frames, clearTimer_created⟩
    · exact ⟨clearTimer_armed h.armed, clearTimer_frames, clearTimer_created⟩
  | resume made =>
    rw [resume, if_pos hs]
    exact ⟨harmed, rfl, rfl⟩
  | fire ht =>
    rw [harmed] at ht
    cases ht
  | becomes | unheard | ignored => exact ⟨harmed, rfl, rfl⟩
  | opened hk hh | message hk hh => exact (hunheard hh hk).elim
  | closed _ hk hh => exact (hunheard hh hk).elim

/-- The close event of a socket that is not the current one is noticed by nobody. -/
theorem other_closed (h : Single w) {k : ℕ} (he : Effect w (.closed k) w')
    (hk : w.socket ≠ some k) : w' = w.delivered k := by
  cases he with
  | closed _ hopen hh => exact absurd (h.current k hh hopen) hk
  | unheard => rfl
  | ignored hi => simp at hi

end calls

/-! ## Runs -/

section run

variable {tr : List (Step (Tab φ) (Act φ))} {w : Tab φ}

theorem single_of_run (hr : (tab φ).Run tr w) (hg : ∀ x ∈ tr, Guarded x.pre x.act) :
    Single w ∧ Called tr w := by
  refine hr.trace_invariant_of (C := Guarded) (I := fun tr w ↦ Single w ∧ Called tr w) hg ?_ ?_
  · rintro _ ⟨topics, rfl⟩
    exact ⟨⟨rfl, fun _ hh ↦ (nomatch hh), fun _ hd ↦ (nomatch hd), .inl rfl, fun _ ↦ ⟨rfl, rfl⟩⟩,
      ⟨fun _ hm ↦ (nomatch hm), fun hm ↦ (nomatch hm)⟩⟩
  · intro tr w a w' _ hi hg hn
    have he := effect_of_perform hn
    exact ⟨single_step hi.1 hg he, called_step hi.2 he⟩

/-- **One live socket.**  In a run whose calls of `connect` and `resume` are guarded, a socket that
is not closed and has the handlers is the current one; the close event of any other changes
nothing; after a `connect` and until the next `close` there is a current socket or a timer, not
both, and one timer at most; and after a `close` no timer is pending, and until the next `connect`
no step sets one, delivers a frame or opens a socket. -/
theorem one_live_socket (hr : (tab φ).Run tr w) (hg : ∀ x ∈ tr, Guarded x.pre x.act) :
    (∀ k, (w.sockets k).handled = true → (w.sockets k).readyState ≠ .closed →
      w.socket = some k) ∧
    (∀ k w', w.perform (.closed k) = some w' → w.socket ≠ some k → w' = w.delivered k) ∧
    ((∃ made, lastCall tr = some (.connect made)) →
      Xor (w.socket ≠ none) (w.armed ≠ []) ∧ w.armed.length ≤ 1) ∧
    (lastCall tr = some .close → w.armed = [] ∧
      ∀ a w', w.perform a = some w' → (∀ made, a ≠ .connect made) →
        w'.armed = [] ∧ w'.frames = w.frames ∧ w'.created = w.created) := by
  obtain ⟨h, hc⟩ := single_of_run hr hg
  refine ⟨fun k hh hk ↦ h.current k hh ?_, fun k w' hp hk ↦
    other_closed h (effect_of_perform hp) hk, ?_, fun hl ↦ ?_⟩
  · exact eq_false_of_ne_true fun hd ↦ hk (h.delivered k hd)
  · rintro ⟨made, hl⟩
    have hlive := (hc.connected made hl).2
    rw [h.armed]
    rcases ht : w.timer with _ | t
    · exact ⟨.inl ⟨hlive.resolve_right (absurd ht), by simp⟩, Nat.zero_le 1⟩
    · have hnone := h.apart.resolve_right (by simp [ht])
      exact ⟨.inr ⟨by simp, not_not_intro hnone⟩, le_rfl⟩
  · have hs := hc.closed hl
    refine ⟨?_, fun a w' hp ha ↦ quiet_step h hs (effect_of_perform hp) ha⟩
    rw [h.armed, (h.stopped hs).2, Option.toList_none]

end run

/-! ## Two runs -/

/-- The state after a step that can happen. -/
def Tab.take (w : Tab φ) (a : Act φ) : Tab φ := (w.perform a).getD w

/-- The step can happen. -/
def Tab.Can (w : Tab φ) (a : Act φ) : Prop := (w.perform a).isSome

instance (w : Tab φ) (a : Act φ) : Decidable (w.Can a) :=
  inferInstanceAs (Decidable ((w.perform a).isSome = true))

/-- A page just loaded. -/
def loaded : Tab Unit := { topics := ["tracks"] }

theorem run_replay (acts : List (Act Unit)) (h : Admits Tab.take Tab.Can loaded acts) :
    (tab Unit).Run (replaySteps Tab.take loaded acts []) (replay Tab.take loaded acts) := by
  refine Run.replay (M := tab Unit) (fun w a hcan ↦ ?_) acts (.init ⟨["tracks"], rfl⟩) h
  obtain ⟨w', hw'⟩ := Option.isSome_iff_exists.mp hcan
  show w.perform a = some (w.take a)
  rw [Tab.take, hw', Option.getD_some]

/-- A socket opens and closes, and its close event comes before the page is resumed. -/
def resumedAfter : List (Act Unit) :=
  [.connect true, .becomes 0 .open, .opened 0, .message 0 (.frame ()), .becomes 0 .closed,
    .closed 0, .resume true]

theorem one_live_socket_resumedAfter :
    (replay Tab.take loaded resumedAfter).frames = [()] ∧
    Xor ((replay Tab.take loaded resumedAfter).socket ≠ none)
      ((replay Tab.take loaded resumedAfter).armed ≠ []) := by
  refine ⟨rfl, ((one_live_socket (run_replay resumedAfter (by decide)) ?_).2.2.1
    ⟨true, by decide⟩).1⟩
  intro x hx
  revert x
  decide

/-- A socket opens and closes, and the page is resumed before its close event. -/
def resumedBefore : List (Act Unit) :=
  [.connect true, .becomes 0 .open, .opened 0, .becomes 0 .closed, .resume true, .becomes 1 .open,
    .opened 1, .closed 0]

/-- **The second socket is orphaned.**  It is open and has the handlers, and is not the current
one: the close event of the first has let it go, and set a timer for a third. -/
theorem resume_orphans :
    ¬∀ (tr : List (Step (Tab Unit) (Act Unit))) (w : Tab Unit), (tab Unit).Run tr w →
      (∀ k, (w.sockets k).handled = true → (w.sockets k).readyState ≠ .closed →
        w.socket = some k) := by
  intro h
  have hcur := h _ _ (run_replay resumedBefore (by decide)) 1 (by decide) (by decide)
  revert hcur
  decide

end ClassG.Ui
