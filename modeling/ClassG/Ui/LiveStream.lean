import Mathlib.Logic.Function.Basic
import ClassG.Machine

/-!
# The live stream of the console

The class `LiveStream` keeps one WebSocket open: it opens one on `connect`, another one a while
after the close event of the last, and one at once on `resume`.  What the browser does runs between
its methods, in any order: a socket's `readyState` goes forward, its events are delivered when the
page gets to run, which for a suspended page is long afterwards, and timers fire.

* `LiveStream` — the fields of the class.
* `Tab` — these, with what the browser has of it: sockets, timers, and what went in and out.
* `Tab.perform` — what a method, a timer or an event does.

The factory may throw at any call, and a timer fires at any time after it was set; how long
`delayFor` makes it wait is left out.
-/

set_option autoImplicit false

namespace ClassG.Ui

/-! ## Sockets -/

/-- `WebSocket.readyState`. -/
inductive ReadyState
  | connecting | open | closing | closed
  deriving DecidableEq, Repr

/-- The browser's number for it. -/
def ReadyState.number : ReadyState → ℕ
  | .connecting => 0
  | .open => 1
  | .closing => 2
  | .closed => 3

/-- A WebSocket. -/
structure Socket where
  readyState : ReadyState := .connecting
  /-- It has the handlers that `open` gives it. -/
  handled : Bool := false
  /-- Its close event was delivered. -/
  closeDelivered : Bool := false
  deriving DecidableEq, Repr

namespace Socket

/-- `WebSocket.close`. -/
def close (x : Socket) : Socket :=
  if x.readyState.number < ReadyState.closing.number then { x with readyState := .closing } else x

/-- `detach`. -/
def detach (x : Socket) : Socket := { x with handled := false }

end Socket

/-! ## The class -/

/-- `ConnectionState`. -/
inductive ConnectionState
  | connecting | open | reconnecting | closed
  deriving DecidableEq, Repr

/-- `ClientFrame`, as far as the class sends any. -/
inductive ClientFrame
  | subscribe (topics : List String)
  | pong
  deriving DecidableEq, Repr

/-- What a message event carries, with the frame that `JSON.parse` makes of it. -/
inductive Message (φ : Type)
  | binary | malformed | ping
  | frame (f : φ)
  deriving DecidableEq, Repr

/-- The fields of `LiveStream`. -/
structure LiveStream where
  topics : List String
  socket : Option ℕ := none
  timer : Option ℕ := none
  attempt : ℕ := 0
  everConnected : Bool := false
  stopped : Bool := false
  state : ConnectionState := .closed

/-- The stream in its page. -/
structure Tab (φ : Type) extends LiveStream where
  /-- How many sockets the factory has made. -/
  created : ℕ := 0
  sockets : ℕ → Socket := fun _ ↦ {}
  /-- How many timers were set. -/
  timers : ℕ := 0
  /-- Those that have neither fired nor been cleared. -/
  armed : List ℕ := []
  /-- What was sent, and on which socket. -/
  sent : List (ℕ × ClientFrame) := []
  /-- What the connect listeners were told. -/
  connects : List Bool := []
  /-- What the frame listeners were given. -/
  frames : List φ := []

variable {φ : Type}

namespace Tab

variable (w : Tab φ)

def setSocket (k : ℕ) (x : Socket) : Tab φ :=
  { w with sockets := Function.update w.sockets k x }

/-- `this.socket?.readyState`. -/
def readyState : Option ReadyState := w.socket.map fun k ↦ (w.sockets k).readyState

/-- `send`. -/
def send (f : ClientFrame) : Tab φ :=
  match w.socket with
  | some k => if (w.sockets k).readyState = .open then { w with sent := w.sent ++ [(k, f)] } else w
  | none => w

/-- `clearTimer`. -/
def clearTimer : Tab φ :=
  match w.timer with
  | some t => { w with armed := w.armed.filter (· ≠ t), timer := none }
  | none => w

/-- `setTimeout`, with the handle kept. -/
def setTimer : Tab φ :=
  { w with armed := w.armed ++ [w.timers], timer := some w.timers, timers := w.timers + 1 }

/-- `scheduleReconnect`. -/
def scheduleReconnect : Tab φ :=
  if w.stopped then w
  else
    let w := { w with attempt := w.attempt + 1, state := .reconnecting }
    w.clearTimer.setTimer

/-- `open`, where `made` says that the factory does not throw. -/
def openSocket (made : Bool) : Tab φ :=
  if w.stopped then w
  else
    let w := { w with state := if w.everConnected then .reconnecting else .connecting }
    if made then
      { w.setSocket w.created { handled := true } with
        created := w.created + 1
        socket := some w.created }
    else w.scheduleReconnect

/-- `connect`. -/
def connect (made : Bool) : Tab φ :=
  let w := { w with stopped := false }
  w.openSocket made

/-- `close`. -/
def close : Tab φ :=
  let w := { w with stopped := true }
  let w := w.clearTimer
  let w := match w.socket with
    | some k => { w.setSocket k (w.sockets k).detach.close with socket := none }
    | none => w
  { w with state := .closed }

/-- `resume`. -/
def resume (made : Bool) : Tab φ :=
  if w.stopped then w
  else if w.readyState = some .open then w
  else if w.readyState = some .connecting then w
  else
    let w := { w.clearTimer with attempt := 0 }
    w.openSocket made

/-- `onopen`. -/
def onopen : Tab φ :=
  let isReconnect := w.everConnected
  let w := { w with everConnected := true, attempt := 0, state := .open }
  let w := w.send (.subscribe w.topics)
  { w with connects := w.connects ++ [isReconnect] }

/-- `onmessage`. -/
def onmessage : Message φ → Tab φ
  | .binary | .malformed => w
  | .ping => w.send .pong
  | .frame f => { w with frames := w.frames ++ [f] }

/-- `onclose`. -/
def onclose : Tab φ :=
  let w := { w with socket := none }
  w.scheduleReconnect

/-- The callback of the timer. -/
def onTimer (made : Bool) : Tab φ :=
  let w := { w with timer := none }
  w.openSocket made

end Tab

/-! ## The page -/

inductive Act (φ : Type)
  | connect (made : Bool)
  | close
  | resume (made : Bool)
  /-- A timer fires. -/
  | fire (t : ℕ) (made : Bool)
  /-- A socket's `readyState` goes forward. -/
  | becomes (k : ℕ) (r : ReadyState)
  /-- Events of a socket. -/
  | opened (k : ℕ)
  | message (k : ℕ) (m : Message φ)
  | errored (k : ℕ)
  | closed (k : ℕ)
  deriving DecidableEq, Repr

namespace Tab

variable (w : Tab φ)

/-- The close event of the socket is delivered. -/
def delivered (k : ℕ) : Tab φ := w.setSocket k { w.sockets k with closeDelivered := true }

/-- What a step does, and `none` where it cannot happen. -/
def perform : Act φ → Option (Tab φ)
  | .connect made => some (w.connect made)
  | .close => some w.close
  | .resume made => some (w.resume made)
  | .fire t made =>
    if t ∈ w.armed then
      let w := { w with armed := w.armed.filter (· ≠ t) }
      some (w.onTimer made)
    else none
  | .becomes k r =>
    if k < w.created ∧ (w.sockets k).readyState.number < r.number then
      some (w.setSocket k { w.sockets k with readyState := r })
    else none
  | .opened k =>
    if (w.sockets k).readyState ≠ .connecting ∧ (w.sockets k).closeDelivered = false then
      some (if (w.sockets k).handled then w.onopen else w)
    else none
  | .message k m =>
    if (w.sockets k).readyState ≠ .connecting ∧ (w.sockets k).closeDelivered = false then
      some (if (w.sockets k).handled then w.onmessage m else w)
    else none
  | .errored k => if (w.sockets k).closeDelivered = false then some w else none
  | .closed k =>
    if (w.sockets k).readyState = .closed ∧ (w.sockets k).closeDelivered = false then
      some (if (w.sockets k).handled then (w.delivered k).onclose else w.delivered k)
    else none

end Tab

/-- The page as a machine: it starts with a stream just made. -/
def tab (φ : Type) : Machine (Tab φ) (Act φ) where
  init w := ∃ topics, w = { topics := topics }
  next w a w' := w.perform a = some w'

namespace Tab

/-- What a step can do. -/
inductive Effect (w : Tab φ) : Act φ → Tab φ → Prop
  | connect (made : Bool) : Effect w (.connect made) (w.connect made)
  | close : Effect w .close w.close
  | resume (made : Bool) : Effect w (.resume made) (w.resume made)
  | fire {t : ℕ} {made : Bool} (ht : t ∈ w.armed) :
      Effect w (.fire t made)
        (onTimer { w with armed := w.armed.filter (· ≠ t) } made)
  | becomes {k : ℕ} {r : ReadyState} (hk : k < w.created)
      (hr : (w.sockets k).readyState.number < r.number) :
      Effect w (.becomes k r) (w.setSocket k { w.sockets k with readyState := r })
  | opened {k : ℕ} (hk : (w.sockets k).closeDelivered = false)
      (hh : (w.sockets k).handled = true) : Effect w (.opened k) w.onopen
  | message {k : ℕ} {m : Message φ} (hk : (w.sockets k).closeDelivered = false)
      (hh : (w.sockets k).handled = true) : Effect w (.message k m) (w.onmessage m)
  | closed {k : ℕ} (hr : (w.sockets k).readyState = .closed)
      (hk : (w.sockets k).closeDelivered = false) (hh : (w.sockets k).handled = true) :
      Effect w (.closed k) (w.delivered k).onclose
  /-- The close event of a socket without handlers. -/
  | unheard {k : ℕ} (hr : (w.sockets k).readyState = .closed)
      (hh : (w.sockets k).handled = false) : Effect w (.closed k) (w.delivered k)
  /-- Another event without a handler, or with one that does nothing. -/
  | ignored {a : Act φ} (ha : (∃ k, a = .opened k) ∨ (∃ k m, a = .message k m) ∨
      ∃ k, a = .errored k) : Effect w a w

theorem effect_of_perform {w w' : Tab φ} {a : Act φ} (hp : w.perform a = some w') :
    Effect w a w' := by
  rcases a with made | _ | made | ⟨t, made⟩ | ⟨k, r⟩ | k | ⟨k, m⟩ | k | k
  · rw [← Option.some.inj hp]
    exact .connect made
  · rw [← Option.some.inj hp]
    exact .close
  · rw [← Option.some.inj hp]
    exact .resume made
  · rw [perform] at hp
    split at hp
    · rename_i ht
      rw [← Option.some.inj hp]
      exact .fire ht
    · cases hp
  · rw [perform] at hp
    split at hp
    · rename_i h
      rw [← Option.some.inj hp]
      exact .becomes h.1 h.2
    · cases hp
  · rw [perform] at hp
    split at hp
    · rename_i h
      rw [← Option.some.inj hp]
      split
      · rename_i hh
        exact .opened h.2 hh
      · exact .ignored (.inl ⟨k, rfl⟩)
    · cases hp
  · rw [perform] at hp
    split at hp
    · rename_i h
      rw [← Option.some.inj hp]
      split
      · rename_i hh
        exact .message h.2 hh
      · exact .ignored (.inr (.inl ⟨k, m, rfl⟩))
    · cases hp
  · rw [perform] at hp
    split at hp
    · rw [← Option.some.inj hp]
      exact .ignored (.inr (.inr ⟨k, rfl⟩))
    · cases hp
  · rw [perform] at hp
    split at hp
    · rename_i h
      rw [← Option.some.inj hp]
      split
      · rename_i hh
        exact .closed h.1 h.2 hh
      · rename_i hh
        exact .unheard h.1 (eq_false_of_ne_true hh)
    · cases hp

end Tab

end ClassG.Ui
