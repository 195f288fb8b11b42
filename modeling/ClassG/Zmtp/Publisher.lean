import ClassG.Machine
import ClassG.Zmtp.Frame
import Mathlib.Logic.Function.Basic

/-!
# The publisher

The PUB socket of `sensor-sdr/src/zmtp.rs`: a bounded `Outbox` in front, `hub_loop` that takes
messages off it and delivers them to the peers that want them, and for each peer a
`subscription_loop` that reads what it wants.

The threads share the queue, the registry of peers, and of each peer its subscriptions, its
connection and whether it is alive.  So the publisher is a machine whose calls are the points at
which one of them touches these; the calls of different threads come in any order.  What a peer
sends, whether a write gets through, when a connection ends and when the hub's thread ends are up to
the environment.

* `Publisher.perform` is what a call does, and `none` where its thread is at another point.
* `Publisher.effect_of_perform` lists what a call can do.
-/

set_option autoImplicit false

namespace ClassG.Zmtp

/-! ## Messages -/

/-- `Message`, of the bus: a topic frame and a body frame. -/
structure BusMessage where
  topic : List Byte
  body : List Byte
  deriving DecidableEq

/-- What `deliver` writes: one buffer. -/
def BusMessage.buffer (m : BusMessage) : List Byte :=
  encodeFrame m.topic flagMore ++ encodeFrame m.body 0

/-- `encode_command`. -/
def encodeCommand (name properties : List Byte) : List Byte :=
  encodeFrame (Fin.ofNat 256 name.length :: name ++ properties) flagCommand

/-- What `subscription_loop` answers to a `PING`. -/
def pong : List Byte := encodeCommand [0x50, 0x4F, 0x4E, 0x47] []

/-- `b"\x04PING"`. -/
def ping : List Byte := [0x04, 0x50, 0x49, 0x4E, 0x47]

/-! ## Peers -/

/-- `Peer`.  One that is not registered yet is neither alive nor read from. -/
structure Peer where
  subscriptions : List (List Byte) := []
  alive : Bool := false
  /-- `subscription_loop` is running. -/
  reading : Bool := false
  /-- The buffers that were written to its connection as a whole. -/
  out : List (List Byte) := []
  deriving DecidableEq

namespace Peer

/-- `subscribed`. -/
def subscribed (p : Peer) (topic : List Byte) : Bool :=
  p.subscriptions.any fun s ↦ s.isPrefixOf topic

/-- `kill`. -/
def kill (p : Peer) : Peer := { p with alive := false }

/-- `deliver`, and whether the write gets through. -/
def deliver (p : Peer) (m : BusMessage) (ok : Bool) : Peer :=
  if ok then { p with out := p.out ++ [m.buffer] } else p.kill

/-- The end of `subscription_loop`. -/
def leave (p : Peer) : Peer := { p.kill with reading := false }

/-- The body of `subscription_loop`, with the frames of a message, and whether the answer to a
`PING` gets through. -/
def hear (p : Peer) (frames : List Frame) (ok : Bool) : Peer :=
  match frames with
  | [⟨true, body⟩] =>
    if ping.isPrefixOf body then
      if ok then { p with out := p.out ++ [pong] } else p.leave
    else p
  | [⟨false, 1 :: topic⟩] =>
    if topic ∈ p.subscriptions then p
    else { p with subscriptions := p.subscriptions ++ [topic] }
  | [⟨false, 0 :: topic⟩] => { p with subscriptions := p.subscriptions.filter (· ≠ topic) }
  | _ => p

end Peer

/-! ## The state -/

/-- Where `hub_loop` is. -/
inductive Hub
  /-- In `recv`. -/
  | receiving
  /-- It has a message, and has not looked at the registry yet. -/
  | received (m : BusMessage)
  /-- In the loop over the targets, with those still to come. -/
  | delivering (m : BusMessage) (targets : List ℕ)
  /-- `subscribed` has returned true for this peer. -/
  | writing (m : BusMessage) (p : ℕ) (targets : List ℕ)
  deriving DecidableEq

namespace Hub

/-- The message that was taken and not yet handed to the peers. -/
def taken : Hub → List BusMessage
  | received m => [m]
  | _ => []

/-- The targets still to come. -/
def targets : Hub → List ℕ
  | delivering _ ts => ts
  | writing _ _ ts => ts
  | _ => []

/-- What is about to be written, and to whom. -/
def offer : Hub → Option (ℕ × BusMessage)
  | writing m p _ => some (p, m)
  | _ => none

/-- The message that the peer is still to be asked about. -/
def pending (p : ℕ) : Hub → List BusMessage
  | delivering m ts => if p ∈ ts then [m] else []
  | writing m _ ts => if p ∈ ts then [m] else []
  | _ => []

end Hub

/-- `PubSocket`, with the threads that serve it. -/
structure Publisher where
  /-- What is in the channel. -/
  queue : List BusMessage := []
  published : UInt64 := 0
  dropped : UInt64 := 0
  /-- The registry. -/
  peers : List ℕ := []
  peer : ℕ → Peer := fun _ ↦ {}
  /-- How many peers were ever registered. -/
  registered : ℕ := 0
  hub : Hub := .receiving
  /-- The hub's thread has not ended, so the receiver is there. -/
  running : Bool := true

inductive Act
  /-- `send`. -/
  | send (m : BusMessage)
  /-- `recv` returns. -/
  | recv
  /-- The hub drops the dead from the registry and takes a copy. -/
  | snapshot
  /-- It looks at the next target, or goes back to `recv` if there is none. -/
  | check
  /-- It writes, and the write gets through or not. -/
  | write (ok : Bool)
  /-- Its thread ends. -/
  | stop
  /-- `register`, after the handshake. -/
  | register
  /-- The peer's `read_message` returns these frames. -/
  | read (p : ℕ) (frames : List Frame) (ok : Bool)
  /-- The peer's `read_message` fails. -/
  | hangUp (p : ℕ)
  /-- `peers`, and `dial_loop`. -/
  | prune
  deriving DecidableEq

/-! ## What a call does -/

namespace Publisher

variable (hwm : ℕ) (s : Publisher)

/-- `try_send` succeeds. -/
def accepts : Bool := s.running ∧ s.queue.length < max hwm 1

/-- `send`. -/
def send (m : BusMessage) : Publisher :=
  if s.accepts hwm then { s with queue := s.queue ++ [m], published := s.published + 1 }
  else { s with dropped := s.dropped + 1 }

/-- The peer becomes `q`. -/
def setPeer (p : ℕ) (q : Peer) : Publisher := { s with peer := Function.update s.peer p q }

/-- `peers.retain(|p| p.alive())`. -/
def prune : Publisher := { s with peers := s.peers.filter fun p ↦ (s.peer p).alive }

/-- `register`. -/
def register : Publisher :=
  { s.prune.setPeer s.registered { alive := true, reading := true } with
    peers := s.prune.peers ++ [s.registered]
    registered := s.registered + 1 }

/-- What a call does. -/
def perform : Act → Option Publisher
  | .send m => some (s.send hwm m)
  | .recv =>
    match s.running, s.hub, s.queue with
    | true, .receiving, m :: queue => some { s with queue := queue, hub := .received m }
    | _, _, _ => none
  | .snapshot =>
    match s.running, s.hub with
    | true, .received m => some { s.prune with hub := .delivering m s.prune.peers }
    | _, _ => none
  | .check =>
    match s.running, s.hub with
    | true, .delivering m (p :: rest) =>
      if (s.peer p).subscribed m.topic then some { s with hub := .writing m p rest }
      else some { s with hub := .delivering m rest }
    | true, .delivering _ [] => some { s with hub := .receiving }
    | _, _ => none
  | .write ok =>
    match s.running, s.hub with
    | true, .writing m p rest =>
      some { s.setPeer p ((s.peer p).deliver m ok) with hub := .delivering m rest }
    | _, _ => none
  | .stop => some { s with running := false }
  | .register => some s.register
  | .read p frames ok =>
    if (s.peer p).reading then some (s.setPeer p ((s.peer p).hear frames ok)) else none
  | .hangUp p => if (s.peer p).reading then some (s.setPeer p (s.peer p).leave) else none
  | .prune => some s.prune

end Publisher

/-- The publisher as a machine: it starts with nobody connected and nothing sent. -/
def publisher (hwm : ℕ) : Machine Publisher Act where
  init s := s = {}
  next s a s' := s.perform hwm a = some s'

namespace Publisher

/-- What a call can do. -/
inductive Effect (hwm : ℕ) (s : Publisher) : Act → Publisher → Prop
  | accept {m : BusMessage} (h : s.accepts hwm = true) :
      Effect hwm s (.send m) { s with queue := s.queue ++ [m], published := s.published + 1 }
  | refuse {m : BusMessage} (h : s.accepts hwm = false) :
      Effect hwm s (.send m) { s with dropped := s.dropped + 1 }
  | recv {m : BusMessage} {queue : List BusMessage} (hhub : s.hub = .receiving)
      (hqueue : s.queue = m :: queue) :
      Effect hwm s .recv { s with queue := queue, hub := .received m }
  | snapshot {m : BusMessage} (hhub : s.hub = .received m) :
      Effect hwm s .snapshot { s.prune with hub := .delivering m s.prune.peers }
  /-- The next target wants the message. -/
  | offer {m : BusMessage} {p : ℕ} {rest : List ℕ} (hhub : s.hub = .delivering m (p :: rest))
      (h : (s.peer p).subscribed m.topic = true) :
      Effect hwm s .check { s with hub := .writing m p rest }
  /-- The next target does not. -/
  | skip {m : BusMessage} {p : ℕ} {rest : List ℕ} (hhub : s.hub = .delivering m (p :: rest))
      (h : (s.peer p).subscribed m.topic = false) :
      Effect hwm s .check { s with hub := .delivering m rest }
  /-- There is no next target. -/
  | done {m : BusMessage} (hhub : s.hub = .delivering m []) :
      Effect hwm s .check { s with hub := .receiving }
  | write {m : BusMessage} {p : ℕ} {rest : List ℕ} {ok : Bool} (hhub : s.hub = .writing m p rest) :
      Effect hwm s (.write ok)
        { s.setPeer p ((s.peer p).deliver m ok) with hub := .delivering m rest }
  | stop : Effect hwm s .stop { s with running := false }
  | register : Effect hwm s .register s.register
  | read {p : ℕ} {frames : List Frame} {ok : Bool} (h : (s.peer p).reading = true) :
      Effect hwm s (.read p frames ok) (s.setPeer p ((s.peer p).hear frames ok))
  | hangUp {p : ℕ} (h : (s.peer p).reading = true) :
      Effect hwm s (.hangUp p) (s.setPeer p (s.peer p).leave)
  | prune : Effect hwm s .prune s.prune

theorem effect_of_perform {hwm : ℕ} {s s' : Publisher} {a : Act}
    (h : s.perform hwm a = some s') : Effect hwm s a s' := by
  cases a with
  | send m =>
    rw [perform, Option.some_inj, send] at h
    split at h <;> rw [← h]
    · exact .accept ‹_›
    · exact .refuse (eq_false_of_ne_true ‹_›)
  | recv =>
    rw [perform] at h
    split at h <;> simp only [Option.some_inj, reduceCtorEq] at h
    rw [← h]
    exact .recv ‹_› ‹_›
  | snapshot =>
    rw [perform] at h
    split at h <;> simp only [Option.some_inj, reduceCtorEq] at h
    rw [← h]
    exact .snapshot ‹_›
  | check =>
    rw [perform] at h
    split at h
    · split at h <;> rw [← Option.some_inj.mp h]
      · exact .offer ‹_› ‹_›
      · exact .skip ‹_› (eq_false_of_ne_true ‹_›)
    · rw [← Option.some_inj.mp h]
      exact .done ‹_›
    · simp only [reduceCtorEq] at h
  | write ok =>
    rw [perform] at h
    split at h <;> simp only [Option.some_inj, reduceCtorEq] at h
    rw [← h]
    exact .write ‹_›
  | stop => exact Option.some_inj.mp h ▸ .stop
  | register => exact Option.some_inj.mp h ▸ .register
  | read p frames ok =>
    obtain ⟨hreading, hs⟩ := Option.ite_none_right_eq_some.mp h
    exact Option.some_inj.mp hs ▸ .read hreading
  | hangUp p =>
    obtain ⟨hreading, hs⟩ := Option.ite_none_right_eq_some.mp h
    exact Option.some_inj.mp hs ▸ .hangUp hreading
  | prune => exact Option.some_inj.mp h ▸ .prune

end Publisher

end ClassG.Zmtp
