import Mathlib.Data.List.Perm.Basic
import Mathlib.Logic.Function.Basic
import ClassG.ForGo.Time
import ClassG.Machine

/-!
# The hub

Package `hub` fans frames out to the clients of the stream.  `Register`, `Unregister` and
`Broadcast` share the set of clients; `Broadcast` copies it, offers the frame to each client of the
copy without ever waiting, and unregisters the slow ones afterwards.  The critical sections and the
sends are the steps here, and those of different goroutines come in any order: what a client does
with its queue and with its topics, and calls of `Unregister`, may come between any two steps of a
`Broadcast`.  Broadcasts do not overlap.

* `Hub.perform` is what a step does, and `none` where its goroutine is at another point.
* `Hub.effect_of_perform` lists what a step can do.
-/

set_option autoImplicit false

namespace ClassG.Broadcasting

/-! ## Frames and topics -/

/-- The types of frames. -/
inductive FrameType
  | trackUpdate | trackClosed | detection | health | captureStatus | sweepStatus | monitoring
  | ping | pong
  deriving DecidableEq, Repr

/-- `TopicFor`. -/
def topicFor : FrameType → String
  | .trackUpdate | .trackClosed => "tracks"
  | .detection => "detections"
  | .health => "health"
  | .captureStatus => "captures"
  | .sweepStatus => "spectrum"
  | .monitoring => "health"
  | .ping | .pong => ""

/-- `Frame`, with the document it carries. -/
structure Frame (π : Type) where
  type : FrameType
  ts : GoTime
  payload : π
  deriving DecidableEq

variable {π ι : Type}

/-- A frame without a time gets the time of the call. -/
def Frame.stamped (f : Frame π) (now : GoTime) : Frame π :=
  if f.ts = 0 then { f with ts := now } else f

/-! ## Clients -/

/-- `clientBuffer`. -/
def clientBuffer : ℕ := 64

/-- `Client`. -/
structure Client (π : Type) where
  /-- What is in its queue. -/
  frames : List (Frame π) := []
  topics : List String := []
  closed : Bool := false
  /-- How often `Dropped` was closed. -/
  drops : ℕ := 0
  deriving DecidableEq

namespace Client

/-- `wants`. -/
def wants (c : Client π) (type : FrameType) : Bool :=
  if type = .ping then true
  else if topicFor type = "" then false
  else topicFor type ∈ c.topics

/-- `close`. -/
def close (c : Client π) : Client π :=
  if c.closed then c else { c with closed := true, drops := c.drops + 1 }

end Client

/-! ## The hub and its goroutines -/

/-- Where `Broadcast` is. -/
inductive Broadcast (π : Type)
  | idle
  /-- In the loop over the targets, with those still to come, and the slow ones so far. -/
  | delivering (f : Frame π) (targets slow : List ℕ)
  /-- `wants` has returned true for this client. -/
  | sending (f : Frame π) (c : ℕ) (targets slow : List ℕ)
  /-- In the loop over the slow ones. -/
  | dropping (slow : List ℕ)
  /-- `Unregister` has deleted this client. -/
  | closing (c : ℕ) (slow : List ℕ)
  deriving DecidableEq

/-- `Hub`, with the clients there ever were and the calls that are under way.  The goroutines that
call `Unregister` are of type `ι`. -/
structure Hub (ι π : Type) where
  /-- The set of clients. -/
  clients : List ℕ := []
  client : ℕ → Client π := fun _ ↦ {}
  /-- How many clients were ever registered. -/
  registered : ℕ := 0
  broadcast : Broadcast π := .idle
  /-- The client that the goroutine's `Unregister` has deleted and not closed yet. -/
  unregistering : ι → Option ℕ := fun _ ↦ none

inductive Act (ι π : Type)
  | register (topics : List String)
  | setTopics (c : ℕ) (topics : List String)
  /-- The client's next frame is received. -/
  | receive (c : ℕ)
  /-- `Unregister`, up to the end of its critical section. -/
  | unregister (i : ι) (c : ℕ)
  /-- The rest of it. -/
  | close (i : ι)
  /-- `Broadcast` copies the set of clients, in some order. -/
  | begin (f : Frame π) (now : GoTime) (targets : List ℕ)
  /-- The next target is asked whether it wants the frame. -/
  | ask
  | send
  /-- `Unregister` of the next slow client, up to the end of its critical section. -/
  | drop
  | closeDropped

namespace Hub

variable [DecidableEq ι] (h : Hub ι π)

/-- The client becomes `x`. -/
def setClient (c : ℕ) (x : Client π) : Hub ι π :=
  { h with client := Function.update h.client c x }

/-- `Register`. -/
def register (topics : List String) : Hub ι π :=
  { h.setClient h.registered { topics := topics } with
    clients := h.clients ++ [h.registered]
    registered := h.registered + 1 }

/-- `delete(h.clients, c)`. -/
def remove (c : ℕ) : Hub ι π := { h with clients := h.clients.filter (· ≠ c) }

/-- The `select` of `Broadcast`. -/
def offer (f : Frame π) (c : ℕ) (targets slow : List ℕ) : Hub ι π :=
  if (h.client c).frames.length < clientBuffer then
    { h.setClient c { h.client c with frames := (h.client c).frames ++ [f] } with
      broadcast := .delivering f targets slow }
  else { h with broadcast := .delivering f targets (slow ++ [c]) }

/-- What a step does. -/
def perform : Act ι π → Option (Hub ι π)
  | .register topics => some (h.register topics)
  | .setTopics c topics =>
    if c < h.registered then some (h.setClient c { h.client c with topics := topics }) else none
  | .receive c =>
    match (h.client c).frames with
    | [] => none
    | _ :: rest => some (h.setClient c { h.client c with frames := rest })
  | .unregister i c =>
    match h.unregistering i with
    | some _ => none
    | none =>
      if c ∈ h.clients then
        some { h.remove c with unregistering := Function.update h.unregistering i (some c) }
      else some h
  | .close i =>
    match h.unregistering i with
    | none => none
    | some c =>
      some { h.setClient c (h.client c).close with
        unregistering := Function.update h.unregistering i none }
  | .begin f now targets =>
    match h.broadcast with
    | .idle =>
      if targets.Perm h.clients then
        some { h with broadcast := .delivering (f.stamped now) targets [] }
      else none
    | _ => none
  | .ask =>
    match h.broadcast with
    | .delivering f (c :: targets) slow =>
      if (h.client c).wants f.type then some { h with broadcast := .sending f c targets slow }
      else some { h with broadcast := .delivering f targets slow }
    | .delivering _ [] slow => some { h with broadcast := .dropping slow }
    | _ => none
  | .send =>
    match h.broadcast with
    | .sending f c targets slow => some (h.offer f c targets slow)
    | _ => none
  | .drop =>
    match h.broadcast with
    | .dropping (c :: slow) =>
      if c ∈ h.clients then some { h.remove c with broadcast := .closing c slow }
      else some { h with broadcast := .dropping slow }
    | .dropping [] => some { h with broadcast := .idle }
    | _ => none
  | .closeDropped =>
    match h.broadcast with
    | .closing c slow =>
      some { h.setClient c (h.client c).close with broadcast := .dropping slow }
    | _ => none

end Hub

/-- The hub as a machine: it starts without clients. -/
def hub (ι π : Type) [DecidableEq ι] : Machine (Hub ι π) (Act ι π) where
  init h := h = {}
  next h a h' := h.perform a = some h'

namespace Hub

variable [DecidableEq ι]

/-- What a step can do. -/
inductive Effect (h : Hub ι π) : Act ι π → Hub ι π → Prop
  | register {topics : List String} : Effect h (.register topics) (h.register topics)
  | setTopics {c : ℕ} {topics : List String} (hc : c < h.registered) :
      Effect h (.setTopics c topics) (h.setClient c { h.client c with topics := topics })
  | receive {c : ℕ} {f : Frame π} {rest : List (Frame π)} (hf : (h.client c).frames = f :: rest) :
      Effect h (.receive c) (h.setClient c { h.client c with frames := rest })
  | unregister {i : ι} {c : ℕ} (hi : h.unregistering i = none) (hc : c ∈ h.clients) :
      Effect h (.unregister i c)
        { h.remove c with unregistering := Function.update h.unregistering i (some c) }
  /-- The client was not in the set any more. -/
  | unknown {i : ι} {c : ℕ} (hc : c ∉ h.clients) : Effect h (.unregister i c) h
  | close {i : ι} {c : ℕ} (hi : h.unregistering i = some c) :
      Effect h (.close i)
        { h.setClient c (h.client c).close with
          unregistering := Function.update h.unregistering i none }
  | begin {f : Frame π} {now : GoTime} {targets : List ℕ} (hb : h.broadcast = .idle)
      (ht : targets.Perm h.clients) :
      Effect h (.begin f now targets)
        { h with broadcast := .delivering (f.stamped now) targets [] }
  /-- The next target wants the frame. -/
  | wanted {f : Frame π} {c : ℕ} {targets slow : List ℕ}
      (hb : h.broadcast = .delivering f (c :: targets) slow)
      (hw : (h.client c).wants f.type = true) :
      Effect h .ask { h with broadcast := .sending f c targets slow }
  /-- The next target does not. -/
  | unwanted {f : Frame π} {c : ℕ} {targets slow : List ℕ}
      (hb : h.broadcast = .delivering f (c :: targets) slow)
      (hw : (h.client c).wants f.type = false) :
      Effect h .ask { h with broadcast := .delivering f targets slow }
  /-- There is no next target. -/
  | reached {f : Frame π} {slow : List ℕ} (hb : h.broadcast = .delivering f [] slow) :
      Effect h .ask { h with broadcast := .dropping slow }
  | accept {f : Frame π} {c : ℕ} {targets slow : List ℕ}
      (hb : h.broadcast = .sending f c targets slow)
      (hlen : (h.client c).frames.length < clientBuffer) :
      Effect h .send
        { h.setClient c { h.client c with frames := (h.client c).frames ++ [f] } with
          broadcast := .delivering f targets slow }
  | refuse {f : Frame π} {c : ℕ} {targets slow : List ℕ}
      (hb : h.broadcast = .sending f c targets slow)
      (hlen : clientBuffer ≤ (h.client c).frames.length) :
      Effect h .send { h with broadcast := .delivering f targets (slow ++ [c]) }
  | drop {c : ℕ} {slow : List ℕ} (hb : h.broadcast = .dropping (c :: slow)) (hc : c ∈ h.clients) :
      Effect h .drop { h.remove c with broadcast := .closing c slow }
  /-- The slow client was not in the set any more. -/
  | dropped {c : ℕ} {slow : List ℕ} (hb : h.broadcast = .dropping (c :: slow))
      (hc : c ∉ h.clients) : Effect h .drop { h with broadcast := .dropping slow }
  | done (hb : h.broadcast = .dropping []) : Effect h .drop { h with broadcast := .idle }
  | closeDropped {c : ℕ} {slow : List ℕ} (hb : h.broadcast = .closing c slow) :
      Effect h .closeDropped
        { h.setClient c (h.client c).close with broadcast := .dropping slow }

theorem effect_of_perform {h h' : Hub ι π} {a : Act ι π} (hp : h.perform a = some h') :
    Effect h a h' := by
  rcases a with topics | ⟨c, topics⟩ | c | ⟨i, c⟩ | i | ⟨f, now, targets⟩ | _ | _ | _ | _
  · rw [← Option.some.inj hp]
    exact .register
  · rw [perform] at hp
    split at hp
    · rename_i hc
      rw [← Option.some.inj hp]
      exact .setTopics hc
    · cases hp
  · rw [perform] at hp
    split at hp
    · cases hp
    · rename_i hf
      rw [← Option.some.inj hp]
      exact .receive hf
  · rw [perform] at hp
    split at hp
    · cases hp
    · rename_i hi
      split at hp
      · rename_i hc
        rw [← Option.some.inj hp]
        exact .unregister hi hc
      · rename_i hc
        rw [← Option.some.inj hp]
        exact .unknown hc
  · rw [perform] at hp
    split at hp
    · cases hp
    · rename_i hi
      rw [← Option.some.inj hp]
      exact .close hi
  · rw [perform] at hp
    split at hp
    · rename_i hb
      split at hp
      · rename_i ht
        rw [← Option.some.inj hp]
        exact .begin hb ht
      · cases hp
    · cases hp
  · rw [perform] at hp
    split at hp
    · rename_i hb
      split at hp
      · rename_i hw
        rw [← Option.some.inj hp]
        exact .wanted hb hw
      · rename_i hw
        rw [← Option.some.inj hp]
        exact .unwanted hb (eq_false_of_ne_true hw)
    · rename_i hb
      rw [← Option.some.inj hp]
      exact .reached hb
    · cases hp
  · rw [perform] at hp
    split at hp
    · rename_i f c targets slow hb
      rw [← Option.some.inj hp, offer]
      split
      · rename_i hlen
        exact .accept hb hlen
      · rename_i hlen
        exact .refuse hb (Nat.le_of_not_lt hlen)
    · cases hp
  · rw [perform] at hp
    split at hp
    · rename_i hb
      split at hp
      · rename_i hc
        rw [← Option.some.inj hp]
        exact .drop hb hc
      · rename_i hc
        rw [← Option.some.inj hp]
        exact .dropped hb hc
    · rename_i hb
      rw [← Option.some.inj hp]
      exact .done hb
    · cases hp
  · rw [perform] at hp
    split at hp
    · rename_i hb
      rw [← Option.some.inj hp]
      exact .closeDropped hb
    · cases hp

end Hub

end ClassG.Broadcasting
