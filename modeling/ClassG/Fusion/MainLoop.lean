import ClassG.Fusion.Correlate
import ClassG.Machine

/-!
# Fusion's main loop

The `select` loop of `services/fusion/cmd/classg-fusion/main.go`.  One iteration either takes a
message off the sensor bus or answers a tick of the reap timer, and runs to its end before the
next begins, so the loop is a machine whose calls are the iterations.

Everything fusion says goes out on the track bus, and `published` records it, latest message
first.  A document is marshalled where it is published, so the message holds the document as it
was at that moment.  Sends succeed here; what a failed send costs is not this file's subject.

A sensor message is its topic and its body; the body is given as what `json.Unmarshal` makes of
it, a decoded detection or a decoding error.
-/

set_option autoImplicit false

namespace ClassG.Fusion

/-- What `main` sets the loop up with. -/
structure LoopConfig where
  cfg : Config
  contacts : ContactConfig := {}
  heartbeatTopic : String := "heartbeat."
  trackTopic : String := "track."

/-- A message on the sensor bus. -/
structure BusMessage where
  topic : String
  body : Except String Detection

/-- What a message on the track bus carries. -/
inductive Payload
  /-- The body of a sensor message, relayed. -/
  | relayed (body : Except String Detection)
  /-- A whole track document. -/
  | track (t : Track)
  /-- `{"track_id": id}`. -/
  | trackID (id : String)

/-- A message on the track bus. -/
structure Message where
  topic : String
  payload : Payload

/-- What one iteration answers. -/
inductive Event
  /-- A message off the sensor bus, with the clock reading and the terrain for `Ingest`. -/
  | message (msg : BusMessage) (now : GoTime) (terrain : TerrainResolver)
  /-- A tick of the reap timer, with the order in which `Reap` visits its map. -/
  | tick (now : GoTime) (order : List Ref)

/-- The state of the loop between two iterations. -/
structure Loop where
  tracks : TrackStore := {}
  contacts : ContactStore := {}
  published : List Message := []

namespace Loop

variable (lc : LoopConfig)

/-- The message that publishes a track document. -/
def updateMessage (t : Track) : Message := ⟨lc.trackTopic ++ "update", .track t⟩

/-- The message that publishes the end of a track. -/
def closedMessage (t : Track) : Message := ⟨lc.trackTopic ++ "closed", .trackID t.trackID⟩

/-- `pub.Send`. -/
def send (s : Loop) (m : Message) : Loop := { s with published := m :: s.published }

/-- Publish a track document. -/
def publishUpdate (s : Loop) (r : Ref) : Loop := s.send (updateMessage lc (s.tracks.heap r))

/-- Publish what `Reap` did to a track: its end, or its new state. -/
def publishLifecycle (s : Loop) (r : Ref) : Loop :=
  if (s.tracks.heap r).state = .closed then s.send (closedMessage lc (s.tracks.heap r))
  else s.publishUpdate lc r

/-- An iteration that takes a message off the sensor bus. -/
def handleMessage (s : Loop) (msg : BusMessage) (now : GoTime) (terrain : TerrainResolver) :
    Loop :=
  -- fusion is also the ingress relay
  let s := s.send ⟨msg.topic, .relayed msg.body⟩
  if GoString.hasPrefix msg.topic lc.heartbeatTopic then s
  else match parseDetection msg.body with
    | .error _ => s
    | .ok d =>
      -- manned traffic is airspace context, not a track
      if d.detectionClass = classADSB then
        { s with contacts := (s.contacts.observe lc.contacts d).1 }
      else
        let (tracks, track) := s.tracks.ingest lc.cfg d now terrain
        let s := { s with tracks := tracks }
        match track with
        | some track => s.publishUpdate lc track
        | none => s

/-- An iteration that answers a tick.  The contacts are reaped first, so that an expired contact
releases its track on the same tick. -/
def handleTick (s : Loop) (now : GoTime) (order : List Ref) : Loop :=
  let s := { s with contacts := (s.contacts.reap lc.contacts now).1 }
  let (tracks, changed) := s.tracks.reap lc.cfg now order
  let s := changed.foldl (publishLifecycle lc) { s with tracks := tracks }
  let (tracks, changed) := s.tracks.correlateContacts lc.cfg s.contacts.active
  changed.foldl (publishUpdate lc) { s with tracks := tracks }

/-- One iteration. -/
def handle (s : Loop) : Event → Loop
  | .message msg now terrain => s.handleMessage lc msg now terrain
  | .tick now order => s.handleTick lc now order

end Loop

/-- `Reap` visits every live track once. -/
def Event.Ok (s : Loop) : Event → Prop
  | .message _ _ _ => True
  | .tick _ order => order.Perm s.tracks.all

instance (s : Loop) : (e : Event) → Decidable (e.Ok s)
  | .message _ _ _ => .isTrue trivial
  | .tick _ order => inferInstanceAs (Decidable (order.Perm s.tracks.all))

/-- The main loop as a machine. -/
def mainLoop (lc : LoopConfig) : Machine Loop Event where
  init s := s = {}
  next s e s' := e.Ok s ∧ s' = s.handle lc e

end ClassG.Fusion
