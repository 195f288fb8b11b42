import ClassG.Hooks.Payload
import ClassG.Model.Track
import ClassG.Store.Accounts

/-!
# Tracks from fusion

`Ingestor.Track` of `api/internal/ingest/ingest.go`, with all that a message makes it do: what it
stores, what the browsers are sent and what the hooks are told.  What it asks outside is answered
for each message: the recording switch, the clock, and what the store has of a track.  That the
store has failed is logged, and changes nothing.
-/

set_option autoImplicit false

namespace ClassG.Ingest

open Hooks

/-- What the ingestor is configured with. -/
structure Ingestor where
  maxHistory : ℤ
  /-- `ExposeOperatorLocation`. -/
  expose : Bool

/-- A message on the track topic: what `json.Unmarshal` reads as the id of a closed track, and what
`DecodeTrack` makes of the body. -/
structure FusionMessage where
  topic : String
  closedID : Option String
  decoded : Option Model.Track

/-- What is answered to what a message makes the ingestor ask. -/
structure Answers where
  recording : Bool
  now : GoTime
  /-- `GetTrack`. -/
  stored : Except Store.StoreError Model.Track

/-- A frame for the browsers, before it is stamped. -/
inductive TrackFrame
  | update (t : Model.Track)
  | closed (id : String)
  deriving DecidableEq

/-- What the ingestor does. -/
inductive Effect
  /-- `NoteDiscarded`. -/
  | noteDiscarded
  | upsertTrack (t : Model.Track)
  /-- `NoteFusionMessage`. -/
  | noteFusionMessage (at' : GoTime)
  | broadcast (f : TrackFrame)
  /-- `fireHook`. -/
  | fire (e : Alert)

/-- `isDrone`. -/
def isDrone (t : Model.Track) : Bool :=
  !t.adsbCorrelated && t.evidence.all fun e ↦ e.detectionClass ≠ "D"

/-- The trail is cut to its last positions. -/
def trimHistory (maxHistory : ℤ) (t : Model.Track) : Model.Track :=
  if 0 < maxHistory ∧ maxHistory < t.history.length then
    { t with history := t.history.drop (t.history.length - maxHistory.toNat) }
  else t

/-- Where a track is. -/
def positionOf (t : Model.Track) : Option (ℚ × ℚ) := t.current.map fun p ↦ (p.lat, p.lon)

/-- `closedEvent`. -/
def closedEvent (id : String) (now : GoTime) (payload : List (String × Value))
    (position : Option (ℚ × ℚ)) : Alert where
  name := eventTrackClosed
  subject := id
  atTime := now
  payload := Payload.putAll .empty payload
  position := position

/-- The payload of `confirmedEvent`, of the redacted track. -/
def confirmedPayload (r : Model.Track) : Payload :=
  let always : List (String × Value) :=
    [("track_id", .text r.trackID), ("confidence", .number r.confidence),
      ("detection_count", .count r.detectionCount), ("first_seen", .time r.firstSeen),
      ("last_seen", .time r.lastSeen), ("adsb_correlated", .flag r.adsbCorrelated)]
  let serial : List (String × Value) :=
    if r.identity.serial ≠ "" then [("serial", .text r.identity.serial)] else []
  let vendor : List (String × Value) :=
    if r.identity.vendor ≠ "" then [("vendor", .text r.identity.vendor)] else []
  let current : List (String × Value) :=
    match r.current with
    | some p => [("lat", .number p.lat), ("lon", .number p.lon)]
    | none => []
  let operator : List (String × Value) :=
    match r.operator with
    | some p => [("operator_lat", .number p.lat), ("operator_lon", .number p.lon)]
    | none => []
  Payload.putAll .empty (always ++ serial ++ vendor ++ current ++ operator)

/-- `confirmedEvent`. -/
def confirmedEvent (t redacted : Model.Track) (now : GoTime) : Alert where
  name := eventTrackConfirmed
  subject := t.trackID
  atTime := now
  payload := confirmedPayload redacted
  confidence := t.confidence
  isDrone := isDrone t
  position := positionOf redacted

/-- A track that carries only an id is closed. -/
def closeByID (a : Answers) (id : String) : List Effect :=
  let t : Model.Track := match a.stored with
    | .ok t => { t with state := "CLOSED" }
    | .error _ => {}
  (match a.stored with
    | .ok _ => [.upsertTrack t]
    | .error _ => []) ++
  [.noteFusionMessage a.now, .broadcast (.closed id),
    .fire (closedEvent id a.now [("track_id", .text id)] (positionOf t))]

/-- A document of a track is kept, and handed on. -/
def takeTrack (cfg : Ingestor) (a : Answers) (t : Model.Track) : List Effect :=
  if t.state = "CLOSED" then
    [.upsertTrack t, .noteFusionMessage a.now, .broadcast (.closed t.trackID),
      .fire (closedEvent t.trackID a.now
        [("track_id", .text t.trackID), ("confidence", .number t.confidence)] (positionOf t))]
  else
    let redacted := t.redact cfg.expose
    [.upsertTrack t, .noteFusionMessage a.now, .broadcast (.update redacted)] ++
      if t.state = "CONFIRMED" then [.fire (confirmedEvent t redacted a.now)] else []

/-- The id of the track that a message closes without a document. -/
def FusionMessage.closes (m : FusionMessage) : Option String :=
  m.closedID.filter fun id ↦ GoString.hasSuffix m.topic "closed" ∧ id ≠ ""

/-- `Ingestor.Track`. -/
def Ingestor.track (cfg : Ingestor) (a : Answers) (m : FusionMessage) : List Effect :=
  if ¬ a.recording then [.noteDiscarded]
  else
    match m.closes with
    | some id => closeByID a id
    | none =>
      match m.decoded with
      | none => []
      | some t => takeTrack cfg a (trimHistory cfg.maxHistory t)

@[simp] theorem trimHistory_trackID (n : ℤ) (t : Model.Track) :
    (trimHistory n t).trackID = t.trackID := by
  unfold trimHistory
  split <;> rfl

@[simp] theorem trimHistory_state (n : ℤ) (t : Model.Track) :
    (trimHistory n t).state = t.state := by
  unfold trimHistory
  split <;> rfl

end ClassG.Ingest
