import ClassG.Fusion.Decode
import ClassG.Fusion.MainLoop
import ClassG.Ingest.Detections
import ClassG.Wifi.OperatorDocuments

/-!
# The services together

The whole way of a detection: the Wi-Fi sensor decodes it from a frame and publishes it, fusion relays
it and folds it into a track, and the API keeps both and hands them on, to browsers, hooks and
clients.  The services run on their own, and what is on its way between them waits on a bus.
-/

set_option autoImplicit false

namespace ClassG.Whole

open Wifi Ingest

/-- What the services are configured with. -/
structure Services where
  sensor : Pipeline
  fusion : Fusion.LoopConfig
  api : Ingestor

/-- The services, and what is on its way between them, the oldest first. -/
structure State where
  /-- On the sensor bus. -/
  sensors : List Sent := []
  fusion : Fusion.Loop := {}
  /-- Relayed, for the API. -/
  detections : List Sent := []
  /-- On the track bus. -/
  tracks : List Fusion.Message := []
  kept : Archive := {}

/-- What happens next. -/
inductive Event
  /-- The Wi-Fi sensor captures a frame. -/
  | frame (bytes : List Byte) (draw : ℕ → Draw)
  /-- Another sensor publishes a detection. -/
  | sensor (m : Sent)
  /-- Fusion takes a message off the sensor bus. -/
  | fuse (now : GoTime) (terrain : Fusion.TerrainResolver)
  /-- Fusion answers a tick of its timer. -/
  | tick (now : GoTime) (order : List Fusion.Ref)
  /-- The API takes a detection. -/
  | takeDetection (recording : Bool) (now : GoTime)
  /-- The API takes what fusion says of a track. -/
  | takeTrack (recording : Bool) (now : GoTime)
  /-- What is old is deleted. -/
  | purge (tracksBefore detectionsBefore : GoTime)
  /-- A client asks. -/
  | ask (q : Query)

/-- What is handed on. -/
inductive Output
  | detection (d : Model.Detection)
  | track (f : TrackFrame)
  | hooks (e : Hooks.Alert)
  | answer (a : Answer)

/-- What a detection is published under. -/
def topicOf (m : Sent) : String := "detection." ++ classOf m.document

/-- What a message of fusion's is to `Ingestor.Track`. -/
def fusionMessage (m : Fusion.Message) : FusionMessage where
  topic := m.topic
  closedID := match m.payload with
    | .relayed _ => none
    | .track t => some t.trackID
    | .trackID id => some id
  decoded := match m.payload with
    | .relayed _ => none
    | .track t => Model.decodeTrack t
    | .trackID id =>
      if id = "" then none else some { schemaVersion := Model.schemaVersion, trackID := id }

/-- The message is about a track. -/
def aboutTrack (m : Fusion.Message) : Bool :=
  match m.payload with
  | .relayed _ => false
  | _ => true

/-- What `Ingestor.Track` writes. -/
def writeTrack (kept : Archive) : Effect → Archive
  | .upsertTrack t => kept.upsertTrack t
  | _ => kept

/-- What it hands on. -/
def trackOutput : Effect → Option Output
  | .broadcast f => some (.track f)
  | .fire e => some (.hooks e)
  | _ => none

/-- What `Ingestor.Detection` writes. -/
def writeDetection (kept : Archive) : DetectionEffect → Archive
  | .insertDetection d => kept.insertDetection d
  | _ => kept

/-- What it hands on. -/
def detectionOutput : DetectionEffect → Option Output
  | .broadcast d => some (.detection d)
  | .fire e => some (.hooks e)
  | _ => none

namespace State

variable (cfg : Services) (s : State)

/-- An iteration of fusion's, whose messages go out. -/
def iterate (e : Fusion.Event) : State :=
  let loop := s.fusion.handle cfg.fusion e
  { s with
    fusion := { loop with published := [] }
    tracks := s.tracks ++ loop.published.reverse.filter aboutTrack }

/-- `GetTrack`, if a message makes the API ask. -/
def stored (m : FusionMessage) : Except Store.StoreError Model.Track :=
  match m.closes with
  | some id => s.kept.getTrack (.ofString id)
  | none => .error .notFound

/-- One event. -/
def step (s : State) : Event → State × List Output
  | .frame bytes draw => ({ s with sensors := s.sensors ++ cfg.sensor.sent draw bytes }, [])
  | .sensor m => ({ s with sensors := s.sensors ++ [m] }, [])
  | .fuse now terrain =>
    match s.sensors with
    | [] => (s, [])
    | m :: rest =>
      (({ s with sensors := rest, detections := s.detections ++ [m] } : State).iterate cfg
        (.message ⟨topicOf m, Fusion.unmarshal m.document⟩ now terrain), [])
  | .tick now order => (s.iterate cfg (.tick now order), [])
  | .takeDetection recording now =>
    match s.detections with
    | [] => (s, [])
    | m :: rest =>
      let effects := cfg.api.detection recording now (Model.decodeDetection m.document)
      ({ s with detections := rest, kept := effects.foldl writeDetection s.kept },
        effects.filterMap detectionOutput)
  | .takeTrack recording now =>
    match s.tracks with
    | [] => (s, [])
    | m :: rest =>
      let effects := cfg.api.track ⟨recording, now, s.stored (fusionMessage m)⟩ (fusionMessage m)
      ({ s with tracks := rest, kept := effects.foldl writeTrack s.kept },
        effects.filterMap trackOutput)
  | .purge tracksBefore detectionsBefore =>
    ({ s with kept := s.kept.purge tracksBefore detectionsBefore }, [])
  | .ask q => (s, [.answer (s.kept.answer cfg.api.expose q)])

end State

end ClassG.Whole
