import ClassG.Api.TrackDetections
import ClassG.Ingest.Ingestor

/-!
# Detections from the bus

`Ingestor.Detection` of `api/internal/ingest/ingest.go`, and what is kept of detections and tracks:
the documents, which are looked up by what the store has of them (`Archive`).

Where operators are not exposed, the redacted documents are all that is ever shown.  `hide` redacts
what is kept, and it comes to the same whether that is done before or after
(`Archive.hide_upsertTrack`, `Archive.hide_insertDetection`, `Archive.answer_hide`).
-/

set_option autoImplicit false

namespace ClassG.Ingest

open Hooks

/-! ## The handler -/

/-- What a detection makes the ingestor do. -/
inductive DetectionEffect
  /-- `NoteDiscarded`. -/
  | noteDiscarded
  | insertDetection (d : Model.Detection)
  | broadcast (d : Model.Detection)
  /-- `fireHook`. -/
  | fire (e : Alert)

/-- What the cooldown of a rule goes by: the serial, or the MAC, or the sensor. -/
def detectionSubject (r : Model.Detection) : String :=
  let subject := r.identity.serial
  let subject := if subject = "" then r.identity.mac else subject
  if subject = "" then r.sensorID else subject

/-- The payload of a detection, which is redacted. -/
def detectionPayload (r : Model.Detection) : Payload :=
  let always : List (String × Value) :=
    [("detection_id", .text r.detectionID), ("detection_class", .text r.detectionClass),
      ("sensor_id", .text r.sensorID), ("sensor_kind", .text r.sensorKind)]
  let serial : List (String × Value) :=
    if r.identity.serial ≠ "" then [("serial", .text r.identity.serial)] else []
  let position : List (String × Value) :=
    match r.position with
    | some p => [("lat", .number p.lat), ("lon", .number p.lon)]
    | none => []
  Payload.putAll .empty (always ++ serial ++ position)

/-- What the hooks are told of a detection. -/
def detectionEvent (r : Model.Detection) (now : GoTime) : Alert where
  name := eventDetection
  subject := detectionSubject r
  atTime := now
  payload := detectionPayload r
  detectionClass := r.detectionClass
  sensorKind := r.sensorKind
  isDrone := r.detectionClass ≠ "D"

/-- The detection that a message brings, if it is taken. -/
def accepted (recording : Bool) (decoded : Option Model.Detection) : Option Model.Detection :=
  decoded.filter fun d ↦ recording ∧ d.detectionID ≠ ""

/-- `Ingestor.Detection`. -/
def Ingestor.detection (cfg : Ingestor) (recording : Bool) (now : GoTime)
    (decoded : Option Model.Detection) : List DetectionEffect :=
  if ¬recording then [.noteDiscarded]
  else
    match decoded with
    | none => []
    | some d =>
      -- without an id a replay could not be told from another detection
      if d.detectionID = "" then []
      else
        let redacted := d.redact cfg.expose
        [.insertDetection d, .broadcast redacted, .fire (detectionEvent redacted now)]

/-- What is not taken is counted, if nothing is recorded. -/
theorem detection_eq (cfg : Ingestor) (recording : Bool) (now : GoTime)
    (decoded : Option Model.Detection) :
    cfg.detection recording now decoded =
      match accepted recording decoded with
      | some d => [.insertDetection d, .broadcast (d.redact cfg.expose),
          .fire (detectionEvent (d.redact cfg.expose) now)]
      | none => if recording then [] else [.noteDiscarded] := by
  unfold Ingestor.detection accepted
  cases recording with
  | false => cases decoded <;> simp [Option.filter]
  | true =>
    cases decoded with
    | none => rfl
    | some d => by_cases hid : d.detectionID = "" <;> simp [hid, Option.filter]

/-! ## What is kept -/

/-- The documents, and what the store looks at of them. -/
structure Archive where
  rows : Store.MemStore := {}
  trackDoc : GoBytes → Model.Track := fun _ ↦ {}
  detectionDoc : GoBytes → Model.Detection := fun _ ↦ {}

/-- What a client asks for, once its parameters are read. -/
inductive Query
  /-- `handleGetTrack`. -/
  | track (id : GoBytes)
  /-- `handleListTracks`. -/
  | tracks (fold : Char → Char) (q : Store.TrackQuery)
  /-- `handleListDetections`. -/
  | detections (q : Store.DetectionQuery)
  /-- `handleTrackDetections`. -/
  | trackDetections (id : GoBytes) (since : GoTime) (limit : ℤ) (cursor : Option Store.Cursor)

/-- What it is answered. -/
inductive Answer
  | notFound
  | track (t : Model.Track)
  | tracks (page : Store.ListPage Model.Track)
  | detections (page : Store.ListPage Model.Detection)

namespace Archive

variable (s : Archive)

/-- `UpsertTrack`. -/
def upsertTrack (t : Model.Track) : Archive :=
  match s.rows.upsertTrack t.record with
  | none => s
  | some rows =>
    { s with rows := rows, trackDoc := Function.update s.trackDoc t.record.trackID t }

/-- `InsertDetection`. -/
def insertDetection (d : Model.Detection) : Archive :=
  match s.rows.insertDetection d.record with
  | none => s
  | some rows =>
    if (s.rows.detections.get d.record.detectionID).isSome then { s with rows := rows }
    else
      { s with
        rows := rows
        detectionDoc := Function.update s.detectionDoc d.record.detectionID d }

/-- `PurgeTracks` and `PurgeDetections`. -/
def purge (tracksBefore detectionsBefore : GoTime) : Archive :=
  { s with rows := (s.rows.purgeTracks tracksBefore).purgeDetections detectionsBefore }

/-- `GetTrack`. -/
def getTrack (id : GoBytes) : Except Store.StoreError Model.Track :=
  match s.rows.tracks.get id with
  | some _ => .ok (s.trackDoc id)
  | none => .error .notFound

/-- The document of a row, with the peak that `BackfillPeakRSSI` has left in the row. -/
def trackOf (row : Store.Track) : Model.Track :=
  { s.trackDoc row.trackID with rssiDBm := row.rssiDBm }

/-- A page with the documents of its rows. -/
def page {ρ δ : Type} (doc : ρ → δ) (p : Store.ListPage ρ) : Store.ListPage δ where
  rows := p.rows.map doc
  nextCursor := p.nextCursor
  total := p.total

/-- A list of detections, which are redacted. -/
def detectionPage (expose : Bool) (p : Store.ListPage Store.Detection) : Answer :=
  .detections (page (fun row ↦ (s.detectionDoc row.detectionID).redact expose) p)

/-- What a client is answered. -/
def answer (expose : Bool) : Query → Answer
  | .track id =>
    match s.rows.tracks.get id with
    | none => .notFound
    | some row => .track ((s.trackOf (s.rows.peakRSSI row)).redact expose)
  | .tracks fold q =>
    .tracks (page (fun row ↦ (s.trackOf (s.rows.peakRSSI row)).redact expose)
      (s.rows.listTracks fold q))
  | .detections q => s.detectionPage expose (s.rows.listDetections q)
  | .trackDetections id since limit cursor =>
    match s.rows.tracks.get id with
    | none => .notFound
    | some row =>
      s.detectionPage expose (s.rows.listTrackDetections (Api.restQuery row since limit cursor))

/-! ## What is shown of it -/

variable (clear : Model.Detection → Model.Detection)

/-- All documents without the operator's position, and detections without what `clear` takes away. -/
def hide : Archive where
  rows := s.rows
  trackDoc id := (s.trackDoc id).redact false
  detectionDoc id := clear (s.detectionDoc id)

theorem hide_upsertTrack (t : Model.Track) :
    (s.upsertTrack t).hide clear = (s.hide clear).upsertTrack (t.redact false) := by
  rw [upsertTrack, upsertTrack, Model.Track.redact_record]
  show hide (match s.rows.upsertTrack t.record with | none => _ | some rows => _) clear =
    match s.rows.upsertTrack t.record with | none => _ | some rows => _
  cases s.rows.upsertTrack t.record with
  | none => rfl
  | some rows =>
    refine congrArg (fun doc ↦ ({ s.hide clear with rows := rows, trackDoc := doc } : Archive))
      (funext fun id ↦ ?_)
    exact Function.apply_update (fun _ (t : Model.Track) ↦ t.redact false) ..

theorem hide_insertDetection {clear : Model.Detection → Model.Detection} {d : Model.Detection}
    (hrecord : (clear d).record = d.record) :
    (s.insertDetection d).hide clear = (s.hide clear).insertDetection (clear d) := by
  rw [insertDetection, insertDetection, hrecord]
  show hide (match s.rows.insertDetection d.record with | none => _ | some rows => _) clear =
    match s.rows.insertDetection d.record with | none => _ | some rows => _
  cases s.rows.insertDetection d.record with
  | none => rfl
  | some rows =>
    show hide (if (s.rows.detections.get d.record.detectionID).isSome then _ else _) clear =
      if (s.rows.detections.get d.record.detectionID).isSome then _ else _
    split
    · rfl
    · refine congrArg
        (fun doc ↦ ({ s.hide clear with rows := rows, detectionDoc := doc } : Archive))
        (funext fun id ↦ ?_)
      exact Function.apply_update (fun _ ↦ clear) ..

theorem hide_purge (tracksBefore detectionsBefore : GoTime) :
    (s.purge tracksBefore detectionsBefore).hide clear =
      (s.hide clear).purge tracksBefore detectionsBefore := rfl

theorem hide_getTrack (id : GoBytes) :
    (s.getTrack id).map (·.redact false) = (s.hide clear).getTrack id := by
  rw [getTrack, getTrack]
  show Except.map _ (match s.rows.tracks.get id with | some _ => _ | none => _) =
    match s.rows.tracks.get id with | some _ => _ | none => _
  cases s.rows.tracks.get id <;> rfl

/-- **Clients are shown nothing else.** -/
theorem answer_hide (q : Query) :
    (s.hide fun d ↦ d.redact false).answer false q = s.answer false q := by
  cases q with
  | track id => rfl
  | tracks fold q => rfl
  | detections q => rfl
  | trackDetections id since limit cursor => rfl

end Archive

end ClassG.Ingest
