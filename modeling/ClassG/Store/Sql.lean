import ClassG.ForGo.Keyed
import ClassG.Store.Record

/-!
# Tracks and detections in the database

`store/libsqlstore`: a row is a document and the columns that the queries look at, instants among
them as text.  A filter that is `NULL` does not filter, and a comparison with a column that is
`NULL` does not hold.

The columns that no query here reads are left out, and so is the JSON of a document: what is
decoded is what was encoded.
-/

set_option autoImplicit false

namespace ClassG.Store

/-- `toDB`. -/
def toDB (t : GoTime) : GoBytes := GoTime.formatFixed t

/-- `fromDB`. -/
def fromDB (s : GoBytes) : GoTime :=
  match GoTime.parseFixed s with
  | some t => t
  | none => (GoTime.parseRFC3339Nano s).getD 0

/-- **`fromDB` undoes `toDB`.** -/
theorem fromDB_toDB {t : GoTime} (h : GoTime.InRange t) : fromDB (toDB t) = t := by
  rw [fromDB, toDB, GoTime.parseFixed_formatFixed h]

/-- `nullStr`. -/
def nullStr (s : String) : Option String := if s = "" then none else some s

/-- `nullTime`. -/
def nullTime (t : GoTime) : Option GoBytes := if t = 0 then none else some (toDB t)

/-- `nullFloat`. -/
def nullFloat (f : ℚ) (on : Bool) : Option ℚ := if on then some f else none

/-- `jsonSet`. -/
def jsonSet (vs : List String) : Option (List String) := if vs = [] then none else some vs

/-- `? IS NULL OR ...`. -/
def guarded {α : Type} (param : Option α) (p : α → Bool) : Bool := param.all p

/-- SQLite's `lower`, which knows the letters of ASCII only. -/
def lower (s : String) : List Char :=
  s.toList.map fun c ↦ if c.toNat < 0x80 then c.toLower else c

/-! ## Pages -/

/-- What the queries for a page return: `detectionRow`, and the row of `ListTracks`. -/
structure PageRow (ρ : Type) where
  doc : ρ
  ts : GoBytes
  id : GoBytes

/-- The place of a row under `ORDER BY`. -/
def PageRow.key {ρ : Type} (r : PageRow ρ) : GoBytes ×ₗ GoBytes := toLex (r.ts, r.id)

/-- The condition with the cursor. -/
def behind {ρ : Type} (cursor : Option Cursor) (r : PageRow ρ) : Bool :=
  guarded cursor fun c ↦ r.ts < toDB c.ts ∨ (r.ts = toDB c.ts ∧ r.id < c.id)

/-- The end of the three queries, over the rows that the rest of their condition leaves. -/
def selectPage {ρ : Type} (cursor : Option Cursor) (limit : ℕ) (rows : List (PageRow ρ)) :
    List (PageRow ρ) :=
  ((rows.filter (behind cursor)).insertionSort fun a b ↦ b.key ≤ a.key).take limit

/-- `buildDetectionPage`, and the end of `ListTracks`. -/
def buildPage {ρ : Type} (rows : List (PageRow ρ)) (total limit : ℕ) : ListPage ρ :=
  if limit < rows.length then
    { rows := (rows.map (·.doc)).take limit
      nextCursor := ((rows[limit - 1]?).map fun r ↦ Cursor.encode ⟨fromDB r.ts, r.id⟩).getD []
      total := total }
  else { rows := rows.map (·.doc), total := total }

/-- `pageLimit`, the query and `buildDetectionPage`: one row more than wanted is fetched. -/
def sqlPage {ρ : Type} (rows : List (PageRow ρ)) (total : ℕ) (limit : ℤ)
    (cursor : Option Cursor) : ListPage ρ :=
  let want := limitOf limit
  buildPage (selectPage cursor (want + 1) rows) total want

/-! ## Tables -/

/-- A row of `tracks`. -/
structure TrackRow where
  trackID : GoBytes
  state : String
  lastSeen : GoBytes
  confidence : ℚ
  serial : Option String
  doc : Track

/-- The row that `UpsertTrack` writes. -/
def TrackRow.of (t : Track) : TrackRow where
  trackID := t.trackID
  state := t.state
  lastSeen := toDB t.lastSeen
  confidence := t.confidence
  serial := nullStr t.identity.serial
  doc := t

def TrackRow.page (r : TrackRow) : PageRow Track := ⟨r.doc, r.lastSeen, r.trackID⟩

/-- A row of `detections`. -/
structure DetectionRow where
  detectionID : GoBytes
  ts : GoBytes
  sensorID : String
  detectionClass : String
  serial : Option String
  mac : Option String
  doc : Detection

/-- The row that `InsertDetection` writes. -/
def DetectionRow.of (d : Detection) : DetectionRow where
  detectionID := d.detectionID
  ts := toDB d.ts
  sensorID := d.sensorID
  detectionClass := d.detectionClass
  serial := nullStr d.identity.serial
  mac := nullStr d.identity.mac
  doc := d

def DetectionRow.page (r : DetectionRow) : PageRow Detection := ⟨r.doc, r.ts, r.detectionID⟩

/-- The tables `tracks` and `detections`. -/
structure SqlStore where
  tracks : Keyed TrackRow.trackID := .empty
  detections : Keyed DetectionRow.detectionID := .empty

namespace SqlStore

/-! ## Writes -/

/-- `UpsertTrack`, with `none` for its error. -/
def upsertTrack (s : SqlStore) (t : Track) : Option SqlStore :=
  if t.trackID = [] then none else some { s with tracks := s.tracks.put (.of t) }

/-- `InsertDetection`: `ON CONFLICT DO NOTHING`. -/
def insertDetection (s : SqlStore) (d : Detection) : Option SqlStore :=
  if d.detectionID = [] then none
  else if (s.detections.get d.detectionID).isSome then some s
  else some { s with detections := s.detections.put (.of d) }

/-- `PurgeTracks`. -/
def purgeTracks (s : SqlStore) (before : GoTime) : SqlStore :=
  { s with tracks := s.tracks.deleteWhere fun r ↦ r.lastSeen < toDB before }

/-- `PurgeDetections`, with all its batches. -/
def purgeDetections (s : SqlStore) (before : GoTime) : SqlStore :=
  { s with detections := s.detections.deleteWhere fun r ↦ r.ts < toDB before }

/-! ## Lists -/

/-- The condition of `CountTracks`, and that of `ListTracks` without the cursor. -/
def matchesTrack (q : TrackQuery) (r : TrackRow) : Bool :=
  guarded (nullTime q.since) (· ≤ r.lastSeen) ∧
  guarded (nullTime q.until') (r.lastSeen ≤ ·) ∧
  guarded (nullTime q.lastSeenBefore) (r.lastSeen < ·) ∧
  guarded (nullFloat q.minConfidence (0 < q.minConfidence)) (· ≤ r.confidence) ∧
  guarded (nullStr q.serial) (r.serial = some ·) ∧
  -- an empty vendor is not in the document
  guarded (nullStr q.vendor) (fun v ↦ (nullStr r.doc.identity.vendor).map lower = some (lower v)) ∧
  guarded (jsonSet q.states) (r.state ∈ ·)

/-- `ListTracks`. -/
def listTracks (s : SqlStore) (q : TrackQuery) : ListPage Track :=
  let matched := s.tracks.rows.filter (matchesTrack q)
  sqlPage (matched.map (·.page)) (if q.skipTotal then 0 else matched.length) q.limit q.cursor

/-- The condition of `CountDetections`, and that of `ListDetections` without the cursor. -/
def matchesDetection (q : DetectionQuery) (r : DetectionRow) : Bool :=
  guarded (nullTime q.since) (· ≤ r.ts) ∧
  guarded (nullStr q.sensorID) (r.sensorID = ·) ∧
  guarded (jsonSet q.classes) (r.detectionClass ∈ ·)

/-- `ListDetections`. -/
def listDetections (s : SqlStore) (q : DetectionQuery) : ListPage Detection :=
  let matched := s.detections.rows.filter (matchesDetection q)
  sqlPage (matched.map (·.page)) matched.length q.limit q.cursor

/-- The condition of `CountTrackDetections`, and that of `ListTrackDetections` without the
cursor. -/
def matchesTrackDetection (q : TrackDetectionQuery) (r : DetectionRow) : Bool :=
  ((nullStr q.serial).any (r.serial = some ·) ∨
    (jsonSet q.macs).any fun macs ↦ r.mac.any (· ∈ macs)) ∧
  guarded (nullTime q.start) (· ≤ r.ts) ∧
  guarded (nullTime q.stop) (r.ts ≤ ·)

/-- `ListTrackDetections`. -/
def listTrackDetections (s : SqlStore) (q : TrackDetectionQuery) : ListPage Detection :=
  if q.serial = "" ∧ q.macs = [] then {}
  else
    let matched := s.detections.rows.filter (matchesTrackDetection q)
    sqlPage (matched.map (·.page)) (if q.skipTotal then 0 else matched.length) q.limit q.cursor

/-! ## Peaks -/

/-- `peakRSSIKey`. -/
structure PeakRSSIKey where
  id : GoBytes
  serial : Option String
  macs : List String
  start : GoBytes
  stop : GoBytes

/-- What a track asks `MaxTrackRSSI` for. -/
def PeakRSSIKey.of (t : Track) : PeakRSSIKey where
  id := t.trackID
  serial := nullStr t.identity.serial
  macs := t.identity.macs
  start := toDB (trackDetectionWindow t).1
  stop := toDB (trackDetectionWindow t).2

/-- The detections of one of the wanted tracks: an arm for the serial, and one for the MACs. -/
def wantedRows (s : SqlStore) (w : PeakRSSIKey) : List DetectionRow :=
  (s.detections.rows.filter fun d ↦
    w.serial.isSome ∧ d.serial = w.serial ∧ w.start ≤ d.ts ∧ d.ts ≤ w.stop) ++
  w.macs.flatMap fun mac ↦ s.detections.rows.filter fun d ↦
    d.mac = some mac ∧ w.start ≤ d.ts ∧ d.ts ≤ w.stop

/-- `MaxTrackRSSI`: the row of a track, if it has one. -/
def maxTrackRSSI (s : SqlStore) (want : List PeakRSSIKey) (id : GoBytes) : Option ℚ :=
  ((want.filter (·.id = id)).flatMap fun w ↦
    (s.wantedRows w).filterMap fun d ↦ d.doc.rf.bind (·.rssiDBm)).max?

/-- `BackfillPeakRSSI`. -/
def backfillPeakRSSI (s : SqlStore) (tracks : List Track) : List Track :=
  let want := (tracks.filter needsPeakRSSI).map .of
  tracks.map fun t ↦
    if needsPeakRSSI t then
      match s.maxTrackRSSI want t.trackID with
      | none => t
      | some peak => { t with rssiDBm := some peak }
    else t

end SqlStore

end ClassG.Store
