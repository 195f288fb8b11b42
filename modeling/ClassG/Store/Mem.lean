import ClassG.ForGo.Keyed
import ClassG.Store.Record

/-!
# Tracks and detections in memory

`store/memstore`: two maps, and lists that are made of them by a loop with a filter and a sort.
-/

set_option autoImplicit false

namespace ClassG.Store

/-- The keys of the map that `set` makes of the values. -/
def set (vals : List String) : List String := (vals.map GoString.trimSpace).filter (· ≠ "")

/-- `sort.Slice`.  What it does with rows of which neither is less does not show, as no two rows
have one id. -/
def sortSlice {ρ : Type} (less : ρ → ρ → Bool) (rows : List ρ) : List ρ :=
  rows.insertionSort fun a b ↦ !less b a

/-- The order of both lists: the latest first, and of one instant the greatest id. -/
def newer {ρ : Type} (ts : ρ → GoTime) (id : ρ → GoBytes) (a b : ρ) : Bool :=
  if ts a ≠ ts b then ts b < ts a else id b < id a

/-- The rows that come after the cursor. -/
def kept {ρ : Type} (ts : ρ → GoTime) (id : ρ → GoBytes) (cursor : Option Cursor)
    (sorted : List ρ) : List ρ :=
  match cursor with
  | none => sorted
  | some c => sorted.filter fun r ↦ c.before (ts r) (id r)

/-- `paginateDetections`, and the end of `ListTracks`. -/
def paginate {ρ : Type} (ts : ρ → GoTime) (id : ρ → GoBytes) (matched : List ρ) (limit : ℤ)
    (cursor : Option Cursor) : ListPage ρ :=
  let sorted := sortSlice (newer ts id) matched
  let kept := kept ts id cursor sorted
  let limit := limitOf limit
  if limit < kept.length then
    { rows := kept.take limit
      nextCursor := ((kept[limit - 1]?).map fun r ↦ Cursor.encode ⟨ts r, id r⟩).getD []
      total := sorted.length }
  else { rows := kept, total := sorted.length }

/-- The tracks and detections of `memstore.Store`. -/
structure MemStore where
  tracks : Keyed Track.trackID := .empty
  detections : Keyed Detection.detectionID := .empty

namespace MemStore

/-! ## Writes -/

/-- `UpsertTrack`, with `none` for its error. -/
def upsertTrack (s : MemStore) (t : Track) : Option MemStore :=
  if t.trackID = [] then none else some { s with tracks := s.tracks.put t }

/-- `InsertDetection`: a replay is a no-op. -/
def insertDetection (s : MemStore) (d : Detection) : Option MemStore :=
  if d.detectionID = [] then none
  else if (s.detections.get d.detectionID).isSome then some s
  else some { s with detections := s.detections.put d }

/-- `PurgeTracks`. -/
def purgeTracks (s : MemStore) (before : GoTime) : MemStore :=
  { s with tracks := s.tracks.deleteWhere fun t ↦ t.lastSeen < before }

/-- `PurgeDetections`. -/
def purgeDetections (s : MemStore) (before : GoTime) : MemStore :=
  { s with detections := s.detections.deleteWhere fun d ↦ d.ts < before }

/-! ## Lists -/

/-- The filter of `ListTracks`.  How `EqualFold` folds letters outside ASCII is given. -/
def matchesTrack (fold : Char → Char) (q : TrackQuery) (t : Track) : Bool :=
  let states := set q.states
  !((states ≠ [] ∧ t.state ∉ states) ∨
    (q.since ≠ 0 ∧ t.lastSeen < q.since) ∨
    (q.until' ≠ 0 ∧ q.until' < t.lastSeen) ∨
    (q.lastSeenBefore ≠ 0 ∧ ¬t.lastSeen < q.lastSeenBefore) ∨
    t.confidence < q.minConfidence ∨
    (q.serial ≠ "" ∧ t.identity.serial ≠ q.serial) ∨
    (q.vendor ≠ "" ∧ ¬GoString.equalFold fold t.identity.vendor q.vendor))

/-- `ListTracks`. -/
def listTracks (s : MemStore) (fold : Char → Char) (q : TrackQuery) : ListPage Track :=
  let page := paginate Track.lastSeen Track.trackID (s.tracks.rows.filter (matchesTrack fold q))
    q.limit q.cursor
  { page with total := if q.skipTotal then 0 else page.total }

/-- The filter of `ListDetections`. -/
def matchesDetection (q : DetectionQuery) (d : Detection) : Bool :=
  let classes := set q.classes
  !((classes ≠ [] ∧ d.detectionClass ∉ classes) ∨
    (q.sensorID ≠ "" ∧ d.sensorID ≠ q.sensorID) ∨
    (q.since ≠ 0 ∧ d.ts < q.since))

/-- `ListDetections`. -/
def listDetections (s : MemStore) (q : DetectionQuery) : ListPage Detection :=
  paginate Detection.ts Detection.detectionID (s.detections.rows.filter (matchesDetection q))
    q.limit q.cursor

/-- A detection carries the serial or one of the MACs. -/
def ofAircraft (serial : String) (macs : List String) (d : Detection) : Bool :=
  (serial ≠ "" ∧ d.identity.serial = serial) ∨
    (d.identity.mac ≠ "" ∧ d.identity.mac ∈ set macs)

/-- The filter of `ListTrackDetections`. -/
def matchesTrackDetection (q : TrackDetectionQuery) (d : Detection) : Bool :=
  !((q.start ≠ 0 ∧ d.ts < q.start) ∨ (q.stop ≠ 0 ∧ q.stop < d.ts)) ∧ ofAircraft q.serial q.macs d

/-- `ListTrackDetections`. -/
def listTrackDetections (s : MemStore) (q : TrackDetectionQuery) : ListPage Detection :=
  if q.serial = "" ∧ q.macs = [] then {}
  else
    let page := paginate Detection.ts Detection.detectionID
      (s.detections.rows.filter (matchesTrackDetection q)) q.limit q.cursor
    { page with total := if q.skipTotal then 0 else page.total }

/-! ## Peaks -/

/-- One turn of the loop of `peakRSSI`: the highest reading so far. -/
def peakStep (t : Track) (peak : Option ℚ) (d : Detection) : Option ℚ :=
  match d.rf.bind (·.rssiDBm) with
  | none => peak
  | some rssi =>
    let window := trackDetectionWindow t
    if d.ts < window.1 ∨ window.2 < d.ts then peak
    else if ofAircraft t.identity.serial t.identity.macs d then
      if peak.all (· < rssi) then some rssi else peak
    else peak

/-- `peakRSSI`. -/
def peakRSSI (s : MemStore) (t : Track) : Track :=
  if needsPeakRSSI t then
    match s.detections.rows.foldl (peakStep t) none with
    | none => t
    | some peak => { t with rssiDBm := some peak }
  else t

/-- `BackfillPeakRSSI`. -/
def backfillPeakRSSI (s : MemStore) (tracks : List Track) : List Track := tracks.map s.peakRSSI

end MemStore

end ClassG.Store
