import ClassG.Fusion.Track
import ClassG.Model.Detection

/-!
# The track of the API

`Track` of `api/internal/model`, and what `DecodeTrack` makes of a document that fusion publishes.
The operator's position is in `operator`, and nowhere else.
-/

set_option autoImplicit false

namespace ClassG.Model

/-- `Evidence`. -/
structure Evidence where
  detectionClass : String
  sensorKind : String
  weight : ℚ
  count : ℕ
  lastSeen : GoTime
  deriving DecidableEq, Repr

/-- `Receiver`. -/
structure Receiver where
  sensorID : String
  sensorKind : String
  detectionCount : ℕ
  rssiDBm : Option ℚ
  lastSeen : Option GoTime
  deriving DecidableEq, Repr

/-- `TrackIdentity`. -/
structure TrackIdentity where
  serial : String := ""
  macs : List String := []
  vendor : String := ""
  manufacturerCode : String := ""
  modelHint : String := ""
  operatorID : String := ""
  uaType : String := ""
  deriving DecidableEq, Repr

/-- `Track`. -/
structure Track where
  schemaVersion : String := ""
  trackID : String := ""
  state : String := ""
  firstSeen : GoTime := 0
  lastSeen : GoTime := 0
  detectionCount : ℕ := 0
  identity : TrackIdentity := {}
  confidence : ℚ := 0
  evidence : List Evidence := []
  current : Option Position := none
  history : List Position := []
  operator : Option OperatorPosition := none
  rssiDBm : Option ℚ := none
  receivers : List Receiver := []
  adsbCorrelated : Bool := false
  deriving DecidableEq, Repr

/-- `Redact`. -/
def Track.redact (t : Track) (expose : Bool) : Track :=
  if expose then t else { t with operator := none }

/-- What the stores look at. -/
def Track.record (t : Track) : Store.Track where
  trackID := .ofString t.trackID
  state := t.state
  firstSeen := t.firstSeen
  lastSeen := t.lastSeen
  identity := { serial := t.identity.serial, macs := t.identity.macs, vendor := t.identity.vendor }
  confidence := t.confidence
  rssiDBm := t.rssiDBm

/-! ## Fusion's document -/

/-- A position of fusion's. -/
def Position.ofFusion (p : Fusion.Position) : Position where
  lat := p.lat
  lon := p.lon
  altGeodeticM := p.altGeodeticM
  heightAGLM := p.heightAGLM
  terrainElevationM := p.terrainElevationM
  speedMPS := p.speedMPS
  trackDeg := p.trackDeg
  atTime := p.atTime

/-- A position of fusion's, where the operator's is expected. -/
def OperatorPosition.ofFusion (p : Fusion.Position) : OperatorPosition where
  lat := p.lat
  lon := p.lon
  atTime := p.atTime

/-- `TrackState`, as fusion writes it. -/
def stateName : Fusion.TrackState → String
  | .tentative => "TENTATIVE"
  | .confirmed => "CONFIRMED"
  | .coasting => "COASTING"
  | .closed => "CLOSED"

/-- The values of a map, by their keys, which are sorted: `EvidenceMap.MarshalJSON` and
`ReceiverMap.MarshalJSON`. -/
def sorted {ν : Type} (m : GoMap String ν) : List ν :=
  (m.keys.insertionSort (· ≤ ·)).filterMap m.get

/-- `DecodeTrack`, of a document that fusion publishes. -/
def decodeTrack (t : Fusion.Track) : Option Track :=
  if t.trackID = "" then none
  else
    some {
      schemaVersion := if t.schemaVersion = "" then schemaVersion else t.schemaVersion
      trackID := t.trackID
      state := stateName t.state
      firstSeen := t.firstSeen
      lastSeen := t.lastSeen
      detectionCount := t.detectionCount
      identity := {
        serial := t.identity.serial
        macs := t.identity.macs
        vendor := t.identity.vendor
        operatorID := t.identity.operatorID
        uaType := t.identity.uaType }
      confidence := t.confidence
      evidence := (sorted t.evidence).map fun e ↦
        ⟨e.cls, e.sensorKind, e.weight, e.count, e.lastSeen⟩
      current := t.current.map .ofFusion
      history := t.history.map .ofFusion
      operator := t.operator.map .ofFusion
      rssiDBm := t.rssidBm
      receivers := (sorted t.receivers).map fun r ↦
        ⟨r.sensorID, r.sensorKind, r.detectionCount, r.rssidBm, some r.lastSeen⟩
      adsbCorrelated := t.adsbCorrelated }

/-! ## Redaction -/

@[simp] theorem Track.redact_trackID (t : Track) (expose : Bool) :
    (t.redact expose).trackID = t.trackID := by
  cases expose <;> rfl

@[simp] theorem Track.redact_record (t : Track) (expose : Bool) :
    (t.redact expose).record = t.record := by
  cases expose <;> rfl

/-- A redacted document of fusion's depends on nothing but the rest of it. -/
theorem map_redact_decodeTrack (t : Fusion.Track) :
    (decodeTrack t).map (·.redact false) = decodeTrack { t with operator := none } := by
  rw [decodeTrack, decodeTrack]
  split <;> rfl

end ClassG.Model
