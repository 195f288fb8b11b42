import Mathlib.Data.Rat.Defs
import ClassG.ForGo.Time

/-!
# Detections

What a sensor reports, as `services/fusion/detection.go` declares it.  Sensors report
observations; fusion is the only component that decides what constitutes an aircraft.

The fields kept here are the ones fusion reads.  A field the sensor may leave out is an `Option`
where the source has a pointer, and the empty string where the source has a plain `string`.
Coordinates, altitudes and signal strengths are the rationals that the decoded `float64`s denote:
JSON carries neither NaN nor an infinity.
-/

set_option autoImplicit false

namespace ClassG.Fusion

/-- The detection class carrying manned traffic from the SDR sensor. -/
def classADSB : String := "D"

/-- The `rf` block: how strongly the detection was received. -/
structure Detection.RF where
  rssidBm : Option ℚ := none
  deriving DecidableEq, Repr

/-- The `identity` block: who the aircraft says it is, and the radio it said so with. -/
structure Detection.Identity where
  serial : String := ""
  mac : String := ""
  uaType : String := ""
  operatorID : String := ""
  vendorHint : String := ""
  deriving DecidableEq, Repr

/-- The `position` block: where the aircraft says it is. -/
structure Detection.Position where
  lat : ℚ
  lon : ℚ
  altGeodeticM : Option ℚ := none
  heightAGLM : Option ℚ := none
  deriving DecidableEq, Repr

/-- The `kinematics` block. -/
structure Detection.Kinematics where
  speedMPS : Option ℚ := none
  trackDeg : Option ℚ := none
  deriving DecidableEq, Repr

/-- The `operator` block: where the pilot stands. -/
structure Detection.Operator where
  lat : ℚ
  lon : ℚ
  deriving DecidableEq, Repr

/-- The `adsb` block of a Class D detection. -/
structure Detection.ADSB where
  icao : String := ""
  callsign : String := ""
  altFt : Option ℤ := none
  deriving DecidableEq, Repr

/-- One observation by one sensor. -/
structure Detection where
  schemaVersion : String := "1.0"
  ts : GoTime
  sensorID : String
  sensorKind : String := ""
  detectionClass : String
  rf : Detection.RF := {}
  identity : Detection.Identity := {}
  position : Option Detection.Position := none
  kinematics : Option Detection.Kinematics := none
  operator : Option Detection.Operator := none
  adsb : Option Detection.ADSB := none
  deriving DecidableEq, Repr

/-- `ParseDetection` after the JSON decoder: a decoding error is passed on, a detection without
its required fields is refused, and a position of exactly 0,0 is no position. -/
def parseDetection (decoded : Except String Detection) : Except String Detection :=
  match decoded with
  | .error err => .error ("decode detection: " ++ err)
  | .ok d =>
    if d.schemaVersion = "" ∨ d.detectionClass = "" ∨ d.sensorID = "" then
      .error "detection missing required fields"
    else
      -- a bad sensor build must not be able to drag every track to the Gulf of Guinea
      match d.position with
      | some p => .ok { d with position := if p.lat = 0 ∧ p.lon = 0 then none else some p }
      | none => .ok d

theorem parseDetection_sensorID {decoded : Except String Detection} {d : Detection}
    (h : parseDetection decoded = .ok d) : d.sensorID ≠ "" := by
  unfold parseDetection at h
  split at h
  · cases h
  · split at h
    · cases h
    · rename_i hreq
      push Not at hreq
      split at h <;> (cases h; exact hreq.2.2)

/-- `DefaultWeights`; a class that is not listed weighs nothing. -/
def defaultWeights (cls : String) : ℚ :=
  match cls with
  | "A" => 60 / 100
  | "B" => 50 / 100
  | "C" => 10 / 100
  | "D" => 0
  | "E" => 30 / 100
  | "F" => 25 / 100
  | "G" => 60 / 100
  | "H" => 0
  | _ => 0

end ClassG.Fusion
