import ClassG.ForRust.Parse
import ClassG.Schema.Detection

/-!
# Lines of an SBS-1 stream

`sensor-sdr/src/sbs.rs`: a line of dump1090 as a detection of class D, and the detection as
`serde_json` writes it.
-/

set_option autoImplicit false

namespace ClassG.Sdr

open RustText

/-! ## Detections -/

/-- `Position`. -/
structure Position where
  lat : Double
  lon : Double
  altGeodeticM : Option Double
  deriving DecidableEq

/-- `Kinematics`. -/
structure Kinematics where
  speedMPS : Option Double
  trackDeg : Option Double
  verticalSpeedMPS : Option Double
  deriving DecidableEq

/-- `Adsb`. -/
structure Adsb where
  icao : String
  callsign : Option String
  altFt : Option ℤ
  groundSpeedKt : Option Double
  deriving DecidableEq

/-- `Detection`, with the frequency of its `rf`. -/
structure Detection where
  schemaVersion : String
  detectionID : String
  ts : String
  sensorID : String
  sensorKind : String
  detectionClass : String
  rf : Option ℕ
  position : Option Position
  kinematics : Option Kinematics
  adsb : Option Adsb
  deriving DecidableEq

/-- A number as `serde_json` writes it: null, if it is not finite. -/
def jsonNumber (x : Double) : Json := Json.numOrNull x.toRat?

def Position.toJson (p : Position) : Json :=
  .obj ([("lat", jsonNumber p.lat), ("lon", jsonNumber p.lon)] ++
    Json.field "alt_geodetic_m" (p.altGeodeticM.map jsonNumber))

def Kinematics.toJson (k : Kinematics) : Json :=
  .obj (Json.field "speed_mps" (k.speedMPS.map jsonNumber) ++
    Json.field "track_deg" (k.trackDeg.map jsonNumber) ++
    Json.field "vertical_speed_mps" (k.verticalSpeedMPS.map jsonNumber))

def Adsb.toJson (a : Adsb) : Json :=
  .obj ([("icao", .str a.icao)] ++ Json.field "callsign" (a.callsign.map .str) ++
    Json.field "alt_ft" (a.altFt.map fun n : ℤ ↦ .num n) ++
    Json.field "ground_speed_kt" (a.groundSpeedKt.map jsonNumber))

/-- `serde_json::to_vec`. -/
def Detection.toJson (d : Detection) : Json :=
  .obj ([("schema_version", .str d.schemaVersion), ("detection_id", .str d.detectionID),
      ("ts", .str d.ts), ("sensor_id", .str d.sensorID), ("sensor_kind", .str d.sensorKind),
      ("detection_class", .str d.detectionClass)] ++
    Json.field "rf" (d.rf.map fun freq : ℕ ↦ .obj [("freq_hz", .num freq)]) ++
    Json.field "position" (d.position.map Position.toJson) ++
    Json.field "kinematics" (d.kinematics.map Kinematics.toJson) ++
    Json.field "adsb" (d.adsb.map Adsb.toJson))

/-! ## Lines -/

/-- `ParseError`. -/
inductive ParseError
  | notAnAircraftMessage
  | tooFewFields (n : ℕ)
  | missingICAO
  deriving DecidableEq

/-- `ADSB_FREQ_HZ`. -/
def adsbFreqHz : ℕ := 1090000000

/-- `FT_TO_M`. -/
def ftToM : ℚ := Double.nearest 0.3048

/-- `KT_TO_MPS`. -/
def ktToMPS : ℚ := Double.nearest 0.514444

/-- `field::MIN_FIELDS`. -/
def minFields : ℕ := 17

/-- `number::<f64>`. -/
def numberF64 (raw : List Char) : Option Double :=
  if trim raw = [] then none else parseF64 (trim raw)

/-- `number::<i64>`. -/
def numberI64 (raw : List Char) : Option ℤ :=
  if trim raw = [] then none else parseI64 (trim raw)

/-- `d.rem_euclid(360.0)`. -/
def remEuclid360 (d : Double) : Double :=
  let r := d.mod 360
  if r.lt (.fin 0) then r.add (.fin 360) else r

/-- A bearing as the schema has it. -/
def foldTrack (d : Double) : Double :=
  let t := remEuclid360 d
  if Double.le (.fin 360) t then .fin 0 else t

/-- The position of `parse_line`. -/
def positionOf (lat lon : Option Double) (altFt : Option ℤ) : Option Position :=
  match lat, lon with
  | some lat, some lon =>
    if ¬(lat = .fin 0 ∧ lon = .fin 0) ∧ Double.le (.fin (-90)) lat ∧ lat.le (.fin 90) ∧
        Double.le (.fin (-180)) lon ∧ lon.le (.fin 180) then
      some ⟨lat, lon, altFt.map fun ft ↦ (Double.round ft).scale ftToM⟩
    else none
  | _, _ => none

/-- The kinematics of `parse_line`. -/
def kinematicsOf (groundSpeedKt trackDeg verticalRateFpm : Option Double) : Option Kinematics :=
  if groundSpeedKt.isSome ∨ trackDeg.isSome ∨ verticalRateFpm.isSome then
    some {
      speedMPS := (groundSpeedKt.filter fun kt ↦ Double.le (.fin 0) kt).map fun kt ↦
        kt.scale ktToMPS
      trackDeg := trackDeg.map foldTrack
      verticalSpeedMPS := verticalRateFpm.map fun fpm ↦ (fpm.scale ftToM).scale (1 / 60) }
  else none

/-- `parse_line`. -/
def parseLine (upper : Char → List Char) (line : List Char) (sensorID nowRFC3339 : String) :
    Except ParseError Detection :=
  let fields := ((trim line).splitOn ',').map trim
  let fieldAt (i : ℕ) : List Char := fields.getD i []
  if fields.length < minFields then .error (.tooFewFields fields.length)
  else if fieldAt 0 ≠ "MSG".toList then .error .notAnAircraftMessage
  else
    let icao := toUppercase upper (fieldAt 4)
    if icao = [] then .error .missingICAO
    else
      let altFt := numberI64 (fieldAt 11)
      let groundSpeedKt := numberF64 (fieldAt 12)
      let callsign := trim (fieldAt 10)
      .ok {
        schemaVersion := "1.0"
        detectionID := ""
        ts := nowRFC3339
        sensorID
        sensorKind := "sdr"
        detectionClass := "D"
        rf := some adsbFreqHz
        position := positionOf (numberF64 (fieldAt 14)) (numberF64 (fieldAt 15)) altFt
        kinematics := kinematicsOf groundSpeedKt (numberF64 (fieldAt 13)) (numberF64 (fieldAt 16))
        adsb := some {
          icao := .ofList icao
          callsign := if callsign = [] then none else some (.ofList callsign)
          altFt, groundSpeedKt } }

end ClassG.Sdr
