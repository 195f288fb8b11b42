import ClassG.ForGo.JsonDecode
import ClassG.Store.Record
import Mathlib.Data.Rat.Floor

/-!
# The detection of the API

`Detection` of `api/internal/model`, with all that a sensor may send in it: what `DecodeDetection`
reads from the bus, what the stores keep, and what `Redact` leaves for clients.

`Redact` clears `operator`.  It leaves `raw`, which has the bytes that the sensor decoded the
operator's position from.
-/

set_option autoImplicit false

namespace ClassG.Model

open GoJson

/-! ## The document -/

/-- `SchemaVersion`. -/
def schemaVersion : String := "1.0"

/-- `Position`. -/
structure Position where
  lat : ℚ := 0
  lon : ℚ := 0
  altGeodeticM : Option ℚ := none
  altPressureM : Option ℚ := none
  heightAGLM : Option ℚ := none
  terrainElevationM : Option ℚ := none
  speedMPS : Option ℚ := none
  trackDeg : Option ℚ := none
  hAccuracyM : Option ℚ := none
  vAccuracyM : Option ℚ := none
  atTime : GoTime := 0
  deriving DecidableEq, Repr

/-- `OperatorPosition`. -/
structure OperatorPosition where
  lat : ℚ := 0
  lon : ℚ := 0
  altM : Option ℚ := none
  atTime : GoTime := 0
  deriving DecidableEq, Repr

/-- `RF`. -/
structure RF where
  freqHz : Option ℤ := none
  channel : Option ℤ := none
  rssiDBm : Option ℚ := none
  bandwidthHz : Option ℤ := none
  snrDB : Option ℚ := none
  deriving DecidableEq, Repr

/-- `DetectionIdentity`. -/
structure DetectionIdentity where
  serial : String := ""
  mac : String := ""
  idType : String := ""
  uaType : String := ""
  operatorID : String := ""
  selfID : String := ""
  vendorHint : String := ""
  deriving DecidableEq, Repr

/-- `Kinematics`. -/
structure Kinematics where
  speedMPS : Option ℚ := none
  trackDeg : Option ℚ := none
  verticalSpeedMPS : Option ℚ := none
  deriving DecidableEq, Repr

/-- `SignalFeatures`. -/
structure SignalFeatures where
  burstRateHz : Option ℚ := none
  burstDurationUS : Option ℚ := none
  dutyCycle : Option ℚ := none
  hopCount : Option ℤ := none
  occupiedBWHz : Option ℤ := none
  protocolHint : String := ""
  deriving DecidableEq, Repr

/-- `ADSB`. -/
structure ADSB where
  icao : String := ""
  callsign : String := ""
  altFt : Option ℤ := none
  groundSpeedKt : Option ℚ := none
  deriving DecidableEq, Repr

/-- `Raw`: the element of a beacon that the sensor decoded. -/
structure Raw where
  encoding : String := ""
  bytes : String := ""
  parser : String := ""
  deriving DecidableEq, Repr

/-- `Detection`. -/
structure Detection where
  schemaVersion : String := ""
  detectionID : String := ""
  ts : GoTime := 0
  sensorID : String := ""
  sensorKind : String := ""
  detectionClass : String := ""
  rf : Option RF := none
  identity : DetectionIdentity := {}
  position : Option Position := none
  kinematics : Option Kinematics := none
  operator : Option OperatorPosition := none
  signalFeatures : Option SignalFeatures := none
  adsb : Option ADSB := none
  raw : Option Raw := none
  deriving DecidableEq, Repr

/-- `Redact`. -/
def Detection.redact (d : Detection) (expose : Bool) : Detection :=
  if expose then d else { d with operator := none }

/-- What the stores look at. -/
def Detection.record (d : Detection) : Store.Detection where
  detectionID := .ofString d.detectionID
  ts := d.ts
  sensorID := d.sensorID
  detectionClass := d.detectionClass
  rf := d.rf.map fun rf ↦ ⟨rf.rssiDBm⟩
  identity := { serial := d.identity.serial, mac := d.identity.mac }

/-! ## Decoding -/

/-- Seconds from the zero time to 1970. -/
def unixToInternal : ℤ := 62135596800

/-- `FlexTime`: a text, or seconds since 1970 with a fraction of at most nine digits, of which the
sign counts for the whole seconds only. -/
def flexTime : Decoder GoTime
  | x, .null => some x
  | x, .str s => if s = "" then some x else GoTime.parseRFC3339Nano (.ofString s)
  | _, .num q =>
    let seconds := if 0 ≤ q then ⌊q⌋ else ⌈q⌉
    let nanos := |q - seconds| * 10 ^ 9
    if nanos.den = 1 ∧ -2 ^ 63 ≤ seconds ∧ seconds < 2 ^ 63 then
      some ((unixToInternal + seconds) * GoDuration.second + nanos.num)
    else none
  | _, _ => none

def positionFields : List (String × Decoder Position) := [
  field "lat" (·.lat) (fun v x ↦ { x with lat := v }) float,
  field "lon" (·.lon) (fun v x ↦ { x with lon := v }) float,
  field "alt_geodetic_m" (·.altGeodeticM) (fun v x ↦ { x with altGeodeticM := v })
    (pointer 0 float),
  field "alt_pressure_m" (·.altPressureM) (fun v x ↦ { x with altPressureM := v })
    (pointer 0 float),
  field "height_agl_m" (·.heightAGLM) (fun v x ↦ { x with heightAGLM := v }) (pointer 0 float),
  field "terrain_elevation_m" (·.terrainElevationM) (fun v x ↦ { x with terrainElevationM := v })
    (pointer 0 float),
  field "speed_mps" (·.speedMPS) (fun v x ↦ { x with speedMPS := v }) (pointer 0 float),
  field "track_deg" (·.trackDeg) (fun v x ↦ { x with trackDeg := v }) (pointer 0 float),
  field "h_accuracy_m" (·.hAccuracyM) (fun v x ↦ { x with hAccuracyM := v }) (pointer 0 float),
  field "v_accuracy_m" (·.vAccuracyM) (fun v x ↦ { x with vAccuracyM := v }) (pointer 0 float),
  field "at" (·.atTime) (fun v x ↦ { x with atTime := v }) time]

def operatorFields : List (String × Decoder OperatorPosition) := [
  field "lat" (·.lat) (fun v x ↦ { x with lat := v }) float,
  field "lon" (·.lon) (fun v x ↦ { x with lon := v }) float,
  field "alt_m" (·.altM) (fun v x ↦ { x with altM := v }) (pointer 0 float),
  field "at" (·.atTime) (fun v x ↦ { x with atTime := v }) time]

def rfFields : List (String × Decoder RF) := [
  field "freq_hz" (·.freqHz) (fun v x ↦ { x with freqHz := v }) (pointer 0 int64),
  field "channel" (·.channel) (fun v x ↦ { x with channel := v }) (pointer 0 int64),
  field "rssi_dbm" (·.rssiDBm) (fun v x ↦ { x with rssiDBm := v }) (pointer 0 float),
  field "bandwidth_hz" (·.bandwidthHz) (fun v x ↦ { x with bandwidthHz := v }) (pointer 0 int64),
  field "snr_db" (·.snrDB) (fun v x ↦ { x with snrDB := v }) (pointer 0 float)]

def identityFields : List (String × Decoder DetectionIdentity) := [
  field "serial" (·.serial) (fun v x ↦ { x with serial := v }) string,
  field "mac" (·.mac) (fun v x ↦ { x with mac := v }) string,
  field "id_type" (·.idType) (fun v x ↦ { x with idType := v }) string,
  field "ua_type" (·.uaType) (fun v x ↦ { x with uaType := v }) string,
  field "operator_id" (·.operatorID) (fun v x ↦ { x with operatorID := v }) string,
  field "self_id" (·.selfID) (fun v x ↦ { x with selfID := v }) string,
  field "vendor_hint" (·.vendorHint) (fun v x ↦ { x with vendorHint := v }) string]

def kinematicsFields : List (String × Decoder Kinematics) := [
  field "speed_mps" (·.speedMPS) (fun v x ↦ { x with speedMPS := v }) (pointer 0 float),
  field "track_deg" (·.trackDeg) (fun v x ↦ { x with trackDeg := v }) (pointer 0 float),
  field "vertical_speed_mps" (·.verticalSpeedMPS) (fun v x ↦ { x with verticalSpeedMPS := v })
    (pointer 0 float)]

def signalFeaturesFields : List (String × Decoder SignalFeatures) := [
  field "burst_rate_hz" (·.burstRateHz) (fun v x ↦ { x with burstRateHz := v }) (pointer 0 float),
  field "burst_duration_us" (·.burstDurationUS) (fun v x ↦ { x with burstDurationUS := v })
    (pointer 0 float),
  field "duty_cycle" (·.dutyCycle) (fun v x ↦ { x with dutyCycle := v }) (pointer 0 float),
  field "hop_count" (·.hopCount) (fun v x ↦ { x with hopCount := v }) (pointer 0 int64),
  field "occupied_bw_hz" (·.occupiedBWHz) (fun v x ↦ { x with occupiedBWHz := v })
    (pointer 0 int64),
  field "protocol_hint" (·.protocolHint) (fun v x ↦ { x with protocolHint := v }) string]

def adsbFields : List (String × Decoder ADSB) := [
  field "icao" (·.icao) (fun v x ↦ { x with icao := v }) string,
  field "callsign" (·.callsign) (fun v x ↦ { x with callsign := v }) string,
  field "alt_ft" (·.altFt) (fun v x ↦ { x with altFt := v }) (pointer 0 int64),
  field "ground_speed_kt" (·.groundSpeedKt) (fun v x ↦ { x with groundSpeedKt := v })
    (pointer 0 float)]

def rawFields : List (String × Decoder Raw) := [
  field "encoding" (·.encoding) (fun v x ↦ { x with encoding := v }) string,
  field "bytes" (·.bytes) (fun v x ↦ { x with bytes := v }) string,
  field "parser" (·.parser) (fun v x ↦ { x with parser := v }) string]

def detectionFields : List (String × Decoder Detection) := [
  field "schema_version" (·.schemaVersion) (fun v x ↦ { x with schemaVersion := v }) string,
  field "detection_id" (·.detectionID) (fun v x ↦ { x with detectionID := v }) string,
  field "ts" (·.ts) (fun v x ↦ { x with ts := v }) flexTime,
  field "sensor_id" (·.sensorID) (fun v x ↦ { x with sensorID := v }) string,
  field "sensor_kind" (·.sensorKind) (fun v x ↦ { x with sensorKind := v }) string,
  field "detection_class" (·.detectionClass) (fun v x ↦ { x with detectionClass := v }) string,
  field "rf" (·.rf) (fun v x ↦ { x with rf := v }) (pointer {} (struct rfFields)),
  field "identity" (·.identity) (fun v x ↦ { x with identity := v }) (struct identityFields),
  field "position" (·.position) (fun v x ↦ { x with position := v })
    (pointer {} (struct positionFields)),
  field "kinematics" (·.kinematics) (fun v x ↦ { x with kinematics := v })
    (pointer {} (struct kinematicsFields)),
  field "operator" (·.operator) (fun v x ↦ { x with operator := v })
    (pointer {} (struct operatorFields)),
  field "signal_features" (·.signalFeatures) (fun v x ↦ { x with signalFeatures := v })
    (pointer {} (struct signalFeaturesFields)),
  field "adsb" (·.adsb) (fun v x ↦ { x with adsb := v }) (pointer {} (struct adsbFields)),
  field "raw" (·.raw) (fun v x ↦ { x with raw := v }) (pointer {} (struct rawFields))]

/-- `DecodeDetection`. -/
def decodeDetection (j : Json) : Option Detection := do
  let d ← struct detectionFields {} j
  let d := if d.schemaVersion = "" then { d with schemaVersion := schemaVersion } else d
  if d.sensorID = "" ∨ d.detectionClass ∉ Store.detectionClasses then none
  else
    some { d with
      position := d.position.filter fun p ↦ ¬(p.lat = 0 ∧ p.lon = 0)
      operator := d.operator.filter fun p ↦ ¬(p.lat = 0 ∧ p.lon = 0) }

end ClassG.Model
