import ClassG.JsonSchema

/-!
# The schema of detections

`schemas/detection.schema.json`, which every sensor writes and which fusion and the API read.  A
`format` is an annotation and asks for nothing.
-/

set_option autoImplicit false

namespace ClassG.Schema

open JsonSchema

/-- `^[0-9A-HJKMNP-TV-Z]{26}$`. -/
def IsULID (s : String) : Prop :=
  s.length = 26 ∧ ∀ c ∈ s.toList, ('0' ≤ c ∧ c ≤ '9') ∨ ('A' ≤ c ∧ c ≤ 'H') ∨
    c ∈ ['J', 'K', 'M', 'N'] ∨ ('P' ≤ c ∧ c ≤ 'T') ∨ ('V' ≤ c ∧ c ≤ 'Z')

/-- Two digits of `[0-9a-f]`. -/
def IsHexByte (cs : List Char) : Prop :=
  cs.length = 2 ∧ ∀ c ∈ cs, ('0' ≤ c ∧ c ≤ '9') ∨ ('a' ≤ c ∧ c ≤ 'f')

/-- `^([0-9a-f]{2}:){5}[0-9a-f]{2}$`. -/
def IsMAC (s : String) : Prop :=
  ∃ bytes : List (List Char), bytes.length = 6 ∧ (∀ b ∈ bytes, IsHexByte b) ∧
    s.toList = [':'].intercalate bytes

def anyString (_ : String) : Prop := True

def anyNumber (_ : ℚ) : Prop := True

/-- `"maxLength": 64`. -/
def short (s : String) : Prop := s.length ≤ 64

/-- `"minimum": 0`. -/
def nonneg (q : ℚ) : Prop := 0 ≤ q

/-- The bounds of a latitude. -/
def latitude (q : ℚ) : Prop := -90 ≤ q ∧ q ≤ 90

/-- The bounds of a longitude. -/
def longitude (q : ℚ) : Prop := -180 ≤ q ∧ q ≤ 180

/-- The bounds of `track_deg`, of which the upper one is exclusive. -/
def bearing (q : ℚ) : Prop := 0 ≤ q ∧ q < 360

/-- The bounds of `rssi_dbm`. -/
def signalStrength (q : ℚ) : Prop := -130 ≤ q ∧ q ≤ 20

/-- `rf`. -/
def rf : List Property := [
  ⟨"freq_hz", IsInteger nonneg, false⟩,
  ⟨"channel", OrNull (IsInteger anyNumber), false⟩,
  ⟨"rssi_dbm", OrNull (IsNumber signalStrength), false⟩,
  ⟨"bandwidth_hz", OrNull (IsInteger nonneg), false⟩,
  ⟨"snr_db", OrNull (IsNumber anyNumber), false⟩]

/-- The values of `id_type`. -/
def idTypes : List String :=
  ["none", "serial_ansi_cta_2063", "caa_registration", "utm_uuid", "specific_session"]

/-- The values of `ua_type`. -/
def uaTypes : List String :=
  ["undeclared", "aeroplane", "multirotor", "gyroplane", "hybrid_vtol", "ornithopter", "glider",
    "kite", "free_balloon", "captive_balloon", "airship", "parachute", "rocket",
    "tethered_powered", "ground_obstacle", "other"]

/-- `identity`. -/
def identity : List Property := [
  ⟨"serial", OrNull (IsString short), false⟩,
  ⟨"mac", OrNull (IsString IsMAC), false⟩,
  ⟨"id_type", OrNull (IsString (· ∈ idTypes)), false⟩,
  ⟨"ua_type", OrNull (IsString (· ∈ uaTypes)), false⟩,
  ⟨"operator_id", OrNull (IsString short), false⟩,
  ⟨"self_id", OrNull (IsString short), false⟩,
  ⟨"vendor_hint", OrNull (IsString anyString), false⟩]

/-- `position`. -/
def position : List Property := [
  ⟨"lat", IsNumber latitude, true⟩,
  ⟨"lon", IsNumber longitude, true⟩,
  ⟨"alt_geodetic_m", OrNull (IsNumber anyNumber), false⟩,
  ⟨"alt_pressure_m", OrNull (IsNumber anyNumber), false⟩,
  ⟨"height_agl_m", OrNull (IsNumber anyNumber), false⟩,
  ⟨"h_accuracy_m", OrNull (IsNumber anyNumber), false⟩,
  ⟨"v_accuracy_m", OrNull (IsNumber anyNumber), false⟩]

/-- `kinematics`. -/
def kinematics : List Property := [
  ⟨"speed_mps", OrNull (IsNumber nonneg), false⟩,
  ⟨"track_deg", OrNull (IsNumber bearing), false⟩,
  ⟨"vertical_speed_mps", OrNull (IsNumber anyNumber), false⟩]

/-- `operator`. -/
def operator : List Property := [
  ⟨"lat", IsNumber latitude, true⟩,
  ⟨"lon", IsNumber longitude, true⟩,
  ⟨"alt_m", OrNull (IsNumber anyNumber), false⟩]

/-- `signal_features`. -/
def signalFeatures : List Property := [
  ⟨"burst_rate_hz", OrNull (IsNumber anyNumber), false⟩,
  ⟨"burst_duration_us", OrNull (IsNumber anyNumber), false⟩,
  ⟨"duty_cycle", OrNull (IsNumber fun q ↦ 0 ≤ q ∧ q ≤ 1), false⟩,
  ⟨"hop_count", OrNull (IsInteger anyNumber), false⟩,
  ⟨"occupied_bw_hz", OrNull (IsInteger anyNumber), false⟩,
  ⟨"protocol_hint", OrNull (IsString anyString), false⟩]

/-- `adsb`. -/
def adsb : List Property := [
  ⟨"icao", IsString anyString, true⟩,
  ⟨"callsign", OrNull (IsString anyString), false⟩,
  ⟨"alt_ft", OrNull (IsInteger anyNumber), false⟩,
  ⟨"ground_speed_kt", OrNull (IsNumber anyNumber), false⟩]

/-- `raw`. -/
def raw : List Property := [
  ⟨"encoding", IsString (· = "base64"), true⟩,
  ⟨"bytes", IsString anyString, true⟩,
  ⟨"parser", IsString anyString, true⟩]

/-- The values of `sensor_kind`. -/
def sensorKinds : List String := ["wifi", "sdr", "ble", "net"]

/-- The values of `detection_class`. -/
def detectionClasses : List String := ["A", "B", "C", "D", "E", "F", "G", "H"]

/-- The properties of a detection. -/
def properties : List Property := [
  ⟨"schema_version", IsString (· = "1.0"), true⟩,
  ⟨"detection_id", IsString IsULID, true⟩,
  ⟨"ts", IsString anyString, true⟩,
  ⟨"sensor_id", IsString (1 ≤ ·.length), true⟩,
  ⟨"sensor_kind", IsString (· ∈ sensorKinds), true⟩,
  ⟨"detection_class", IsString (· ∈ detectionClasses), true⟩,
  ⟨"rf", IsObject rf, false⟩,
  ⟨"identity", IsObject identity, false⟩,
  ⟨"position", OrNull (IsObject position), false⟩,
  ⟨"kinematics", OrNull (IsObject kinematics), false⟩,
  ⟨"operator", OrNull (IsObject operator), false⟩,
  ⟨"signal_features", OrNull (IsObject signalFeatures), false⟩,
  ⟨"adsb", OrNull (IsObject adsb), false⟩,
  ⟨"raw", OrNull (IsObject raw), false⟩]

/-- A detection as the schema has it. -/
def IsDetection : Json → Prop := IsObject properties

end ClassG.Schema
