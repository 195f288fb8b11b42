import ClassG.Binary64
import ClassG.ForGo.Strings
import ClassG.ForGo.Timestamp
import ClassG.Schema.Detection
import ClassG.Ulid.Encoders

/-!
# The network feed of ADS-B

`fusion/netadsb.go`: the aircraft of a response, as detections.  A response is taken as it is
decoded, so its numbers are finite.  What Go makes of a float that is too large for an `int64` is up
to the machine: `Hardware`.
-/

set_option autoImplicit false

namespace ClassG.Fusion.Net

/-- `netAltitude`. -/
structure Altitude where
  feet : Option ℤ := none
  onGround : Bool := false
  deriving DecidableEq

/-- `netAircraft`. -/
structure Aircraft where
  hex : String
  flight : String := ""
  altBaro : Altitude := {}
  lat : Option ℚ := none
  lon : Option ℚ := none
  groundSp : Option ℚ := none
  track : Option ℚ := none
  seen : Option ℚ := none
  seenPos : Option ℚ := none
  deriving DecidableEq

/-- The fields of `NetADSBConfig` that a poll reads, after `applyDefaults`. -/
structure Config where
  sensorID : String
  maxAge : GoDuration
  maxAircraft : ℕ
  sensorID_ne : sensorID ≠ ""
  maxAge_mem : 0 < maxAge ∧ maxAge ≤ GoDuration.maxDuration

/-- `applyDefaults`, of a configuration that says nothing. -/
def Config.default : Config where
  sensorID := "net-adsb-0"
  maxAge := GoDuration.minute
  maxAircraft := 250
  sensorID_ne := by decide
  maxAge_mem := by decide

/-- What a conversion gives that does not fit: an `int64`. -/
structure Hardware where
  overflow : Double → ℤ
  overflow_mem : ∀ x, GoDuration.minDuration ≤ overflow x ∧ overflow x ≤ GoDuration.maxDuration

/-- A machine that saturates. -/
def Hardware.saturating : Hardware where
  overflow x := if x.lt (.fin 0) then GoDuration.minDuration else GoDuration.maxDuration
  overflow_mem x := by split <;> decide

/-- `time.Duration(x)`, of a float: the fraction is dropped. -/
def Hardware.toDuration (hw : Hardware) (x : Double) : GoDuration :=
  match x with
  | .fin q =>
    let n := if 0 ≤ q then ⌊q⌋ else ⌈q⌉
    if GoDuration.minDuration ≤ n ∧ n ≤ GoDuration.maxDuration then n else hw.overflow x
  | _ => hw.overflow x

/-- What `newID` draws on: the milliseconds of the clock and random bytes. -/
structure Draw where
  milli : ℤ
  entropy : Option Ulid.Entropy

def Draw.newID (draw : Draw) : String := Ulid.newULID draw.milli draw.entropy

/-- `netPosition`. -/
structure Position where
  lat : ℚ
  lon : ℚ
  deriving DecidableEq

/-- `netKinematics`. -/
structure Kinematics where
  speedMPS : Option Double
  trackDeg : Option Double
  deriving DecidableEq

/-- `netADSB`. -/
structure ADSB where
  icao : String
  callsign : String
  altFt : Option ℤ
  deriving DecidableEq

/-- `netDetection`.  `ts` is the instant, which is formatted to the millisecond. -/
structure Detection where
  schemaVersion : String
  detectionID : String
  ts : GoTime
  sensorID : String
  sensorKind : String
  detectionClass : String
  position : Option Position
  kinematics : Option Kinematics
  adsb : ADSB
  deriving DecidableEq

/-! ## Conversion -/

/-- The age in seconds: that of the position, else that of the aircraft, and none if it is
negative. -/
def Aircraft.age (ac : Aircraft) : ℚ := max ((ac.seenPos.or ac.seen).getD 0) 0

/-- `time.Duration(age * float64(time.Second))`. -/
def Aircraft.ageDuration (hw : Hardware) (ac : Aircraft) : GoDuration :=
  hw.toDuration (.round (ac.age * GoDuration.second))

/-- A heading without full turns. -/
def foldTrack (track : ℚ) : Double :=
  let deg := Double.mod (.fin track) 360
  if deg.lt (.fin 0) then deg.add (.fin 360) else deg

/-- The factor from knots to metres a second. -/
def ktToMPS : ℚ := Double.nearest 0.514444

/-- The position of an aircraft. -/
def Aircraft.position (ac : Aircraft) : Option Position :=
  match ac.lat, ac.lon with
  | some lat, some lon => if lat = 0 ∧ lon = 0 then none else some ⟨lat, lon⟩
  | _, _ => none

/-- The kinematics of an aircraft. -/
def Aircraft.kinematics (ac : Aircraft) : Option Kinematics :=
  let k : Kinematics := {
    speedMPS := (ac.groundSp.filter fun gs ↦ 0 ≤ gs).map fun gs ↦ .round (gs * ktToMPS)
    trackDeg := ac.track.map foldTrack }
  if k.speedMPS.isSome ∨ k.trackDeg.isSome then some k else none

/-- `convert`, with what it draws its identifier from. -/
def convert (upper : Char → Char) (hw : Hardware) (cfg : Config) (ac : Aircraft) (now : GoTime)
    (draw : Draw) : Option Detection :=
  let icao := GoString.toUpper upper (GoString.trimSpace ac.hex)
  if icao = "" then none
  else if ac.altBaro.onGround then none
  else if cfg.maxAge < ac.ageDuration hw then none
  else some {
    schemaVersion := "1.0"
    detectionID := draw.newID
    ts := now + GoDuration.neg (ac.ageDuration hw)
    sensorID := cfg.sensorID
    sensorKind := "net"
    detectionClass := "D"
    position := ac.position
    kinematics := ac.kinematics
    adsb := ⟨icao, GoString.trimSpace ac.flight, ac.altBaro.feet⟩ }

/-! ## Encoding -/

/-- `Format("2006-01-02T15:04:05.000Z07:00")`, of a time in UTC. -/
def formatMillis (t : GoTime) : String :=
  let s := GoTime.stamp t
  .ofList ((GoTime.formatSeconds s ++ 46 :: GoBytes.decimals 3 (s.nanos.toNat / 1000000) ++
    [90]).map fun b : Byte ↦ Char.ofNat b.val)

/-- A number, which `json.Marshal` refuses if it is not finite. -/
def marshalNumber (x : Double) : Option Json := x.toRat?.map .num

/-- A pointer with `omitempty`. -/
def marshalOptional (name : String) : Option Double → Option (List (String × Json))
  | none => some []
  | some x => (marshalNumber x).map fun v ↦ [(name, v)]

def Position.toJson (p : Position) : Json := .obj [("lat", .num p.lat), ("lon", .num p.lon)]

def Kinematics.toJson (k : Kinematics) : Option Json := do
  let speed ← marshalOptional "speed_mps" k.speedMPS
  let track ← marshalOptional "track_deg" k.trackDeg
  return .obj (speed ++ track)

def ADSB.toJson (a : ADSB) : Json :=
  .obj ([("icao", .str a.icao)] ++
    Json.field "callsign" (if a.callsign = "" then none else some (.str a.callsign)) ++
    Json.field "alt_ft" (a.altFt.map fun n : ℤ ↦ .num n))

/-- `json.Marshal`. -/
def Detection.toJson (d : Detection) : Option Json := do
  let kinematics ← match d.kinematics with
    | none => some []
    | some k => k.toJson.map fun v ↦ [("kinematics", v)]
  return .obj ([("schema_version", .str d.schemaVersion), ("detection_id", .str d.detectionID),
      ("ts", .str (formatMillis d.ts)), ("sensor_id", .str d.sensorID),
      ("sensor_kind", .str d.sensorKind), ("detection_class", .str d.detectionClass)] ++
    Json.field "position" (d.position.map Position.toJson) ++ kinematics ++
    [("adsb", d.adsb.toJson)])

/-! ## Polling -/

/-- The loop of `Poll`: what it has so far, and none if a detection cannot be encoded. -/
def pollLoop (upper : Char → Char) (hw : Hardware) (cfg : Config) (now : GoTime) :
    List (Aircraft × Draw) → List (Detection × Json) → Option (List (Detection × Json))
  | [], payloads => some payloads
  | (ac, draw) :: rest, payloads =>
    if cfg.maxAircraft ≤ payloads.length then some payloads
    else
      match convert upper hw cfg ac now draw with
      | none => pollLoop upper hw cfg now rest payloads
      | some d =>
        match d.toJson with
        | none => none
        | some body => pollLoop upper hw cfg now rest (payloads ++ [(d, body)])

/-- `Poll`, from the decoded response on: each payload with the detection it encodes. -/
def poll (upper : Char → Char) (hw : Hardware) (cfg : Config) (now : GoTime)
    (aircraft : List (Aircraft × Draw)) : Option (List (Detection × Json)) :=
  pollLoop upper hw cfg now aircraft []

end ClassG.Fusion.Net
