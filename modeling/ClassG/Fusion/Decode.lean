import ClassG.ForGo.JsonDecode
import ClassG.Fusion.Detection

/-!
# Detections off the bus

What `json.Unmarshal` makes of a document on the sensor bus, for `ParseDetection`.  Fields that fusion
does not read are checked for their type.
-/

set_option autoImplicit false

namespace ClassG.Fusion

open GoJson

/-- A field that is decoded and not read. -/
def unread {ν μ : Type} (name : String) (zero : μ) (decode : Decoder μ) : String × Decoder ν :=
  field name (fun _ ↦ zero) (fun _ x ↦ x) decode

def rfFields : List (String × Decoder Detection.RF) := [
  unread "freq_hz" none (pointer 0 int64),
  unread "channel" none (pointer 0 int64),
  field "rssi_dbm" (·.rssidBm) (fun v x ↦ { x with rssidBm := v }) (pointer 0 float),
  unread "bandwidth_hz" none (pointer 0 int64)]

def identityFields : List (String × Decoder Detection.Identity) := [
  field "serial" (·.serial) (fun v x ↦ { x with serial := v }) string,
  field "mac" (·.mac) (fun v x ↦ { x with mac := v }) string,
  unread "id_type" "" string,
  field "ua_type" (·.uaType) (fun v x ↦ { x with uaType := v }) string,
  field "operator_id" (·.operatorID) (fun v x ↦ { x with operatorID := v }) string,
  unread "self_id" "" string,
  field "vendor_hint" (·.vendorHint) (fun v x ↦ { x with vendorHint := v }) string]

def positionFields : List (String × Decoder Detection.Position) := [
  field "lat" (·.lat) (fun v x ↦ { x with lat := v }) float,
  field "lon" (·.lon) (fun v x ↦ { x with lon := v }) float,
  field "alt_geodetic_m" (·.altGeodeticM) (fun v x ↦ { x with altGeodeticM := v })
    (pointer 0 float),
  field "height_agl_m" (·.heightAGLM) (fun v x ↦ { x with heightAGLM := v }) (pointer 0 float)]

def kinematicsFields : List (String × Decoder Detection.Kinematics) := [
  field "speed_mps" (·.speedMPS) (fun v x ↦ { x with speedMPS := v }) (pointer 0 float),
  field "track_deg" (·.trackDeg) (fun v x ↦ { x with trackDeg := v }) (pointer 0 float),
  unread "vertical_speed_mps" none (pointer 0 float)]

def operatorFields : List (String × Decoder Detection.Operator) := [
  field "lat" (·.lat) (fun v x ↦ { x with lat := v }) float,
  field "lon" (·.lon) (fun v x ↦ { x with lon := v }) float,
  unread "alt_m" none (pointer 0 float)]

def adsbFields : List (String × Decoder Detection.ADSB) := [
  field "icao" (·.icao) (fun v x ↦ { x with icao := v }) string,
  field "callsign" (·.callsign) (fun v x ↦ { x with callsign := v }) string,
  field "alt_ft" (·.altFt) (fun v x ↦ { x with altFt := v }) (pointer 0 int64)]

def detectionFields : List (String × Decoder Detection) := [
  field "schema_version" (·.schemaVersion) (fun v x ↦ { x with schemaVersion := v }) string,
  unread "detection_id" "" string,
  field "ts" (·.ts) (fun v x ↦ { x with ts := v }) time,
  field "sensor_id" (·.sensorID) (fun v x ↦ { x with sensorID := v }) string,
  field "sensor_kind" (·.sensorKind) (fun v x ↦ { x with sensorKind := v }) string,
  field "detection_class" (·.detectionClass) (fun v x ↦ { x with detectionClass := v }) string,
  field "rf" (·.rf) (fun v x ↦ { x with rf := v }) (struct rfFields),
  field "identity" (·.identity) (fun v x ↦ { x with identity := v }) (struct identityFields),
  field "position" (·.position) (fun v x ↦ { x with position := v })
    (pointer ⟨0, 0, none, none⟩ (struct positionFields)),
  field "kinematics" (·.kinematics) (fun v x ↦ { x with kinematics := v })
    (pointer {} (struct kinematicsFields)),
  field "operator" (·.operator) (fun v x ↦ { x with operator := v })
    (pointer ⟨0, 0⟩ (struct operatorFields)),
  field "adsb" (·.adsb) (fun v x ↦ { x with adsb := v }) (pointer {} (struct adsbFields))]

/-- The zero value. -/
def Detection.zero : Detection where
  schemaVersion := ""
  ts := 0
  sensorID := ""
  detectionClass := ""

/-- `json.Unmarshal`.  The text of its error is for a log. -/
def unmarshal (j : Json) : Except String Detection :=
  match struct detectionFields .zero j with
  | some d => .ok d
  | none => .error "json"

/-! ## Without the operator -/

/-- Without the operator's position. -/
def Detection.blind (d : Detection) : Detection := { d with operator := none }

/-- The members that tell where the operator is. -/
def operatorNames : List String := ["operator", "raw"]

/-- No other field has anything to do with it. -/
theorem hides_of_ne : ∀ f ∈ detectionFields, f.1 ∉ operatorNames → Hides Detection.blind f.2 := by
  intro f hf hne
  simp only [detectionFields, List.mem_cons, List.not_mem_nil, or_false] at hf
  rcases hf with rfl | rfl | rfl | rfl | rfl | rfl | rfl | rfl | rfl | rfl | rfl | rfl
  case inr.inr.inr.inr.inr.inr.inr.inr.inr.inr.inl => exact absurd (List.mem_cons_self) hne
  all_goals exact hides_field (fun _ ↦ rfl) fun _ _ ↦ rfl

/-- The members that tell where the operator is can be read. -/
def Readable (ms : List (String × Json)) : Prop :=
  ∀ m ∈ ms, isOneOf operatorNames m.1 = true → ∀ x,
    (member detectionFields x m).map Detection.blind = some x.blind

/-- **Documents that differ in these members only** are the same detection without the operator. -/
theorem map_blind_unmarshal {ms ms' : List (String × Json)} (h : Readable ms) (h' : Readable ms')
    (heq : ms.filter (fun m ↦ !isOneOf operatorNames m.1) =
      ms'.filter fun m ↦ !isOneOf operatorNames m.1) :
    (unmarshal (.obj ms)).map Detection.blind = (unmarshal (.obj ms')).map Detection.blind := by
  have hmembers : (members detectionFields .zero ms).map Detection.blind =
      (members detectionFields .zero ms').map Detection.blind := by
    rw [map_members hides_of_ne h, map_members hides_of_ne h', heq]
  have hmap (o : Option Detection) : Except.map Detection.blind
      (match o with | some d => .ok d | none => .error "json") =
      match o.map Detection.blind with | some d => .ok d | none => .error "json" := by
    cases o <;> rfl
  rw [unmarshal, unmarshal, hmap, hmap, struct, struct, hmembers]

end ClassG.Fusion
