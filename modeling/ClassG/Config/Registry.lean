import ClassG.ForGo.Map
import ClassG.ForGo.Strconv

/-!
# The registry of runtime settings

Package `settings` knows every setting by a `Def`: its key, its environment variable, its kind and
its default.  A raw text is read by `Def.parse` after the kind, and a `Value` is a setting with a
raw text that was read: there is no value with a text that its setting does not take.

The `Doc` of a setting is left out.  What `%q` and `%g` write is a parameter, `Verbs`; only the
texts of errors depend on it.
-/

set_option autoImplicit false

namespace ClassG.Config

open GoStrconv

/-! ## Definitions of settings -/

inductive Source
  | env | db | seed | default
  deriving DecidableEq, Repr

inductive Kind
  | string | bool | int | float | duration | sensorList | latLon
  deriving DecidableEq, Repr

/-- `Range`, inclusive. -/
structure Range where
  min : ℚ
  max : ℚ
  deriving DecidableEq

def Range.contains (r : Range) (v : Double) : Bool := (Double.fin r.min).le v && v.le (.fin r.max)

structure Def where
  key : String
  env : String
  kind : Kind
  default : String
  isMutable : Bool := false
  allowZero : Bool := false
  range : Option Range := none
  deriving DecidableEq

/-- `Defs`. -/
def defs : List Def := [
  { key := "bus.detection_endpoint", env := "CLASSG_DETECTION_ENDPOINT", kind := .string,
    default := "tcp://127.0.0.1:5556" },
  { key := "bus.track_endpoint", env := "CLASSG_TRACK_ENDPOINT", kind := .string,
    default := "tcp://127.0.0.1:5557" },
  { key := "bus.detection_topic", env := "CLASSG_DETECTION_TOPIC", kind := .string,
    default := "detection." },
  { key := "bus.track_topic", env := "CLASSG_TRACK_TOPIC", kind := .string, default := "track." },
  { key := "bus.heartbeat_topic", env := "CLASSG_HEARTBEAT_TOPIC", kind := .string,
    default := "heartbeat." },
  { key := "sensors.expected", env := "CLASSG_EXPECTED_SENSORS", kind := .sensorList,
    default := "", isMutable := true },
  { key := "sensors.stale_after", env := "CLASSG_SENSOR_STALE_AFTER", kind := .duration,
    default := "30s", isMutable := true },
  { key := "sensors.restart_command", env := "CLASSG_SENSOR_RESTART_COMMAND", kind := .string,
    default := "systemctl restart %s", isMutable := true },
  { key := "sensors.oui_registry", env := "CLASSG_WIFI_OUI_REGISTRY", kind := .string,
    default := "data/ieee-oui.csv", isMutable := true },
  { key := "fusion.track_ttl", env := "CLASSG_FUSION_TRACK_TTL", kind := .duration,
    default := "5m", isMutable := true },
  { key := "fusion.resume_within", env := "CLASSG_FUSION_RESUME_WITHIN", kind := .duration,
    default := "30m", isMutable := true },
  { key := "fusion.max_history", env := "CLASSG_MAX_HISTORY", kind := .int, default := "4096",
    isMutable := true },
  { key := "fusion.net_adsb", env := "CLASSG_FUSION_NET_ADSB", kind := .bool, default := "false",
    isMutable := true },
  { key := "fusion.net_adsb_url", env := "CLASSG_FUSION_NET_ADSB_URL", kind := .string,
    default := "https://api.adsb.lol", isMutable := true },
  { key := "fusion.net_adsb_radius_nm", env := "CLASSG_FUSION_NET_ADSB_RADIUS_NM", kind := .int,
    default := "25", isMutable := true, range := some ⟨1, 250⟩ },
  { key := "fusion.net_adsb_interval", env := "CLASSG_FUSION_NET_ADSB_INTERVAL",
    kind := .duration, default := "10s", isMutable := true },
  { key := "fusion.net_adsb_sensor_id", env := "CLASSG_FUSION_NET_ADSB_SENSOR_ID",
    kind := .string, default := "net-adsb-0", isMutable := true },
  { key := "fusion.terrain", env := "CLASSG_FUSION_TERRAIN", kind := .bool, default := "false",
    isMutable := true },
  { key := "fusion.terrain_url", env := "CLASSG_FUSION_TERRAIN_URL", kind := .string,
    default := "https://api.opentopodata.org", isMutable := true },
  { key := "fusion.terrain_dataset", env := "CLASSG_FUSION_TERRAIN_DATASET", kind := .string,
    default := "srtm30m", isMutable := true },
  { key := "fusion.terrain_min_interval", env := "CLASSG_FUSION_TERRAIN_MIN_INTERVAL",
    kind := .duration, default := "1s", isMutable := true, allowZero := true },
  { key := "fusion.terrain_geoid_offset_m", env := "CLASSG_FUSION_TERRAIN_GEOID_OFFSET_M",
    kind := .float, default := "0", isMutable := true, range := some ⟨-150, 150⟩ },
  { key := "fusion.aircraft_db", env := "CLASSG_FUSION_AIRCRAFT_DB", kind := .string,
    default := "", isMutable := true },
  { key := "retention.detections", env := "CLASSG_RETENTION_DETECTIONS", kind := .duration,
    default := "168h", isMutable := true },
  { key := "retention.tracks", env := "CLASSG_RETENTION_TRACKS", kind := .duration,
    default := "2160h", isMutable := true },
  { key := "retention.telemetry", env := "CLASSG_RETENTION_TELEMETRY", kind := .duration,
    default := "336h", isMutable := true },
  { key := "retention.sweeps", env := "CLASSG_RETENTION_SWEEPS", kind := .duration,
    default := "720h", isMutable := true },
  { key := "retention.interval", env := "CLASSG_RETENTION_INTERVAL", kind := .duration,
    default := "1h", isMutable := true },
  { key := "telemetry.interval", env := "CLASSG_TELEMETRY_INTERVAL", kind := .duration,
    default := "1m", isMutable := true },
  { key := "capture.wifi_interface", env := "CLASSG_WIFI_INTERFACE", kind := .string,
    default := "wlan1", isMutable := true },
  { key := "capture.wifi_channel", env := "CLASSG_WIFI_CHANNEL", kind := .int, default := "6",
    isMutable := true },
  { key := "capture.duration_s", env := "CLASSG_CAPTURE_DURATION_S", kind := .int,
    default := "120", isMutable := true },
  { key := "capture.label", env := "CLASSG_CAPTURE_LABEL", kind := .string,
    default := "sensor-capture", isMutable := true },
  { key := "capture.dir", env := "CLASSG_CAPTURE_DIR", kind := .string, default := "captures" },
  { key := "capture.allow_unprivileged", env := "CLASSG_CAPTURE_ALLOW_UNPRIVILEGED",
    kind := .bool, default := "false", isMutable := true },
  { key := "capture.sensor_wifi_dir", env := "CLASSG_SENSOR_WIFI_DIR", kind := .string,
    default := "../sensor-wifi" },
  { key := "capture.analyze_timeout", env := "CLASSG_ANALYZE_TIMEOUT", kind := .duration,
    default := "5m", isMutable := true },
  { key := "capture.python_bin", env := "CLASSG_PYTHON", kind := .string, default := "python3" },
  { key := "spectrum.sdr_bin", env := "CLASSG_SDR_BIN", kind := .string, default := "" },
  { key := "spectrum.sweep_timeout", env := "CLASSG_SWEEP_TIMEOUT", kind := .duration,
    default := "10m", isMutable := true },
  { key := "deploy.state_dir", env := "CLASSG_DEPLOY_STATE_DIR", kind := .string, default := "" },
  { key := "hooks.allow_private_targets", env := "CLASSG_HOOKS_ALLOW_PRIVATE", kind := .bool,
    default := "false", isMutable := true },
  { key := "retention.hook_deliveries", env := "CLASSG_RETENTION_HOOK_DELIVERIES",
    kind := .duration, default := "720h", isMutable := true },
  { key := "map.receiver_position", env := "CLASSG_RECEIVER_POSITION", kind := .latLon,
    default := "", isMutable := true },
  { key := "api.expose_operator_location", env := "CLASSG_EXPOSE_OPERATOR_LOCATION",
    kind := .bool, default := "true", isMutable := true },
  { key := "api.ui_dir", env := "CLASSG_UI_DIR", kind := .string, default := "../ui/dist" },
  { key := "api.version", env := "CLASSG_VERSION", kind := .string, default := "0.1.0" },
  { key := "monitoring.enabled", env := "CLASSG_MONITORING_ENABLED", kind := .bool,
    default := "true", isMutable := true }]

/-- `defByKey`. -/
def defByKey : GoMap String Def := defs.foldl (fun m d ↦ m.put d.key d) .empty

theorem nodup_keys : (defs.map (·.key)).Nodup := by decide +kernel

theorem defByKey_key {d : Def} (h : d ∈ defs) : defByKey.get d.key = some d :=
  GoMap.get_foldl_put (f := Def.key) (g := id) _ nodup_keys h

theorem mem_defs {key : String} {d : Def} (h : defByKey.get key = some d) :
    d ∈ defs ∧ d.key = key := by
  by_cases hkey : key ∈ defs.map (·.key)
  · obtain ⟨d', hd', rfl⟩ := List.mem_map.mp hkey
    rw [defByKey_key hd'] at h
    exact Option.some.inj h ▸ ⟨hd', rfl⟩
  · have hnone : defByKey.get key = none :=
      GoMap.get_foldl_put_of_notMem (f := Def.key) (g := id) _ hkey
    rw [hnone] at h
    cases h

/-! ## Typed values -/

structure SensorDecl where
  sensorID : String
  sensorKind : String
  optional : Bool
  deriving DecidableEq

structure ReceiverPosition where
  lat : Double
  lon : Double
  deriving DecidableEq

/-- What `parse` returns; a duration is returned as its text. -/
inductive Typed
  | string (s : String)
  | bool (b : Bool)
  | int (n : ℤ)
  | float (x : Double)
  | duration (text : String)
  | sensors (decls : List SensorDecl)
  | position (pos : Option ReceiverPosition)
  deriving DecidableEq

/-! ## Errors -/

/-- The verbs `%q` for a string and `%g` for a `float64`. -/
structure Verbs where
  q : String → String
  g : Double → String

inductive SensorError
  | shape (part : String)
  | kind (part : String)
  | third (part : String)
  | duplicate (id : String)
  deriving DecidableEq

def SensorError.text (v : Verbs) : SensorError → String
  | shape part => v.q part ++ " is not sensor_id:sensor_kind[:optional]"
  | kind part => v.q part ++ ": sensor_kind must be wifi, sdr or ble"
  | third part => v.q part ++ ": third field must be optional or required"
  | duplicate id => v.q id ++ ": duplicate sensor_id"

inductive ParseError
  | notBoolean (raw : String)
  | notInteger (raw : String)
  | intRange (r : Range) (n : ℤ)
  | notNumber (raw : String)
  | notFinite (raw : String)
  | floatRange (r : Range) (x : Double)
  | notDuration (raw : String)
  | notPositive (d : GoDuration)
  | sensors (errs : List SensorError)
  | notLatLon (raw : String)
  | latitude (raw : String)
  | longitude (raw : String)
  | latitudeRange (lat : Double)
  | longitudeRange (lon : Double)
  deriving DecidableEq

def ParseError.text (v : Verbs) : ParseError → String
  | notBoolean raw => v.q raw ++ " is not a boolean (use true or false)"
  | notInteger raw => v.q raw ++ " is not an integer"
  | intRange r n => "must be between " ++ v.g (.fin r.min) ++ " and " ++ v.g (.fin r.max) ++
      ", got " ++ toString n
  | notNumber raw => v.q raw ++ " is not a number"
  | notFinite raw => v.q raw ++ " is not a finite number"
  | floatRange r x => "must be between " ++ v.g (.fin r.min) ++ " and " ++ v.g (.fin r.max) ++
      ", got " ++ v.g x
  | notDuration raw => v.q raw ++ " is not a duration (e.g. 30s, 24h)"
  | notPositive d => "must be positive, got " ++ durationString d
  | sensors errs => "; ".intercalate (errs.map (·.text v))
  | notLatLon raw => v.q raw ++ " is not lat,lon"
  | latitude raw => v.q raw ++ ": latitude is not a number"
  | longitude raw => v.q raw ++ ": longitude is not a number"
  | latitudeRange lat => "latitude " ++ v.g lat ++ " out of range (-90 to 90)"
  | longitudeRange lon => "longitude " ++ v.g lon ++ " out of range (-180 to 180)"

/-! ## Parsing -/

/-- `strings.TrimSpace(s) == ""`. -/
def blank (s : String) : Bool := GoString.trimSpace s = ""

/-- `fields[2]`, if there is one. -/
def parseOptional : List String → Option Bool
  | [] => some false
  | third :: _ =>
    if third = "optional" then some true else if third = "required" then some false else none

/-- A part of a declaration of sensors. -/
def parseSensorDecl (seen : List String) (part : String) : Except SensorError SensorDecl :=
  match (GoString.split part ':').map GoString.trimSpace with
  | id :: kind :: rest =>
    if 1 < rest.length ∨ id = "" ∨ kind = "" then .error (.shape part)
    else if kind ∉ ["wifi", "sdr", "ble"] then .error (.kind part)
    else
      match parseOptional rest with
      | none => .error (.third part)
      | some optional =>
        if id ∈ seen then .error (.duplicate id)
        else .ok { sensorID := id, sensorKind := kind, optional := optional }
  | _ => .error (.shape part)

/-- The loop of `ParseSensorDecls`: the identifiers seen are those of the declarations so far. -/
def parseSensorParts : List SensorDecl → List SensorError → List String →
    List SensorDecl × List SensorError
  | out, errs, [] => (out, errs)
  | out, errs, part :: parts =>
    let part := GoString.trimSpace part
    if part = "" then parseSensorParts out errs parts
    else
      match parseSensorDecl (out.map (·.sensorID)) part with
      | .error err => parseSensorParts out (errs ++ [err]) parts
      | .ok decl => parseSensorParts (out ++ [decl]) errs parts

/-- `ParseSensorDecls`. -/
def parseSensorDecls (raw : String) : List SensorDecl × List SensorError :=
  if blank raw then ([], []) else parseSensorParts [] [] (GoString.split raw ',')

/-- `x < lo || x > hi`. -/
def outside (x : Double) (lo hi : ℚ) : Bool := x.lt (.fin lo) || (Double.fin hi).lt x

/-- `ParseReceiverPosition`. -/
def parseReceiverPosition (raw : String) : Except ParseError (Option ReceiverPosition) :=
  let raw := GoString.trimSpace raw
  if raw = "" then .ok none
  else
    match GoString.split raw ',' with
    | [first, second] =>
      match parseFloat (GoString.trimSpace first) with
      | none => .error (.latitude raw)
      | some lat =>
        match parseFloat (GoString.trimSpace second) with
        | none => .error (.longitude raw)
        | some lon =>
          if outside lat (-90) 90 then .error (.latitudeRange lat)
          else if outside lon (-180) 180 then .error (.longitudeRange lon)
          else .ok (some ⟨lat, lon⟩)
    | _ => .error (.notLatLon raw)

/-- `parse`. -/
def Def.parse (d : Def) (raw : String) : Except ParseError Typed :=
  match d.kind with
  | .string => .ok (.string raw)
  | .bool =>
    match parseBool raw with
    | none => .error (.notBoolean raw)
    | some b => .ok (.bool b)
  | .int =>
    match atoi raw with
    | none => .error (.notInteger raw)
    | some n =>
      match d.range with
      | some r => if r.contains (.round n) then .ok (.int n) else .error (.intRange r n)
      | none => .ok (.int n)
  | .float =>
    match parseFloat raw with
    | none => .error (.notNumber raw)
    | some (.fin x) =>
      match d.range with
      | some r =>
        if r.contains (.fin x) then .ok (.float (.fin x)) else .error (.floatRange r (.fin x))
      | none => .ok (.float (.fin x))
    | some _ => .error (.notFinite raw)
  | .duration =>
    match parseDuration raw with
    | none => .error (.notDuration raw)
    | some x =>
      if x < 0 ∨ (x = 0 ∧ d.allowZero = false) then .error (.notPositive x)
      else .ok (.duration (durationString x))
  | .sensorList =>
    match parseSensorDecls raw with
    | (decls, []) => .ok (.sensors decls)
    | (_, errs) => .error (.sensors errs)
  | .latLon => (parseReceiverPosition raw).map .position

/-- **Every default passes its own check.** -/
theorem parse_default : ∀ d ∈ defs, (d.parse d.default).isOk = true := by decide +kernel

/-- `Value`: the setting, the text it has, what the text was read as, and where it is from. -/
structure Value where
  definition : Def
  raw : String
  value : Typed
  source : Source
  parsed : definition.parse raw = .ok value
  deriving DecidableEq

namespace Value

/-- `Key`. -/
def key (x : Value) : String := x.definition.key

/-- `Mutable`. -/
def isMutable (x : Value) : Bool := x.definition.isMutable

/-- What is read is a matter of the text. -/
theorem ext_raw {x y : Value} (hd : x.definition = y.definition) (hr : x.raw = y.raw)
    (hs : x.source = y.source) : x = y := by
  obtain ⟨d, r, v, s, h⟩ := x
  obtain ⟨d', r', v', s', h'⟩ := y
  obtain rfl : d = d' := hd
  obtain rfl : r = r' := hr
  obtain rfl : s = s' := hs
  obtain rfl : v = v' := Except.ok.inj (h.symm.trans h')
  rfl

end Value

/-- `parse`, and the value made of what it returns. -/
def Def.read (d : Def) (raw : String) (source : Source) : Except ParseError Value :=
  match h : d.parse raw with
  | .error err => .error err
  | .ok typed => .ok ⟨d, raw, typed, source, h⟩

theorem Def.of_read {d : Def} {raw : String} {source : Source} {x : Value}
    (h : d.read raw source = .ok x) : x.definition = d ∧ x.raw = raw ∧ x.source = source := by
  unfold Def.read at h
  split at h
  · cases h
  · rw [← Except.ok.inj h]
    exact ⟨rfl, rfl, rfl⟩

theorem Def.isOk_of_error {d : Def} {raw : String} {source : Source} {err : ParseError}
    (h : d.read raw source = .error err) : (d.parse raw).isOk = false := by
  unfold Def.read at h
  split at h
  · rename_i hparse
    rw [hparse]
    rfl
  · cases h

theorem Def.exists_read {d : Def} {raw : String} (h : (d.parse raw).isOk) (source : Source) :
    ∃ x, d.read raw source = .ok x := by
  unfold Def.read
  split
  · rename_i hparse
    rw [hparse] at h
    cases h
  · exact ⟨_, rfl⟩

theorem Def.parse_of_read {d : Def} {raw : String} {source : Source} {x : Value}
    (h : d.read raw source = .ok x) : (d.parse raw).isOk := by
  obtain ⟨rfl, rfl, -⟩ := of_read h
  rw [x.parsed]
  rfl

end ClassG.Config
