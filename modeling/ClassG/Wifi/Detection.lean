import ClassG.ForGo.Base64
import ClassG.Ulid.Pattern
import ClassG.Wifi.Dji
import ClassG.Wifi.Payload

/-!
# From payloads to detections

`classg_wifi/detection.py`: a dictionary is started with what every detection has, `base`, and each
kind of payload sets items of its own.  What is set is as the schema has it, so whether a detection
is comes down to what `base` makes of the beacon, `isDetection_base`, and there to the identifier of
the sensor and the signal strength.
-/

set_option autoImplicit false

namespace ClassG.Wifi

open JsonSchema Schema PyBytes PyFloat Odid Dji

/-- `_WIRE_ID_TYPES`. -/
def wireIDTypes : List String :=
  ["none", "serial_ansi_cta_2063", "caa_registration", "utm_uuid", "specific_session"]

/-- `_MAX_IDENTITY_STRING`. -/
def maxIdentityString : ℕ := 64

/-- What the clock and the random source give for one detection. -/
structure Draw where
  rand : List Byte
  nowMs : ℤ
  nowISO : String

/-- A character of base 64. -/
def b64Char (n : ℕ) : Char :=
  "ABCDEFGHIJKLMNOPQRSTUVWXYZabcdefghijklmnopqrstuvwxyz0123456789+/".toList.getD n 'A'

/-- `base64.b64encode`. -/
def b64encode (raw : List Byte) : String :=
  let chars := (Base64.toSextets raw).map b64Char
  .ofList (chars ++ List.replicate ((4 - chars.length % 4) % 4) '=')

/-- `d[name] = value`. -/
def setItem (d : List (String × Json)) (name : String) (value : Json) : List (String × Json) :=
  if d.any fun f ↦ f.1 = name then d.map fun f ↦ if f.1 = name then (name, value) else f
  else d ++ [(name, value)]

/-- `_position`. -/
def position (lat lon : Option ℚ) (extra : List (String × Json)) : Json :=
  match lat, lon with
  | some lat, some lon => .obj ([("lat", .num lat), ("lon", .num lon)] ++ extra)
  | _, _ => .null

/-- `_freq_to_channel`. -/
def freqToChannel (freqMHz : Option ℕ) : Option ℤ :=
  match freqMHz with
  | none => none
  | some freq =>
    if 2412 ≤ freq ∧ freq ≤ 2472 then some ((freq - 2412) / 5 + 1)
    else if freq = 2484 then some 14
    else if 5170 ≤ freq ∧ freq ≤ 5895 then some ((freq - 5000) / 5)
    else none

/-- The block `rf` of `_base`: the frequency is left out where there is none, or zero. -/
def rfBlock (beacon : Beacon) : Json :=
  .obj ([("channel", .numOrNull ((freqToChannel beacon.freqMHz).map (↑))),
    ("rssi_dbm", .numOrNull (beacon.rssiDBM.map (↑))), ("bandwidth_hz", .num (20000000 : ℕ))] ++
    Json.field "freq_hz" ((beacon.freqMHz.filter (· ≠ 0)).map fun freq ↦
      .num ((freq * 1000000 : ℕ) : ℚ)))

/-- `_base`. -/
def base (sensorID detectionClass : String) (beacon : Beacon) (draw : Draw) (raw : List Byte)
    (parser : String) : List (String × Json) := [
  ("schema_version", .str "1.0"),
  ("detection_id", .str (Ulid.ulid draw.rand draw.nowMs)),
  ("ts", .str draw.nowISO),
  ("sensor_id", .str sensorID),
  ("sensor_kind", .str "wifi"),
  ("detection_class", .str detectionClass),
  ("rf", rfBlock beacon),
  ("raw", .obj [("encoding", .str "base64"), ("bytes", .str (b64encode raw)),
    ("parser", .str parser)])]

/-- The block `identity` of `from_odid`. -/
def odidIdentity (beacon : Beacon) (payload : OdidPayload) : List (String × Json) :=
  [("mac", .str beacon.transmitter)] ++
    (match payload.basicID with
    | some b =>
      [("serial", Json.strOrNull b.uasID),
        ("id_type", if b.idType ∈ wireIDTypes then .str b.idType else .null),
        ("ua_type", .str b.uaType)] ++ Json.field "vendor_hint" (b.vendor.map .str)
    | none => []) ++
    Json.field "operator_id" (payload.operatorID.map fun m ↦ .strOrNull m.operatorID) ++
    Json.field "self_id" (payload.selfID.map fun m ↦ .strOrNull m.description)

/-- The block `kinematics`. -/
def kinematicsBlock (speedMPS trackDeg verticalSpeedMPS : Option ℚ) : Json :=
  .obj [("speed_mps", .numOrNull speedMPS), ("track_deg", .numOrNull trackDeg),
    ("vertical_speed_mps", .numOrNull verticalSpeedMPS)]

/-- The items of `from_odid` that come from a location. -/
def setLocation (d : List (String × Json)) (loc : Location) : List (String × Json) :=
  setItem
    (setItem d "position" (position loc.lat loc.lon [
      ("alt_geodetic_m", .numOrNull loc.altGeodeticM),
      ("alt_pressure_m", .numOrNull loc.altPressureM),
      ("height_agl_m", .numOrNull (if loc.heightIsAGL then loc.heightM else none)),
      ("h_accuracy_m", .numOrNull loc.hAccuracyM),
      ("v_accuracy_m", .numOrNull loc.vAccuracyM)]))
    "kinematics" (kinematicsBlock loc.speedMPS loc.trackDeg loc.verticalSpeedMPS)

/-- `from_odid`. -/
def fromOdid (sensorID : String) (beacon : Beacon) (payload : OdidPayload) (raw : List Byte)
    (draw : Draw) : Json :=
  let d := base sensorID "A" beacon draw raw s!"odid/{payload.protocolVersion}"
  let d := setItem d "identity" (.obj (odidIdentity beacon payload))
  let d := match payload.location with
    | some loc => setLocation d loc
    | none => d
  let d := match payload.system with
    | some m => setItem d "operator"
        (position m.operatorLat m.operatorLon [("alt_m", .numOrNull m.operatorAltM)])
    | none => d
  .obj d

/-- `from_dji`. -/
def fromDji (libm : Libm) (sensorID : String) (beacon : Beacon) (payload : DjiPayload)
    (raw : List Byte) (draw : Draw) : Json :=
  match payload with
  | .flightPurpose p =>
    let purpose := p.purpose.map fun s ↦ String.ofList (s.toList.take maxIdentityString)
    let d := base sensorID "B" beacon draw raw "dji/0x11"
    .obj (setItem d "identity" (.obj [("mac", .str beacon.transmitter),
      ("serial", .strOrNull p.serial), ("self_id", .strOrNull purpose),
      ("vendor_hint", .str "dji")]))
  | .telemetry t =>
    let d := base sensorID "B" beacon draw raw "dji/0x10"
    let d := setItem d "identity" (.obj [("mac", .str beacon.transmitter),
      ("serial", .strOrNull t.serial), ("id_type", .str "serial_ansi_cta_2063"),
      ("vendor_hint", .str "dji")])
    let d := setItem d "position"
      (position t.lat t.lon [("alt_geodetic_m", .numOrNull t.altitudeM)])
    let d := setItem d "kinematics"
      (kinematicsBlock (t.speedMPS libm) (t.trackDeg libm) t.vUpMPS)
    .obj (setItem d "operator" (position t.operatorLat t.operatorLon []))

/-- `from_fingerprint`. -/
def fromFingerprint (sensorID : String) (beacon : Beacon) (vendor reason : String) (draw : Draw) :
    Json :=
  let d := base sensorID "C" beacon draw [] s!"fingerprint/{reason}"
  let d := setItem d "identity"
    (.obj [("mac", .str beacon.transmitter), ("vendor_hint", .str vendor)])
  .obj (setItem d "raw" .null)

/-! ## Setting an item -/

theorem allChecked_setItem {props : List Property} {d : List (String × Json)} {name : String}
    {value : Json} (hnew : Checked props name value)
    (hold : ∀ f ∈ d, f.1 = name → Checked props name f.2) :
    AllChecked props (setItem d name value) ↔ AllChecked props d := by
  rw [setItem]
  split
  · rw [AllChecked, List.forall_mem_map]
    refine forall₂_congr fun f hf ↦ ?_
    split
    · rename_i hname
      exact iff_of_true hnew (hname ▸ hold f hf hname)
    · rfl
  · rw [allChecked_append, allChecked_cons]
    exact and_iff_left ⟨hnew, allChecked_nil props⟩

theorem has_setItem {d : List (String × Json)} {n : String} (h : Has d n) (name : String)
    (value : Json) : Has (setItem d name value) n := by
  rw [setItem]
  split
  · obtain ⟨f, hf, rfl⟩ := h
    refine ⟨_, List.mem_map_of_mem hf, ?_⟩
    split
    · rename_i hname
      exact hname.symm
    · rfl
  · exact has_append_left _ h

/-- An item of another name is not one that is set. -/
theorem mem_of_mem_setItem {d : List (String × Json)} {name : String} {value : Json}
    {f : String × Json} (hf : f ∈ setItem d name value) (hne : f.1 ≠ name) : f ∈ d := by
  rw [setItem] at hf
  split at hf
  · obtain ⟨g, hg, rfl⟩ := List.mem_map.mp hf
    split at hne
    · exact absurd rfl hne
    · rename_i hname
      rwa [if_neg hname]
  · rcases List.mem_append.mp hf with hf | hf
    · exact hf
    · exact absurd (congrArg Prod.fst (List.mem_singleton.mp hf)) hne

/-- The items that are set on top of what every detection has. -/
def blocks : List String := ["identity", "position", "kinematics", "operator", "raw"]

/-- A dictionary that has what is required, in which the blocks are as the schema has them, and the
rest is just if `c` holds. -/
structure Accounted (d : List (String × Json)) (c : Prop) : Prop where
  has : ∀ p ∈ properties, p.required → Has d p.name
  blocks : ∀ f ∈ d, f.1 ∈ blocks → Checked properties f.1 f.2
  iff : AllChecked properties d ↔ c

theorem Accounted.isDetection_iff {d : List (String × Json)} {c : Prop} (h : Accounted d c) :
    IsDetection (.obj d) ↔ c := by
  rw [IsDetection, isObject_obj, and_iff_left h.has]
  exact h.iff

/-- **Setting a block that is as the schema has it.** -/
theorem Accounted.setItem {d : List (String × Json)} {c : Prop} (h : Accounted d c) {name : String}
    (hname : name ∈ Wifi.blocks) {value : Json} (hvalue : Checked properties name value) :
    Accounted (setItem d name value) c where
  has p hp hreq := has_setItem (h.has p hp hreq) name value
  blocks f hf hmem := by
    by_cases hne : f.1 = name
    · rw [Wifi.setItem] at hf
      split at hf
      · obtain ⟨g, hg, rfl⟩ := List.mem_map.mp hf
        split
        · exact hvalue
        · rename_i hg'
          rw [if_neg hg'] at hmem
          exact h.blocks g hg hmem
      · rcases List.mem_append.mp hf with hf | hf
        · exact h.blocks f hf hmem
        · rw [List.mem_singleton.mp hf]
          exact hvalue
    · exact h.blocks f (mem_of_mem_setItem hf hne) hmem
  iff := (allChecked_setItem hvalue fun f hf hf' ↦ hf' ▸ h.blocks f hf (hf' ▸ hname)).trans h.iff

/-! ## The blocks -/

/-- What the schema asks of a detection beyond what the decoders grant. -/
structure Admissible (sensorID : String) (beacon : Beacon) : Prop where
  sensorID : 1 ≤ sensorID.length
  rssi : ∀ r ∈ beacon.rssiDBM, r ≤ 20

theorem isObject_rf_iff {channel bandwidth : Json} {rssi : Option ℚ} {freqHz : Option Json}
    (hchannel : OrNull (IsInteger anyNumber) channel)
    (hbandwidth : OrNull (IsInteger nonneg) bandwidth) (hfreq : ∀ v ∈ freqHz, IsInteger nonneg v) :
    IsObject Schema.rf (.obj ([("channel", channel), ("rssi_dbm", .numOrNull rssi),
      ("bandwidth_hz", bandwidth)] ++ Json.field "freq_hz" freqHz)) ↔
        ∀ q ∈ rssi, signalStrength q := by
  have hfreq' : ∀ v, freqHz = some v → IsInteger nonneg v := hfreq
  rw [isObject_obj]
  simpa [Checked, Schema.rf, hchannel, hbandwidth] using fun _ ↦ hfreq'

/-- **What the radio says** is as the schema has it just if the signal is no stronger than 20. -/
theorem isObject_rf {beacon : Beacon} (hlow : ∀ r ∈ beacon.rssiDBM, -128 ≤ r) :
    IsObject Schema.rf (rfBlock beacon) ↔ ∀ r ∈ beacon.rssiDBM, r ≤ 20 := by
  have hchannel : OrNull (IsInteger anyNumber)
      (Json.numOrNull ((freqToChannel beacon.freqMHz).map (↑))) := by
    cases freqToChannel beacon.freqMHz with
    | none => trivial
    | some channel => exact (isInteger_intCast _ _).mpr trivial
  have hfreq : ∀ v ∈ (beacon.freqMHz.filter (· ≠ 0)).map fun freq : ℕ ↦
      Json.num ((freq * 1000000 : ℕ) : ℚ), IsInteger nonneg v := by
    intro v hv
    obtain ⟨freq, -, rfl⟩ := Option.map_eq_some_iff.mp hv
    exact (isInteger_natCast _ _).mpr (Nat.cast_nonneg _)
  have hbandwidth : OrNull (IsInteger nonneg) (.num (20000000 : ℕ)) :=
    (isInteger_natCast _ _).mpr (Nat.cast_nonneg _)
  rw [rfBlock, isObject_rf_iff hchannel hbandwidth hfreq, Option.forall_mem_map]
  refine forall₂_congr fun r hr ↦ ?_
  have hr' : -130 ≤ r := (hlow r hr).trans' (by norm_num)
  have hr' : (-130 : ℚ) ≤ r := by exact_mod_cast hr'
  exact (and_iff_right hr').trans (by exact_mod_cast Iff.rfl)

theorem isObject_raw (bytes parser : String) : IsObject Schema.raw
    (.obj [("encoding", .str "base64"), ("bytes", .str bytes), ("parser", .str parser)]) := by
  simp [isObject_obj, Checked, Schema.raw, anyString]

/-- **What every detection has** is as the schema has it just if the beacon is admissible. -/
theorem accounted_base {sensorID detectionClass : String} {beacon : Beacon}
    (hclass : detectionClass ∈ detectionClasses) (hlow : ∀ r ∈ beacon.rssiDBM, -128 ≤ r)
    (draw : Draw) (raw : List Byte) (parser : String) :
    Accounted (base sensorID detectionClass beacon draw raw parser)
      (Admissible sensorID beacon) where
  has := by simp [properties, base]
  blocks := by
    have hraw := isObject_raw (b64encode raw) parser
    simp [base, blocks, Checked, properties, hraw]
  iff := by
    have hulid := Ulid.isULID_ulid draw.rand draw.nowMs
    have hkind : "wifi" ∈ sensorKinds := by decide
    have hraw := isObject_raw (b64encode raw) parser
    have hiff : Admissible sensorID beacon ↔
        1 ≤ sensorID.length ∧ ∀ r ∈ beacon.rssiDBM, r ≤ 20 :=
      ⟨fun h ↦ ⟨h.1, h.2⟩, fun h ↦ ⟨h.1, h.2⟩⟩
    rw [hiff, ← isObject_rf hlow]
    simp [Checked, properties, base, hclass, hulid, anyString, hkind, hraw]

/-! ## What the builders set -/

/-- A position is both angles, in range, or null. -/
theorem orNull_position {rest : List Property} (hrest : ∀ p ∈ rest, p.required = false)
    {lat lon : Option ℚ} (hlat : ∀ q ∈ lat, latitude q) (hlon : ∀ q ∈ lon, longitude q)
    {extra : List (String × Json)} (hextra : AllChecked rest extra) :
    OrNull (IsObject (⟨"lat", IsNumber latitude, true⟩ :: ⟨"lon", IsNumber longitude, true⟩ :: rest))
      (Wifi.position lat lon extra) := by
  rw [Wifi.position.eq_def]
  split
  · have hlat' : latitude _ := hlat _ rfl
    have hlon' : longitude _ := hlon _ rfl
    have hextra' : AllChecked (⟨"lat", IsNumber latitude, true⟩ ::
        ⟨"lon", IsNumber longitude, true⟩ :: rest) extra := fun f hf ↦ by
      obtain ⟨p, hp, hcheck⟩ := hextra f hf
      exact ⟨p, List.mem_cons_of_mem _ (List.mem_cons_of_mem _ hp), hcheck⟩
    rw [orNull_obj, isObject_obj, allChecked_append, and_iff_left hextra']
    simp +contextual [Checked, hlat', hlon', hrest]
  · trivial

theorem checked_position {lat lon : Option ℚ} (hlat : ∀ q ∈ lat, latitude q)
    (hlon : ∀ q ∈ lon, longitude q) {extra : List (String × Json)}
    (hextra : AllChecked (Schema.position.drop 2) extra) :
    Checked properties "position" (Wifi.position lat lon extra) :=
  ⟨⟨"position", OrNull (IsObject Schema.position), false⟩, by simp [properties], rfl,
    orNull_position (by simp) hlat hlon hextra⟩

theorem checked_operator {lat lon : Option ℚ} (hlat : ∀ q ∈ lat, latitude q)
    (hlon : ∀ q ∈ lon, longitude q) {extra : List (String × Json)}
    (hextra : AllChecked (Schema.operator.drop 2) extra) :
    Checked properties "operator" (Wifi.position lat lon extra) :=
  ⟨⟨"operator", OrNull (IsObject Schema.operator), false⟩, by simp [properties], rfl,
    orNull_position (by simp) hlat hlon hextra⟩

theorem checked_kinematics {speedMPS trackDeg : Option ℚ} (hspeed : ∀ q ∈ speedMPS, nonneg q)
    (htrack : ∀ q ∈ trackDeg, bearing q) (verticalSpeedMPS : Option ℚ) :
    Checked properties "kinematics" (kinematicsBlock speedMPS trackDeg verticalSpeedMPS) := by
  have hspeed' : ∀ q, speedMPS = some q → nonneg q := hspeed
  have htrack' : ∀ q, trackDeg = some q → bearing q := htrack
  have hkinematics : IsObject Schema.kinematics
      (kinematicsBlock speedMPS trackDeg verticalSpeedMPS) := by
    rw [kinematicsBlock, isObject_obj]
    simpa [Checked, Schema.kinematics, anyNumber] using ⟨hspeed', htrack'⟩
  rw [kinematicsBlock] at hkinematics ⊢
  simpa [Checked, properties] using hkinematics

theorem checked_identity {fields : List (String × Json)} (h : AllChecked Schema.identity fields) :
    Checked properties "identity" (.obj fields) := by
  have hidentity : IsObject Schema.identity (.obj fields) := by
    rw [isObject_obj, and_iff_right h]
    simp [Schema.identity]
  simpa [Checked, properties] using hidentity

/-- The identity that a record gives. -/
theorem allChecked_odidIdentity {beacon : Beacon} (hmac : IsMAC beacon.transmitter)
    {payload : OdidPayload} (h : payload.InRange) :
    AllChecked Schema.identity (odidIdentity beacon payload) := by
  have hbasic : ∀ b, payload.basicID = some b → b.InRange := by
    intro b hb
    refine h.basicIDs b ?_
    simp only [OdidPayload.basicID, Option.orElse_eq_orElse, Option.orElse_eq_or,
      Option.or_eq_some_iff] at hb
    rcases hb with hb | ⟨-, hb | ⟨-, hb⟩⟩
    · exact List.mem_of_find?_eq_some hb
    · exact List.mem_of_find?_eq_some hb
    · exact List.mem_of_mem_head? hb
  have hoperator : ∀ v ∈ payload.operatorID.map fun m ↦ Json.strOrNull m.operatorID,
      Checked Schema.identity "operator_id" v := by
    rw [Option.forall_mem_map]
    exact fun m hm ↦ by simpa [Checked, Schema.identity] using h.operatorID m hm
  have hself : ∀ v ∈ payload.selfID.map fun m ↦ Json.strOrNull m.description,
      Checked Schema.identity "self_id" v := by
    rw [Option.forall_mem_map]
    exact fun m hm ↦ by simpa [Checked, Schema.identity] using h.selfID m hm
  rw [odidIdentity, allChecked_append, allChecked_append, allChecked_append, allChecked_field,
    allChecked_field]
  refine ⟨⟨⟨by simpa [Checked, Schema.identity] using hmac, ?_⟩, hoperator⟩, hself⟩
  cases hb : payload.basicID with
  | none => exact allChecked_nil _
  | some b =>
    obtain ⟨hserial, hua⟩ := hbasic b hb
    have hid : OrNull (IsString (· ∈ Schema.idTypes))
        (if b.idType ∈ wireIDTypes then .str b.idType else .null) := by
      split
      · rename_i hwire
        exact hwire
      · trivial
    have hserial' : ∀ s, b.uasID = some s → short s := hserial
    simpa [Checked, Schema.identity, hid, hua, anyString] using hserial'

/-! ## The builders -/

variable {sensorID : String} {beacon : Beacon}

/-- **Class A.** -/
theorem isDetection_fromOdid (hmac : IsMAC beacon.transmitter)
    (hlow : ∀ r ∈ beacon.rssiDBM, -128 ≤ r) {payload : OdidPayload} (h : payload.InRange)
    (raw : List Byte) (draw : Draw) :
    IsDetection (fromOdid sensorID beacon payload raw draw) ↔ Admissible sensorID beacon := by
  rw [fromOdid]
  have hidentity : Accounted (setItem (base sensorID "A" beacon draw raw
      s!"odid/{payload.protocolVersion}") "identity" (.obj (odidIdentity beacon payload)))
      (Admissible sensorID beacon) :=
    (accounted_base (by decide) hlow draw raw _).setItem (by decide)
      (checked_identity (allChecked_odidIdentity hmac h))
  generalize setItem (base sensorID "A" beacon draw raw s!"odid/{payload.protocolVersion}") "identity"
    (.obj (odidIdentity beacon payload)) = d at hidentity
  have hlocation : Accounted (match payload.location with
      | some loc => setLocation d loc
      | none => d) (Admissible sensorID beacon) := by
    cases hloc : payload.location with
    | none => exact hidentity
    | some loc =>
      obtain ⟨hlat, hlon, hspeed, htrack⟩ := h.location loc hloc
      exact (hidentity.setItem (by decide) (checked_position hlat hlon
        (by simp [Checked, Schema.position, anyNumber]))).setItem (by decide)
        (checked_kinematics hspeed htrack _)
  refine Accounted.isDetection_iff ?_
  cases hsys : payload.system with
  | none => exact hlocation
  | some m =>
    obtain ⟨hlat, hlon⟩ := h.system m hsys
    exact hlocation.setItem (by decide) (checked_operator hlat hlon
      (by simp [Checked, Schema.operator, anyNumber]))

/-- **Class B.**  The purpose of a flight is cut to what the schema allows. -/
theorem isDetection_fromDji {libm : Libm} (hlibm : libm.Sound) (hmac : IsMAC beacon.transmitter)
    (hlow : ∀ r ∈ beacon.rssiDBM, -128 ≤ r) {payload : DjiPayload} (h : payload.InRange)
    (raw : List Byte) (draw : Draw) :
    IsDetection (fromDji libm sensorID beacon payload raw draw) ↔ Admissible sensorID beacon := by
  cases payload with
  | telemetry t =>
    have hserial : ∀ s, t.serial = some s → short s :=
      fun s hs ↦ (DjiTelemetry.InRange.serial h s hs).trans (by norm_num)
    refine Accounted.isDetection_iff (Accounted.setItem (Accounted.setItem (Accounted.setItem
      (Accounted.setItem (accounted_base (by decide) hlow draw raw _) (by decide)
        (checked_identity ?_)) (by decide) (checked_position h.lat h.lon ?_)) (by decide)
        (checked_kinematics (speedMPS_nonneg hlibm t) (trackDeg_mem hlibm h) _)) (by decide)
        (checked_operator h.operatorLat h.operatorLon (allChecked_nil _)))
    · have hid : "serial_ansi_cta_2063" ∈ Schema.idTypes := by decide
      simpa [Checked, Schema.identity, hmac, hid, anyString] using hserial
    · simp [Checked, Schema.position, anyNumber]
  | flightPurpose p =>
    have hserial : ∀ s, p.serial = some s → short s := fun s hs ↦ (h s hs).trans (by norm_num)
    have hpurpose : ∀ s : String, short (.ofList (s.toList.take maxIdentityString)) := by
      intro s
      rw [short, String.length_ofList, List.length_take]
      exact min_le_left _ _
    refine Accounted.isDetection_iff ((accounted_base (by decide) hlow draw raw _).setItem
      (by decide) (checked_identity ?_))
    simpa [Checked, Schema.identity, hmac, hpurpose, anyString] using hserial

/-- **Class C.** -/
theorem isDetection_fromFingerprint (hmac : IsMAC beacon.transmitter)
    (hlow : ∀ r ∈ beacon.rssiDBM, -128 ≤ r) (vendor reason : String) (draw : Draw) :
    IsDetection (fromFingerprint sensorID beacon vendor reason draw) ↔
      Admissible sensorID beacon := by
  refine Accounted.isDetection_iff ?_
  refine ((accounted_base (by decide) hlow draw _ _).setItem (by decide)
    (checked_identity ?_)).setItem (by decide) ?_
  · simp [Checked, Schema.identity, hmac, anyString]
  · simp [Checked, properties]

end ClassG.Wifi
