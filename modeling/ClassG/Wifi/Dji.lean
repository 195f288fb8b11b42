import ClassG.ForPython.Float
import ClassG.Wifi.Dot11

/-!
# DroneID over Wi-Fi

`classg_wifi/parsers/dji.py`.  A payload that is too short gives what is there of it, so a field is
a number or nothing, whatever comes before it: `Gives` is what a reader grants from any position,
and its rules put the fields of a record together.
-/

set_option autoImplicit false

namespace ClassG.Wifi.Dji

open PyBytes PyFloat

/-- `DJI_OUI`. -/
def oui : List Byte := [0x26, 0x37, 0x12]

/-- `SUBCMD_TELEMETRY`. -/
def subcmdTelemetry : ℕ := 0x10

/-- `SUBCMD_FLIGHT_PURPOSE`. -/
def subcmdFlightPurpose : ℕ := 0x11

/-- `RAD_SCALE`. -/
def radScale : ℚ := Double.nearest (10 ^ 7 / radToDeg)

/-- The keys of `SCALES`. -/
inductive Scale
  | altitudeM
  | heightM
  | velocityMPS
  | attitudeDeg

/-- `SCALES`. -/
def scales : Scale → ℚ
  | .altitudeM => 1
  | .heightM => 1
  | .velocityMPS => Double.nearest 0.1
  | .attitudeDeg => Double.nearest 0.1

/-- `DjiTelemetry`. -/
structure DjiTelemetry where
  version : ℕ
  sequence : ℕ
  stateInfo : ℕ
  serial : Option String
  lat : Option ℚ
  lon : Option ℚ
  altitudeM : Option ℚ
  heightM : Option ℚ
  vNorthMPS : Option ℚ
  vEastMPS : Option ℚ
  vUpMPS : Option ℚ
  pitchDeg : Option ℚ
  rollDeg : Option ℚ
  yawDeg : Option ℚ
  operatorLat : Option ℚ
  operatorLon : Option ℚ
  homeLat : Option ℚ
  homeLon : Option ℚ
  productType : Option ℕ
  uuid : Option String
  raw : List (String × Option ℤ)

/-- `speed_mps`. -/
def DjiTelemetry.speedMPS (libm : Libm) (t : DjiTelemetry) : Option ℚ := do
  let vNorth ← t.vNorthMPS
  let vEast ← t.vEastMPS
  return libm.hypot vNorth vEast

/-- `track_deg`. -/
def DjiTelemetry.trackDeg (libm : Libm) (t : DjiTelemetry) : Option ℚ := do
  let vNorth ← t.vNorthMPS
  let vEast ← t.vEastMPS
  if vNorth = 0 ∧ vEast = 0 then none else mod (degrees (libm.atan2 vEast vNorth)) 360

/-- `DjiFlightPurpose`. -/
structure DjiFlightPurpose where
  serial : Option String
  purpose : Option String

/-- What an element holds. -/
inductive DjiPayload
  | telemetry (t : DjiTelemetry)
  | flightPurpose (p : DjiFlightPurpose)

/-! ## Reading -/

/-- `_Reader`. -/
structure Reader where
  buf : List Byte
  pos : ℕ

/-- `_take`. -/
def take (n : ℕ) : StateM Reader (Option (List Byte)) := fun r ↦
  if r.buf.length < r.pos + n then (none, { r with pos := r.buf.length })
  else (some (slice r.buf r.pos (r.pos + n)), { r with pos := r.pos + n })

/-- `u8`. -/
def u8 : StateM Reader (Option ℕ) := do return (← take 1).map unsigned

/-- `u16`. -/
def u16 : StateM Reader (Option ℕ) := do return (← take 2).map unsigned

/-- `i16`. -/
def i16 : StateM Reader (Option ℤ) := do return (← take 2).map (signed 16 ∘ unsigned)

/-- `i32`. -/
def i32 : StateM Reader (Option ℤ) := do return (← take 4).map (signed 32 ∘ unsigned)

/-- `text`. -/
def text (n : ℕ) : StateM Reader (Option String) := do return (← take n).bind decodeString

/-- `_angle`. -/
def angle (raw : Option ℤ) (limitDeg : ℚ := 180) : Option ℚ :=
  match raw with
  | none => none
  | some raw =>
    if raw = 0 then none
    else
      let deg := Double.nearest (raw / radScale)
      if -limitDeg ≤ deg ∧ deg ≤ limitDeg then some deg else none

/-- `_scaled`. -/
def scaled (raw : Option ℤ) (key : Scale) : Option ℚ :=
  raw.map fun raw : ℤ ↦ Double.nearest (raw * scales key)

/-- Two angles, or none of them. -/
def both (lat lon : Option ℚ) : Option ℚ × Option ℚ :=
  if lat = none ∨ lon = none then (none, none) else (lat, lon)

/-- `r.text(length) if length else None`. -/
def textOf (length : ℕ) : StateM Reader (Option String) :=
  if length ≠ 0 then text length else pure none

/-- `_parse_telemetry`. -/
def parseTelemetry : StateM Reader DjiTelemetry := do
  let version ← u8
  let sequence ← u16
  let stateInfo ← u16
  let serial ← text 16
  let rawLon ← i32
  let rawLat ← i32
  let altitude ← i16
  let height ← i16
  let vNorth ← i16
  let vEast ← i16
  let vUp ← i16
  let pitch ← i16
  let roll ← i16
  let yaw ← i16
  let rawOpLat ← i32
  let rawOpLon ← i32
  let rawHomeLon ← i32
  let rawHomeLat ← i32
  let productType ← u8
  let uuidLen ← u8
  let uuid ← textOf (uuidLen.getD 0)
  let position := both (angle rawLat 90) (angle rawLon)
  return {
    version := version.getD 0
    sequence := sequence.getD 0
    stateInfo := stateInfo.getD 0
    serial
    lat := position.1
    lon := position.2
    altitudeM := scaled altitude .altitudeM
    heightM := scaled height .heightM
    vNorthMPS := scaled vNorth .velocityMPS
    vEastMPS := scaled vEast .velocityMPS
    vUpMPS := scaled vUp .velocityMPS
    pitchDeg := scaled pitch .attitudeDeg
    rollDeg := scaled roll .attitudeDeg
    yawDeg := scaled yaw .attitudeDeg
    operatorLat := angle rawOpLat 90
    operatorLon := angle rawOpLon
    homeLat := angle rawHomeLat 90
    homeLon := angle rawHomeLon
    productType, uuid
    raw := [("altitude", altitude), ("height", height), ("v_north", vNorth), ("v_east", vEast),
      ("v_up", vUp), ("pitch", pitch), ("roll", roll), ("yaw", yaw), ("lat", rawLat),
      ("lon", rawLon), ("operator_lat", rawOpLat), ("operator_lon", rawOpLon)] }

/-- `_parse_flight_purpose`. -/
def parseFlightPurpose : StateM Reader DjiFlightPurpose := do
  let serial ← text 16
  let length ← u8
  let purpose ← textOf (length.getD 0)
  return { serial, purpose }

/-- `parse_vendor_ie`. -/
def parseVendorIE (ieBody : List Byte) : Except Raised (Option DjiPayload) := do
  if ieBody.length < 7 ∨ slice ieBody 0 3 ≠ oui then return none
  let subcommand ← item ieBody 6
  let r : Reader := ⟨ieBody, 7⟩
  if subcommand = subcmdTelemetry then return some (.telemetry (parseTelemetry r).1)
  if subcommand = subcmdFlightPurpose then return some (.flightPurpose (parseFlightPurpose r).1)
  throw (.parse s!"unknown DJI DroneID subcommand 0x{String.ofList (hexByte subcommand)}")

/-! ## What a reader grants -/

/-- What is read has this property, from any position. -/
def Gives {α : Type} (x : StateM Reader α) (P : α → Prop) : Prop := ∀ r, P (x r).1

variable {α β : Type}

theorem Gives.pure {P : α → Prop} {a : α} (h : P a) : Gives (Pure.pure a) P := fun _ ↦ h

theorem Gives.bind {P : α → Prop} {Q : β → Prop} {x : StateM Reader α} {f : α → StateM Reader β}
    (hx : Gives x P) (hf : ∀ a, P a → Gives (f a) Q) : Gives (x >>= f) Q := fun r ↦
  hf _ (hx r) _

theorem Gives.mono {P Q : α → Prop} {x : StateM Reader α} (hx : Gives x P) (h : ∀ a, P a → Q a) :
    Gives x Q := fun r ↦ h _ (hx r)

theorem Gives.true (x : StateM Reader α) : Gives x fun _ ↦ True := fun _ ↦ trivial

theorem gives_take (n : ℕ) : Gives (take n) fun b ↦ ∀ bs ∈ b, bs.length = n := by
  intro r bs hbs
  rw [take] at hbs
  split at hbs
  · cases hbs
  · cases hbs
    exact length_slice (by omega)

theorem gives_i16 : Gives i16 fun v ↦ ∀ q ∈ v, -32768 ≤ q ∧ q ≤ 32767 := by
  refine (gives_take 2).bind fun b hb ↦ Gives.pure fun q hq ↦ ?_
  obtain ⟨bs, hbs, rfl⟩ := Option.map_eq_some_iff.mp hq
  have hlt := unsigned_lt bs
  rw [hb bs hbs] at hlt
  have hmem := signed_mem (n := 16) (by norm_num) hlt
  norm_num at hmem
  rw [Function.comp_apply]
  omega

theorem gives_text (n : ℕ) : Gives (text n) fun s ↦ ∀ t ∈ s, t.length ≤ n := by
  refine (gives_take n).bind fun b hb ↦ Gives.pure fun t ht ↦ ?_
  obtain ⟨bs, hbs, hdecode⟩ := Option.bind_eq_some_iff.mp ht
  rw [← hb bs hbs]
  exact length_decodeString hdecode

/-! ## What a payload grants -/

theorem angle_mem {raw : Option ℤ} {limitDeg q : ℚ} (h : q ∈ angle raw limitDeg) :
    -limitDeg ≤ q ∧ q ≤ limitDeg := by
  rw [angle.eq_def] at h
  split at h
  · cases h
  · split at h
    · cases h
    · dsimp only at h
      split at h
      · rename_i hmem
        cases h
        exact hmem
      · cases h

theorem both_mem {lat lon : Option ℚ} {q : ℚ} :
    (q ∈ (both lat lon).1 → q ∈ lat) ∧ (q ∈ (both lat lon).2 → q ∈ lon) := by
  rw [both]
  split
  · exact ⟨fun h ↦ (nomatch h), fun h ↦ (nomatch h)⟩
  · exact ⟨id, id⟩

/-- A velocity that is zero, or that is neither very small nor very large. -/
def Moderate (v : ℚ) : Prop := v = 0 ∨ 1 / 16 ≤ |v| ∧ |v| ≤ 4096

theorem moderate_of_scaled {raw : Option ℤ} (hraw : ∀ n ∈ raw, -32768 ≤ n ∧ n ≤ 32767) {v : ℚ}
    (h : v ∈ scaled raw .velocityMPS) : Moderate v := by
  obtain ⟨n, hn, rfl⟩ := Option.map_eq_some_iff.mp h
  obtain ⟨hlow, hhigh⟩ := hraw n hn
  have hsmall : Double.Representable (1 / 16) := ⟨1, -4, by norm_num, by norm_num, by norm_num⟩
  have hlarge : Double.Representable 4096 := by
    exact_mod_cast Double.representable_natCast (n := 4096) (by norm_num)
  have hscale : 1 / 16 ≤ scales .velocityMPS ∧ scales .velocityMPS ≤ 1 / 8 :=
    ⟨Double.le_nearest hsmall (by norm_num),
      Double.nearest_le ⟨1, -3, by norm_num, by norm_num, by norm_num⟩ (by norm_num)⟩
  generalize scales .velocityMPS = scale at hscale ⊢
  obtain ⟨hslow, hshigh⟩ := hscale
  have hlow' : (-32768 : ℚ) ≤ n := by exact_mod_cast hlow
  have hhigh' : (n : ℚ) ≤ 32768 := by exact_mod_cast hhigh.trans (by norm_num)
  rcases lt_trichotomy n 0 with hneg | rfl | hpos
  · have hone : (n : ℚ) ≤ -1 := by exact_mod_cast Int.le_sub_one_of_lt hneg
    have hup : Double.nearest (n * scale) ≤ -(1 / 16) := Double.nearest_le hsmall.neg (by nlinarith)
    have hdown : -4096 ≤ Double.nearest (n * scale) := Double.le_nearest hlarge.neg (by nlinarith)
    right
    rw [abs_of_neg (by linarith)]
    constructor <;> linarith
  · left
    rw [Int.cast_zero, zero_mul]
    exact Double.nearest_of_representable Double.representable_zero
  · have hone : (1 : ℚ) ≤ n := by exact_mod_cast hpos
    have hdown : 1 / 16 ≤ Double.nearest (n * scale) := Double.le_nearest hsmall (by nlinarith)
    have hup : Double.nearest (n * scale) ≤ 4096 := Double.nearest_le hlarge (by nlinarith)
    right
    rw [abs_of_pos (by linarith)]
    exact ⟨hdown, hup⟩

/-- What the fields of a record are, whatever the payload. -/
structure DjiTelemetry.InRange (t : DjiTelemetry) : Prop where
  serial : ∀ s ∈ t.serial, s.length ≤ 16
  lat : ∀ q ∈ t.lat, -90 ≤ q ∧ q ≤ 90
  lon : ∀ q ∈ t.lon, -180 ≤ q ∧ q ≤ 180
  vNorth : ∀ v ∈ t.vNorthMPS, Moderate v
  vEast : ∀ v ∈ t.vEastMPS, Moderate v
  operatorLat : ∀ q ∈ t.operatorLat, -90 ≤ q ∧ q ≤ 90
  operatorLon : ∀ q ∈ t.operatorLon, -180 ≤ q ∧ q ≤ 180

/-- **Every payload of telemetry gives fields that are in range.** -/
theorem gives_parseTelemetry : Gives parseTelemetry DjiTelemetry.InRange := by
  refine (Gives.true u8).bind fun version _ ↦ ?_
  refine (Gives.true u16).bind fun sequence _ ↦ ?_
  refine (Gives.true u16).bind fun stateInfo _ ↦ ?_
  refine (gives_text 16).bind fun serial hserial ↦ ?_
  refine (Gives.true i32).bind fun rawLon _ ↦ ?_
  refine (Gives.true i32).bind fun rawLat _ ↦ ?_
  refine (Gives.true i16).bind fun altitude _ ↦ ?_
  refine (Gives.true i16).bind fun height _ ↦ ?_
  refine gives_i16.bind fun vNorth hvNorth ↦ ?_
  refine gives_i16.bind fun vEast hvEast ↦ ?_
  refine (Gives.true i16).bind fun vUp _ ↦ ?_
  refine (Gives.true i16).bind fun pitch _ ↦ ?_
  refine (Gives.true i16).bind fun roll _ ↦ ?_
  refine (Gives.true i16).bind fun yaw _ ↦ ?_
  refine (Gives.true i32).bind fun rawOpLat _ ↦ ?_
  refine (Gives.true i32).bind fun rawOpLon _ ↦ ?_
  refine (Gives.true i32).bind fun rawHomeLon _ ↦ ?_
  refine (Gives.true i32).bind fun rawHomeLat _ ↦ ?_
  refine (Gives.true u8).bind fun productType _ ↦ ?_
  refine (Gives.true u8).bind fun uuidLen _ ↦ ?_
  refine (Gives.true _).bind fun uuid _ ↦ Gives.pure ?_
  exact ⟨hserial, fun _ hq ↦ angle_mem (both_mem.1 hq), fun _ hq ↦ angle_mem (both_mem.2 hq),
    fun _ ↦ moderate_of_scaled hvNorth, fun _ ↦ moderate_of_scaled hvEast, fun _ ↦ angle_mem,
    fun _ ↦ angle_mem⟩

theorem gives_parseFlightPurpose :
    Gives parseFlightPurpose fun p ↦ ∀ s ∈ p.serial, s.length ≤ 16 := by
  refine (gives_text 16).bind fun serial hserial ↦ ?_
  refine (Gives.true u8).bind fun length _ ↦ ?_
  exact (Gives.true _).bind fun purpose _ ↦ Gives.pure hserial

/-! ## Where an aircraft goes -/

theorem speedMPS_nonneg {libm : Libm} (hlibm : libm.Sound) (t : DjiTelemetry) :
    ∀ q ∈ t.speedMPS libm, 0 ≤ q := by
  intro q hq
  obtain ⟨vNorth, -, h⟩ := Option.bind_eq_some_iff.mp hq
  obtain ⟨vEast, -, h⟩ := Option.bind_eq_some_iff.mp h
  cases h
  exact hlibm.hypot_nonneg _ _

/-- A direction is not just below zero. -/
theorem atan2_of_moderate {libm : Libm} (hlibm : libm.Sound) {y x : ℚ} (hy : Moderate y)
    (hx : Moderate x) : 0 ≤ libm.atan2 y x ∨ libm.atan2 y x ≤ -(1 / 2 ^ 18) := by
  rcases le_or_gt 0 y with h0 | hneg
  · exact .inl (hlibm.atan2_nonneg x h0)
  right
  obtain ⟨hlow, hhigh⟩ := hy.resolve_left hneg.ne
  have hxle : |x| ≤ 4096 := by
    rcases hx with rfl | ⟨-, hx⟩
    · norm_num
    · exact hx
  rw [abs_of_neg hneg] at hlow hhigh
  have hx0 := abs_nonneg x
  have hsum : 0 < |x| + |y| := by
    rw [abs_of_neg hneg]
    linarith
  have hsum' : |x| + |y| ≤ 8192 := by
    rw [abs_of_neg hneg]
    linarith
  have hle : 1 / 2 ^ 17 ≤ -y / (|x| + |y|) := by
    rw [le_div_iff₀ hsum]
    linarith
  have hnormal : (1 : ℚ) / 2 ^ 900 ≤ 1 / 2 ^ 17 :=
    one_div_le_one_div_of_le (by norm_num) (pow_le_pow_right₀ (by norm_num) (by norm_num))
  calc libm.atan2 y x ≤ y / (2 * (|x| + |y|)) := hlibm.atan2_le x hneg (hnormal.trans hle)
    _ = -(-y / (|x| + |y|)) / 2 := by field_simp
    _ ≤ -(1 / 2 ^ 18) := by linarith

/-- **A track is on the circle**, and a full turn is not reached. -/
theorem trackDeg_mem {libm : Libm} (hlibm : libm.Sound) {t : DjiTelemetry} (ht : t.InRange) :
    ∀ q ∈ t.trackDeg libm, 0 ≤ q ∧ q < 360 := by
  intro q hq
  obtain ⟨vNorth, hNorth, h⟩ := Option.bind_eq_some_iff.mp hq
  obtain ⟨vEast, hEast, h⟩ := Option.bind_eq_some_iff.mp h
  split at h
  · cases h
  · cases h
    exact degrees_mod_mem (hlibm.atan2_mem _ _)
      (atan2_of_moderate hlibm (ht.vEast _ hEast) (ht.vNorth _ hNorth))

/-! ## Elements -/

/-- What the fields of an element are. -/
def DjiPayload.InRange : DjiPayload → Prop
  | .telemetry t => t.InRange
  | .flightPurpose p => ∀ s ∈ p.serial, s.length ≤ 16

/-- **An element is of another kind, decoded to fields in range, or refused** with an error of the
parser's own. -/
theorem parseVendorIE_cases (ieBody : List Byte) :
    parseVendorIE ieBody = .ok none ∨
      (∃ payload : DjiPayload, parseVendorIE ieBody = .ok (some payload) ∧ payload.InRange) ∨
      ∃ text, parseVendorIE ieBody = .error (.parse text) := by
  rw [parseVendorIE]
  by_cases hdji : ieBody.length < 7 ∨ slice ieBody 0 3 ≠ oui
  · rw [if_pos hdji]
    exact .inl rfl
  rw [if_neg hdji, item_of_lt (by omega)]
  dsimp only [Except.bind, bind, pure, Except.pure]
  split
  · exact .inr (.inl ⟨_, rfl, gives_parseTelemetry _⟩)
  split
  · exact .inr (.inl ⟨_, rfl, gives_parseFlightPurpose _⟩)
  · exact .inr (.inr ⟨_, rfl⟩)

end ClassG.Wifi.Dji
