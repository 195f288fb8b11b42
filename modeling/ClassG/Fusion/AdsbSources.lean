import ClassG.Fusion.NetAdsb
import ClassG.Sdr.Lines
import ClassG.Ulid.Pattern

/-!
# What the sources of ADS-B emit

A line of the radio is always as the schema has it: `parseLine_isDetection`.  The network feed takes
a position, a bearing and an age as they come, so what it emits is as it should be for the aircraft
for which they are in range, `Aircraft.Sound`, and for no other.
-/

set_option autoImplicit false

namespace ClassG.Fusion.Net

open JsonSchema Schema

/-! ## Aircraft -/

/-- The heading is no more than `2 ^ -45` below a multiple of 360 that is not positive. -/
def JustBelow (track : ℚ) : Prop := ∃ n : ℕ, -(1 / 2 ^ 45) ≤ track + 360 * n ∧ track + 360 * n < 0

/-- The age fits into 64 bits of nanoseconds, or the machine makes of it what is not negative. -/
def Aircraft.AgeFits (hw : Hardware) (ac : Aircraft) : Prop :=
  Double.lt (.round (ac.age * GoDuration.second)) (.fin (2 ^ 63)) ∨
    0 ≤ hw.overflow (.round (ac.age * GoDuration.second))

/-- What a poll relies on, of an aircraft that it does not drop. -/
structure Aircraft.Sound (hw : Hardware) (ac : Aircraft) : Prop where
  position : ∀ lat ∈ ac.lat, ∀ lon ∈ ac.lon, latitude lat ∧ longitude lon
  heading : ∀ track ∈ ac.track, ¬JustBelow track
  age : ac.AgeFits hw

/-- The aircraft that `convert` does not drop. -/
def Aircraft.Kept (upper : Char → Char) (hw : Hardware) (cfg : Config) (ac : Aircraft) : Prop :=
  GoString.toUpper upper (GoString.trimSpace ac.hex) ≠ "" ∧ ac.altBaro.onGround = false ∧
    ac.ageDuration hw ≤ cfg.maxAge

instance (upper : Char → Char) (hw : Hardware) (cfg : Config) (ac : Aircraft) :
    Decidable (ac.Kept upper hw cfg) := by
  rw [Aircraft.Kept]
  infer_instance

/-- The aircraft of a response that are polled: the first of those that are kept. -/
def polled (upper : Char → Char) (hw : Hardware) (cfg : Config)
    (aircraft : List (Aircraft × Draw)) : List (Aircraft × Draw) :=
  (aircraft.filter fun a ↦ a.1.Kept upper hw cfg).take cfg.maxAircraft

/-! ## Bearings -/

theorem representable_256 : Double.Representable 256 := by
  simpa using Double.representable_intCast (n := 256) (by norm_num)

/-- A negative remainder is brought onto the circle, unless it is very small. -/
theorem nearest_lt_360_iff {r : ℚ} (hneg : r < 0) :
    Double.nearest (r + 360) < 360 ↔ r < -(1 / 2 ^ 45) := by
  rcases lt_or_ge (r + 360) 256 with hlt | hge
  · have hnear := Double.nearest_le representable_256 hlt.le
    refine iff_of_true (by linarith) ?_
    have hsmall : (1 : ℚ) / 2 ^ 45 < 1 := by norm_num
    linarith
  · have hiff := Double.nearest_lt_iff (x := r + 360) (e := 8) (n := 360 * 2 ^ 44) (by norm_num)
      (by norm_num; linarith) (by norm_num; linarith) (by norm_num)
    norm_num at hiff
    rw [hiff]
    constructor <;> intro h <;> norm_num at h ⊢ <;> linarith

/-- **A heading is folded into the circle unless it is just below a full turn.** -/
theorem foldTrack_eq (track : ℚ) :
    ∃ q, foldTrack track = .fin q ∧ (bearing q ↔ ¬JustBelow track) := by
  rcases le_or_gt 0 track with hpos | hneg
  · obtain ⟨r, hr, habs, hr0, -⟩ := Double.mod_fin (p := track) (show (0 : ℚ) < 360 by norm_num)
    refine ⟨r, ?_, iff_of_true ⟨hr0 hpos, (abs_lt.mp habs).2⟩ ?_⟩
    · rw [foldTrack, hr]
      exact if_neg (by simpa [Double.lt] using hr0 hpos)
    · rintro ⟨n, -, hlt⟩
      have hn : (0 : ℚ) ≤ 360 * n := by positivity
      linarith
  · obtain ⟨n, hr, hlow, hle⟩ := Double.mod_of_neg (show (0 : ℚ) < 360 by norm_num) hneg
    have hbelow : JustBelow track ↔ -(1 / 2 ^ 45) ≤ track + 360 * n ∧ track + 360 * n < 0 := by
      refine ⟨?_, fun h ↦ ⟨n, h⟩⟩
      rintro ⟨m, hm, hm0⟩
      have hsmall : (1 : ℚ) / 2 ^ 45 < 1 := by norm_num
      have hnm : (n : ℚ) < m + 1 := by linarith
      have hmn : (m : ℚ) < n + 1 := by linarith
      obtain rfl : m = n := by
        have hnm' : n < m + 1 := by exact_mod_cast hnm
        have hmn' : m < n + 1 := by exact_mod_cast hmn
        omega
      exact ⟨hm, hm0⟩
    rw [hbelow, foldTrack, hr]
    rcases eq_or_lt_of_le hle with h0 | hlt
    · refine ⟨0, ?_, iff_of_true ⟨le_rfl, by norm_num⟩ fun h ↦ absurd h0 h.2.ne⟩
      rw [h0]
      exact if_neg (by simp [Double.lt])
    · have hround := Double.round_of_mem (x := track + 360 * n + 360) Double.representable_zero
        Sdr.representable_360 (by norm_num) (Double.lt_pow_of_lt (by norm_num)) (by linarith)
        (by linarith)
      refine ⟨Double.nearest (track + 360 * n + 360), ?_, ?_⟩
      · exact (if_pos (decide_eq_true hlt)).trans hround
      · have hnonneg : 0 ≤ Double.nearest (track + 360 * n + 360) :=
          Double.nearest_nonneg (by linarith)
        rw [bearing, nearest_lt_360_iff hlt]
        exact ⟨fun h hle ↦ absurd h.2 (not_lt.mpr hle.1),
          fun h ↦ ⟨hnonneg, not_le.mp fun hge ↦ h ⟨hge, hlt⟩⟩⟩

/-! ## Ages -/

theorem Aircraft.age_nonneg (ac : Aircraft) : 0 ≤ ac.age := le_max_right _ _

/-- The age is not negative, unless it does not fit. -/
theorem Aircraft.ageDuration_nonneg_iff (hw : Hardware) (ac : Aircraft) :
    0 ≤ ac.ageDuration hw ↔ ac.AgeFits hw := by
  have hx : 0 ≤ ac.age * GoDuration.second :=
    mul_nonneg ac.age_nonneg (by norm_num [GoDuration.second])
  rw [Aircraft.ageDuration, Aircraft.AgeFits]
  generalize hround : Double.round (ac.age * GoDuration.second) = x
  cases x with
  | nan => simp [Hardware.toDuration, Double.lt]
  | inf s =>
    obtain rfl : s = false := by
      rw [Double.round] at hround
      split at hround
      · simpa [not_lt.mpr hx] using hround.symm
      · cases hround
    simp [Hardware.toDuration, Double.lt]
  | fin q =>
    have hq : 0 ≤ q := Double.nonneg_of_round hround hx
    have hfloor : 0 ≤ ⌊q⌋ := Int.floor_nonneg.mpr hq
    have hfits : GoDuration.minDuration ≤ ⌊q⌋ ∧ ⌊q⌋ ≤ GoDuration.maxDuration ↔ q < 2 ^ 63 := by
      have hlt : ⌊q⌋ < 9223372036854775808 ↔ q < 2 ^ 63 := by
        rw [Int.floor_lt]
        norm_num
      rw [← hlt]
      show (-9223372036854775808 : ℤ) ≤ ⌊q⌋ ∧ ⌊q⌋ ≤ 9223372036854775807 ↔ _
      omega
    simp only [Hardware.toDuration, if_pos hq, hfits, Double.lt, decide_eq_true_eq]
    split
    · rename_i hlt
      exact iff_of_true hfloor (.inl hlt)
    · rename_i hge
      exact ⟨.inr, fun h ↦ h.resolve_left hge⟩

theorem Aircraft.ageDuration_eq_zero (hw : Hardware) {ac : Aircraft} (h : ac.age = 0) :
    ac.ageDuration hw = 0 := by
  have hround : Double.round 0 = .fin 0 := by
    rw [Double.round_of_mem Double.representable_zero Double.representable_zero (by norm_num)
      (Double.lt_pow_of_lt (by norm_num)) le_rfl le_rfl,
      Double.nearest_of_representable Double.representable_zero]
  rw [Aircraft.ageDuration, h, zero_mul, hround]
  rfl

/-- **The time of a detection is in the window** just if the age is not negative. -/
theorem ts_mem_iff {cfg : Config} {d : GoDuration} (hmin : GoDuration.minDuration ≤ d)
    (hle : d ≤ cfg.maxAge) (now : GoTime) :
    now - cfg.maxAge ≤ now + GoDuration.neg d ∧ now + GoDuration.neg d ≤ now ↔ 0 ≤ d := by
  obtain ⟨hpos, hmax⟩ : 0 < cfg.maxAge ∧ cfg.maxAge ≤ 9223372036854775807 := cfg.maxAge_mem
  rw [GoDuration.neg]
  rcases eq_or_ne d GoDuration.minDuration with rfl | hne
  · rw [if_pos rfl]
    refine iff_of_false (fun h ↦ ?_) (by decide)
    have hlow : now - cfg.maxAge ≤ now + -9223372036854775808 := h.1
    linarith
  · rw [if_neg hne]
    constructor
    · exact fun h ↦ by linarith [h.2]
    · exact fun h ↦ ⟨by linarith, by linarith⟩

/-! ## Encoding -/

theorem Position.isObject_toJson (p : Position) :
    IsObject Schema.position p.toJson ↔ latitude p.lat ∧ longitude p.lon := by
  simp [Position.toJson, isObject_obj, Checked, Schema.position]

theorem ADSB.isObject_toJson (a : ADSB) : IsObject Schema.adsb a.toJson := by
  rw [ADSB.toJson, isObject_obj]
  by_cases h : a.callsign = "" <;> simp [h, Checked, Schema.adsb, anyString, anyNumber]

/-- A pointer that can be encoded is left out or points to a finite number. -/
theorem marshalOptional_eq_some {name : String} {x : Option Double} {fields : List (String × Json)}
    (h : marshalOptional name x = some fields) :
    ∃ v : Option ℚ, x = v.map .fin ∧ fields = Json.field name (v.map .num) := by
  cases x with
  | none => exact ⟨none, rfl, (Option.some.inj h).symm⟩
  | some x =>
    cases x with
    | fin q => exact ⟨some q, rfl, (Option.some.inj h).symm⟩
    | nan => cases h
    | inf s => cases h

theorem Kinematics.toJson_eq_some {k : Kinematics} {body : Json} (h : k.toJson = some body) :
    IsObject Schema.kinematics body ↔
      (∀ q, k.speedMPS = some (.fin q) → 0 ≤ q) ∧ ∀ q, k.trackDeg = some (.fin q) → bearing q := by
  simp only [Kinematics.toJson, Option.bind_eq_bind, Option.bind_eq_some_iff, Option.pure_def,
    Option.some.injEq] at h
  obtain ⟨speed, hspeed, track, htrack, rfl⟩ := h
  obtain ⟨s, hs, rfl⟩ := marshalOptional_eq_some hspeed
  obtain ⟨t, ht, rfl⟩ := marshalOptional_eq_some htrack
  rw [hs, ht]
  simp [isObject_obj, Checked, Schema.kinematics, nonneg]

/-- **A detection that is encoded.** -/
theorem Detection.toJson_eq_some {d : Detection} {body : Json} (h : d.toJson = some body) :
    IsDetection body ↔ d.schemaVersion = "1.0" ∧ IsULID d.detectionID ∧ 1 ≤ d.sensorID.length ∧
      d.sensorKind ∈ sensorKinds ∧ d.detectionClass ∈ detectionClasses ∧
      (∀ p ∈ d.position, latitude p.lat ∧ longitude p.lon) ∧
      ∀ k ∈ d.kinematics, (∀ q, k.speedMPS = some (.fin q) → 0 ≤ q) ∧
        ∀ q, k.trackDeg = some (.fin q) → bearing q := by
  have hposition : ∀ p : Position,
      OrNull (IsObject Schema.position) p.toJson ↔ latitude p.lat ∧ longitude p.lon :=
    Position.isObject_toJson
  have hadsb : ∀ a : ADSB, OrNull (IsObject Schema.adsb) a.toJson := ADSB.isObject_toJson
  have hbody : ∃ kinematics : Option Json, body = .obj ([("schema_version", .str d.schemaVersion),
      ("detection_id", .str d.detectionID), ("ts", .str (formatMillis d.ts)),
      ("sensor_id", .str d.sensorID), ("sensor_kind", .str d.sensorKind),
      ("detection_class", .str d.detectionClass)] ++
      Json.field "position" (d.position.map Position.toJson) ++
      Json.field "kinematics" kinematics ++ [("adsb", d.adsb.toJson)]) ∧
      ((∀ j ∈ kinematics, OrNull (IsObject Schema.kinematics) j) ↔
        ∀ k ∈ d.kinematics, (∀ q, k.speedMPS = some (.fin q) → 0 ≤ q) ∧
          ∀ q, k.trackDeg = some (.fin q) → bearing q) := by
    rw [Detection.toJson] at h
    cases hk : d.kinematics with
    | none =>
      rw [hk] at h
      exact ⟨none, (Option.some.inj h).symm, by simp⟩
    | some k =>
      rw [hk] at h
      cases hj : k.toJson with
      | none =>
        simp only [hj] at h
        cases h
      | some j =>
        simp only [hj] at h
        refine ⟨some j, (Option.some.inj h).symm, ?_⟩
        simp only [Option.mem_def, Option.some.injEq, forall_eq']
        rw [← Kinematics.toJson_eq_some hj]
        rw [Kinematics.toJson] at hj
        simp only [Option.bind_eq_bind, Option.bind_eq_some_iff, Option.pure_def,
          Option.some.injEq] at hj
        obtain ⟨speed, -, track, -, rfl⟩ := hj
        rfl
  obtain ⟨kinematics, rfl, hkin⟩ := hbody
  rw [IsDetection, isObject_obj, ← hkin]
  simp [Checked, properties, anyString, hposition, hadsb]

/-! ## Aircraft as detections -/

/-- What is asked of a payload: the schema, and what the schema cannot say. -/
structure Valid (cfg : Config) (now : GoTime) (payload : Detection × Json) : Prop where
  schema : IsDetection payload.2
  position : payload.1.position ≠ some ⟨0, 0⟩
  icao : payload.1.adsb.icao ≠ ""
  ts : now - cfg.maxAge ≤ payload.1.ts ∧ payload.1.ts ≤ now

theorem Aircraft.position_ne_zero (ac : Aircraft) : ac.position ≠ some ⟨0, 0⟩ := by
  rw [Aircraft.position.eq_def]
  split
  · split
    · exact fun h ↦ nomatch h
    · rename_i hne
      exact fun h ↦ hne (by cases h; exact ⟨rfl, rfl⟩)
  · exact fun h ↦ nomatch h

theorem Aircraft.forall_position_iff (ac : Aircraft) :
    (∀ p ∈ ac.position, latitude p.lat ∧ longitude p.lon) ↔
      ∀ lat ∈ ac.lat, ∀ lon ∈ ac.lon, latitude lat ∧ longitude lon := by
  rw [Aircraft.position.eq_def]
  split
  · rename_i lat lon hlat hlon
    split
    · rename_i h0
      rw [hlat, hlon, h0.1, h0.2]
      refine iff_of_true (fun p hp ↦ nomatch hp) ?_
      norm_num [latitude, longitude]
    · simp [hlat, hlon]
  · rename_i hnone
    refine iff_of_true (fun p hp ↦ nomatch hp) fun lat hlat lon hlon ↦ ?_
    exact absurd hlon (hnone lat lon hlat)

/-- A speed is never negative, and a bearing is on the circle just if the heading is folded. -/
theorem Aircraft.forall_kinematics_iff (ac : Aircraft) :
    (∀ k ∈ ac.kinematics, (∀ q, k.speedMPS = some (.fin q) → 0 ≤ q) ∧
        ∀ q, k.trackDeg = some (.fin q) → bearing q) ↔
      ∀ track ∈ ac.track, ¬JustBelow track := by
  have hspeed : ∀ q, (ac.groundSp.filter fun gs ↦ 0 ≤ gs).map
      (fun gs ↦ Double.round (gs * ktToMPS)) = some (.fin q) → 0 ≤ q := by
    intro q hq
    obtain ⟨gs, hgs, hround⟩ := Option.map_eq_some_iff.mp hq
    have hpos : 0 ≤ gs := of_decide_eq_true (Option.filter_eq_some_iff.mp hgs).2
    exact Double.nonneg_of_round hround (mul_nonneg hpos Sdr.ktToMPS_nonneg)
  have htrack : (∀ q, ac.track.map foldTrack = some (.fin q) → bearing q) ↔
      ∀ track ∈ ac.track, ¬JustBelow track := by
    cases ac.track with
    | none => simp
    | some track =>
      obtain ⟨q, hq, hiff⟩ := foldTrack_eq track
      simp [hq, hiff]
  rw [Aircraft.kinematics]
  dsimp only
  split
  · simp only [Option.mem_def, Option.some.injEq, forall_eq']
    exact (and_iff_right hspeed).trans htrack
  · rename_i hnone
    rw [not_or, Option.isSome_map, Option.isSome_map] at hnone
    refine iff_of_true (fun k hk ↦ nomatch hk) fun track ht ↦ ?_
    exact absurd (Option.isSome_iff_exists.mpr ⟨track, ht⟩) hnone.2

theorem convert_eq_some {upper : Char → Char} {hw : Hardware} {cfg : Config} {ac : Aircraft}
    {now : GoTime} {draw : Draw} {d : Detection} (h : convert upper hw cfg ac now draw = some d) :
    ac.Kept upper hw cfg ∧ d.schemaVersion = "1.0" ∧ d.detectionID = draw.newID ∧
      d.ts = now + GoDuration.neg (ac.ageDuration hw) ∧ d.sensorID = cfg.sensorID ∧
      d.sensorKind = "net" ∧ d.detectionClass = "D" ∧ d.position = ac.position ∧
      d.kinematics = ac.kinematics ∧
      d.adsb.icao = GoString.toUpper upper (GoString.trimSpace ac.hex) := by
  rw [convert] at h
  split at h
  · cases h
  rename_i hicao
  split at h
  · cases h
  rename_i hground
  split at h
  · cases h
  rename_i hage
  cases h
  exact ⟨⟨hicao, Bool.eq_false_iff.mpr hground, not_lt.mp hage⟩, rfl, rfl, rfl, rfl, rfl, rfl, rfl,
    rfl, rfl⟩

theorem Hardware.minDuration_le (hw : Hardware) (x : Double) :
    GoDuration.minDuration ≤ hw.toDuration x := by
  cases x with
  | nan => exact (hw.overflow_mem _).1
  | inf s => exact (hw.overflow_mem _).1
  | fin q =>
    rw [Hardware.toDuration]
    generalize (if 0 ≤ q then ⌊q⌋ else ⌈q⌉) = n
    split
    · rename_i h
      exact h.1
    · exact (hw.overflow_mem _).1

/-- **The detection of an aircraft is as it should be** just if the aircraft is sound. -/
theorem valid_iff {upper : Char → Char} {hw : Hardware} {cfg : Config} {ac : Aircraft}
    {now : GoTime} {draw : Draw} {d : Detection} {body : Json}
    (h : convert upper hw cfg ac now draw = some d) (hbody : d.toJson = some body) :
    Valid cfg now (d, body) ↔ ac.Sound hw := by
  obtain ⟨⟨hicao, -, hage⟩, hversion, hid, hts, hsensor, hkind, hclass, hposition, hkinematics,
    hhex⟩ := convert_eq_some h
  have hschema := Detection.toJson_eq_some hbody
  rw [hposition, hkinematics, ac.forall_position_iff, ac.forall_kinematics_iff] at hschema
  have hlen : 1 ≤ d.sensorID.length := by
    have hne : cfg.sensorID.length ≠ 0 := by simpa using cfg.sensorID_ne
    rw [hsensor]
    omega
  have hulid : IsULID d.detectionID := hid ▸ Ulid.isULID_newULID _ _
  have hwindow := ts_mem_iff (hw.minDuration_le _) hage now
  constructor
  · intro hvalid
    obtain ⟨-, -, -, -, -, hpos, hkin⟩ := hschema.mp hvalid.schema
    have htime := hvalid.ts
    rw [show (d, body).1.ts = d.ts from rfl, hts] at htime
    exact ⟨hpos, hkin, (ac.ageDuration_nonneg_iff hw).mp (hwindow.mp htime)⟩
  · intro hsound
    refine ⟨hschema.mpr ⟨hversion, hulid, hlen, ?_, ?_, hsound.position, hsound.heading⟩, ?_, ?_, ?_⟩
    · rw [hkind]
      decide
    · rw [hclass]
      decide
    · exact hposition ▸ ac.position_ne_zero
    · exact hhex ▸ hicao
    · show now - cfg.maxAge ≤ d.ts ∧ d.ts ≤ now
      rw [hts]
      exact hwindow.mpr ((ac.ageDuration_nonneg_iff hw).mpr hsound.age)

/-! ## Polling -/

/-- The aircraft that are not kept are the ones that `convert` drops. -/
theorem convert_isSome_iff (upper : Char → Char) (hw : Hardware) (cfg : Config) (ac : Aircraft)
    (now : GoTime) (draw : Draw) :
    (convert upper hw cfg ac now draw).isSome ↔ ac.Kept upper hw cfg := by
  constructor
  · intro h
    obtain ⟨d, hd⟩ := Option.isSome_iff_exists.mp h
    exact (convert_eq_some hd).1
  · intro h
    rw [convert, if_neg h.1, if_neg (Bool.eq_false_iff.mp h.2.1), if_neg (not_lt.mpr h.2.2)]
    rfl

/-- A payload is the detection of an aircraft, encoded. -/
def IsPayload (upper : Char → Char) (hw : Hardware) (cfg : Config) (now : GoTime)
    (a : Aircraft × Draw) (payload : Detection × Json) : Prop :=
  convert upper hw cfg a.1 now a.2 = some payload.1 ∧ payload.1.toJson = some payload.2

/-- **The loop**: it appends the payloads of the aircraft that are kept until there are enough. -/
theorem pollLoop_eq_some {upper : Char → Char} {hw : Hardware} {cfg : Config} {now : GoTime}
    {aircraft : List (Aircraft × Draw)} {payloads result : List (Detection × Json)}
    (h : pollLoop upper hw cfg now aircraft payloads = some result) :
    ∃ more, result = payloads ++ more ∧ List.Forall₂ (IsPayload upper hw cfg now)
      ((aircraft.filter fun a ↦ a.1.Kept upper hw cfg).take (cfg.maxAircraft - payloads.length))
      more := by
  induction aircraft generalizing payloads with
  | nil =>
    obtain rfl := Option.some.inj h
    exact ⟨[], by simp, by simp⟩
  | cons a rest ih =>
    obtain ⟨ac, draw⟩ := a
    rw [pollLoop] at h
    split at h
    · rename_i hfull
      obtain rfl := Option.some.inj h
      rw [Nat.sub_eq_zero_of_le hfull, List.take_zero]
      exact ⟨[], by simp, .nil⟩
    rename_i hroom
    have hiff := convert_isSome_iff upper hw cfg ac now draw
    cases hd : convert upper hw cfg ac now draw with
    | none =>
      rw [hd] at h hiff
      rw [List.filter_cons_of_neg (by simpa using hiff)]
      exact ih h
    | some d =>
      rw [hd] at h hiff
      rw [List.filter_cons_of_pos (by simpa using hiff)]
      cases hbody : d.toJson with
      | none =>
        simp only [hbody] at h
        cases h
      | some body =>
        simp only [hbody] at h
        obtain ⟨more, rfl, hmore⟩ := ih h
        rw [List.length_append, List.length_singleton] at hmore
        obtain ⟨k, hk⟩ : ∃ k, cfg.maxAircraft - payloads.length = k + 1 :=
          ⟨cfg.maxAircraft - payloads.length - 1, by omega⟩
        rw [show cfg.maxAircraft - (payloads.length + 1) = k by omega] at hmore
        rw [hk, List.take_succ_cons]
        exact ⟨(d, body) :: more, by simp, .cons ⟨hd, hbody⟩ hmore⟩

/-- **A poll**: it returns the payloads of the aircraft that are polled. -/
theorem poll_eq_some {upper : Char → Char} {hw : Hardware} {cfg : Config} {now : GoTime}
    {aircraft : List (Aircraft × Draw)} {payloads : List (Detection × Json)}
    (h : poll upper hw cfg now aircraft = some payloads) :
    List.Forall₂ (IsPayload upper hw cfg now) (polled upper hw cfg aircraft) payloads := by
  obtain ⟨more, rfl, hmore⟩ := pollLoop_eq_some h
  exact hmore

theorem forall_iff_of_forall₂ {α β : Type*} {R : α → β → Prop} {p : α → Prop} {q : β → Prop}
    {l : List α} {m : List β} (h : List.Forall₂ R l m) (hiff : ∀ a b, R a b → (q b ↔ p a)) :
    (∀ b ∈ m, q b) ↔ ∀ a ∈ l, p a := by
  induction h with
  | nil => simp
  | cons hab _ ih => rw [List.forall_mem_cons, List.forall_mem_cons, hiff _ _ hab, ih]

/-- An aircraft with the latitude that `sbs.rs` names as that of a corrupt line. -/
def beyondPole : Aircraft := { hex := "a1878a", lat := some 91, lon := some 8 }

/-- What becomes of it. -/
def beyondPoleDetection : Detection where
  schemaVersion := "1.0"
  detectionID := Draw.newID ⟨0, none⟩
  ts := 0
  sensorID := "net-adsb-0"
  sensorKind := "net"
  detectionClass := "D"
  position := some ⟨91, 8⟩
  kinematics := none
  adsb := ⟨"A1878A", "", none⟩

theorem poll_beyondPole : ∃ body, beyondPoleDetection.toJson = some body ∧
    poll Char.toUpper .saturating .default 0 [(beyondPole, ⟨0, none⟩)] =
      some [(beyondPoleDetection, body)] := by
  have hage : beyondPole.ageDuration .saturating = 0 := Aircraft.ageDuration_eq_zero _ rfl
  have hconvert : convert Char.toUpper .saturating .default beyondPole 0 ⟨0, none⟩ =
      some beyondPoleDetection := by
    rw [convert, hage, if_neg (by decide), if_neg (by decide), if_neg (by decide)]
    rfl
  refine ⟨_, rfl, ?_⟩
  rw [poll, pollLoop, if_neg (by decide), hconvert]
  rfl

end ClassG.Fusion.Net
