import ClassG.Sdr.Sbs

/-!
# What a line gives is as the schema has it

Every number of `parse_line` is brought into its range or left out, and a number that is not finite
is written as null, which the schema allows wherever a line can lead to one.
-/

set_option autoImplicit false

namespace ClassG.Sdr

open JsonSchema Schema

/-! ## The blocks of a detection -/

theorem isObject_position (p : Position) : IsObject Schema.position p.toJson ↔
    IsNumber latitude (jsonNumber p.lat) ∧ IsNumber longitude (jsonNumber p.lon) := by
  simp [Position.toJson, isObject_obj, Checked, Schema.position, jsonNumber, anyNumber]

theorem isObject_kinematics (k : Kinematics) : IsObject Schema.kinematics k.toJson ↔
    (∀ v ∈ k.speedMPS, ∀ q ∈ v.toRat?, 0 ≤ q) ∧ ∀ v ∈ k.trackDeg, ∀ q ∈ v.toRat?, bearing q := by
  simp [Kinematics.toJson, isObject_obj, Checked, Schema.kinematics, jsonNumber, nonneg, anyNumber]

theorem isObject_adsb (a : Adsb) : IsObject Schema.adsb a.toJson := by
  simp [Adsb.toJson, isObject_obj, Checked, Schema.adsb, jsonNumber, anyString, anyNumber]

theorem isObject_rf (freq : ℕ) : IsObject Schema.rf (.obj [("freq_hz", .num freq)]) := by
  simp [isObject_obj, Checked, Schema.rf, nonneg]

theorem isDetection_toJson (d : Detection) : IsDetection d.toJson ↔
    d.schemaVersion = "1.0" ∧ IsULID d.detectionID ∧ 1 ≤ d.sensorID.length ∧
      d.sensorKind ∈ sensorKinds ∧ d.detectionClass ∈ detectionClasses ∧
      (∀ p ∈ d.position, IsObject Schema.position p.toJson) ∧
      ∀ k ∈ d.kinematics, IsObject Schema.kinematics k.toJson := by
  have hposition : ∀ p : Position,
      OrNull (IsObject Schema.position) p.toJson ↔ IsObject Schema.position p.toJson :=
    fun _ ↦ Iff.rfl
  have hkinematics : ∀ k : Kinematics,
      OrNull (IsObject Schema.kinematics) k.toJson ↔ IsObject Schema.kinematics k.toJson :=
    fun _ ↦ Iff.rfl
  have hadsb : ∀ a : Adsb, OrNull (IsObject Schema.adsb) a.toJson := isObject_adsb
  rw [IsDetection, Detection.toJson, isObject_obj]
  simp [Checked, properties, anyString, isObject_rf, hposition, hkinematics, hadsb]

/-! ## The numbers of a line -/

theorem representable_360 : Double.Representable 360 := by
  simpa using Double.representable_intCast (n := 360) (by norm_num)

/-- A remainder is brought between the two doubles that end the circle. -/
theorem remEuclid360_mem {d : Double} {q : ℚ} (h : remEuclid360 d = .fin q) : 0 ≤ q ∧ q ≤ 360 := by
  cases d with
  | nan => cases h
  | inf s => cases h
  | fin p =>
    obtain ⟨r, hr, habs, -⟩ := Double.mod_fin (p := p) (show (0 : ℚ) < 360 by norm_num)
    rw [abs_lt] at habs
    rw [remEuclid360, hr] at h
    by_cases hneg : r < 0
    · have hround := Double.round_of_mem (x := r + 360) Double.representable_zero
        representable_360 (by norm_num) (Double.lt_pow_of_lt (by norm_num)) (by linarith)
        (by linarith)
      simp only [Double.lt, hneg, decide_true, if_true, Double.add] at h
      rw [hround] at h
      cases h
      exact ⟨Double.le_nearest Double.representable_zero (by linarith),
        Double.nearest_le representable_360 (by linarith)⟩
    · simp only [Double.lt, hneg, decide_false, Bool.false_eq_true, if_false] at h
      cases h
      constructor <;> linarith

/-- **A bearing is folded into the circle.** -/
theorem bearing_foldTrack {d : Double} {q : ℚ} (h : foldTrack d = .fin q) : bearing q := by
  rw [foldTrack] at h
  split at h
  · cases h
    exact ⟨le_rfl, by norm_num⟩
  · rename_i hlt
    have hmem := remEuclid360_mem h
    rw [h] at hlt
    simp only [Double.le, decide_eq_true_eq, not_le] at hlt
    exact ⟨hmem.1, hlt⟩

theorem toRat?_eq_some {x : Double} {q : ℚ} : x.toRat? = some q ↔ x = .fin q := by
  cases x <;> simp [Double.toRat?]

theorem ktToMPS_nonneg : 0 ≤ ktToMPS := Double.nearest_nonneg (by norm_num)

/-- A speed that is kept is not negative. -/
theorem speed_nonneg {kt : Double} {q : ℚ} (hkt : Double.le (.fin 0) kt)
    (h : kt.scale ktToMPS = .fin q) : 0 ≤ q := by
  cases kt with
  | nan => cases h
  | inf s => cases h
  | fin p =>
    exact Double.nonneg_of_round h (mul_nonneg (of_decide_eq_true hkt) ktToMPS_nonneg)

theorem isObject_kinematicsOf {speed track rate : Option Double} {k : Kinematics}
    (h : kinematicsOf speed track rate = some k) : IsObject Schema.kinematics k.toJson := by
  rw [kinematicsOf] at h
  split at h
  · cases h
    rw [isObject_kinematics]
    constructor
    · intro v hv q hq
      obtain ⟨kt, hkt, rfl⟩ := Option.map_eq_some_iff.mp hv
      exact speed_nonneg (Option.filter_eq_some_iff.mp hkt).2 (toRat?_eq_some.mp hq)
    · intro v hv q hq
      obtain ⟨d, -, rfl⟩ := Option.map_eq_some_iff.mp hv
      exact bearing_foldTrack (toRat?_eq_some.mp hq)
  · cases h

/-- A number between two finite ones is finite. -/
theorem isNumber_of_le {a b : ℚ} {x : Double} (ha : Double.le (.fin a) x) (hb : x.le (.fin b)) :
    IsNumber (fun q ↦ a ≤ q ∧ q ≤ b) (jsonNumber x) := by
  cases x with
  | nan => cases ha
  | inf s => cases s <;> simp [Double.le] at ha hb
  | fin q => exact ⟨of_decide_eq_true ha, of_decide_eq_true hb⟩

theorem positionOf_eq_some {lat lon : Option Double} {altFt : Option ℤ} {p : Position}
    (h : positionOf lat lon altFt = some p) :
    ¬(p.lat = .fin 0 ∧ p.lon = .fin 0) ∧ IsObject Schema.position p.toJson := by
  rw [positionOf.eq_def] at h
  split at h
  · split at h
    · rename_i hif
      cases h
      obtain ⟨hzero, hlat, hlat', hlon, hlon'⟩ := hif
      rw [isObject_position]
      exact ⟨hzero, isNumber_of_le hlat hlat', isNumber_of_le hlon hlon'⟩
    · cases h
  · cases h

/-! ## Lines -/

/-- **A line that is parsed.**  With an identifier it is a detection as the schema has it, and its
position and address are there or left out as they should be. -/
theorem parseLine_isDetection {upper : Char → List Char} {line : List Char} {sensorID now id : String}
    {d : Detection} (hsensor : sensorID ≠ "") (hid : IsULID id)
    (h : parseLine upper line sensorID now = .ok d) :
    IsDetection { d with detectionID := id }.toJson ∧
      (∀ p ∈ d.position, ¬(p.lat = .fin 0 ∧ p.lon = .fin 0)) ∧
      ∃ a ∈ d.adsb, a.icao ≠ "" := by
  rw [parseLine] at h
  dsimp only at h
  split at h
  · cases h
  split at h
  · cases h
  split at h
  · cases h
  rename_i hicao
  cases h
  rw [isDetection_toJson]
  refine ⟨⟨rfl, hid, ?_, (by decide : "sdr" ∈ sensorKinds),
    (by decide : "D" ∈ detectionClasses), fun p hp ↦ (positionOf_eq_some hp).2,
    fun k hk ↦ isObject_kinematicsOf hk⟩, fun p hp ↦ (positionOf_eq_some hp).1, _, rfl, ?_⟩
  · have hlen : sensorID.length ≠ 0 := by simpa using hsensor
    show 1 ≤ sensorID.length
    omega
  · show String.ofList _ ≠ ""
    simpa using hicao

end ClassG.Sdr
