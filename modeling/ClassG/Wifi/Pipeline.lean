import ClassG.Wifi.Detection

/-!
# From frames to detections

`classg_wifi/pipeline.py`, with the matcher of `classg_wifi/fingerprint.py`.  The errors that the
parsers raise of their own are caught and counted, and they raise no others, so no frame stops the
pipeline.  A detection is as the schema has it unless the sensor has no name or the signal is
stronger than the schema allows: the radiotap header gives a byte with a sign for it, and nothing
compares the byte with the upper bound.
-/

set_option autoImplicit false

namespace ClassG.Wifi

open Schema PyBytes PyFloat Odid Dji

/-! ## Fingerprints -/

/-- `str.lower` and `fnmatch.fnmatch`. -/
structure Texts where
  lower : String → String
  fnmatch : String → String → Bool

/-- `FingerprintMatcher`. -/
structure FingerprintMatcher where
  ssidRules : List (String × String) := []
  byOUI : List (String × String) := []
  registryOUIs : List (String × String) := []

/-- `int(digits, 16)`, of the digits of an address. -/
def hexNumber (digits : List Char) : Option ℕ :=
  if digits = [] then none
  else (digits.mapM hexDigit).map fun ds ↦ ds.foldl (fun n d ↦ n * 16 + d) 0

/-- `_is_locally_administered`. -/
def isLocallyAdministered (mac : String) : Bool :=
  match hexNumber (mac.toList.takeWhile (· ≠ ':')) with
  | some octet => octet.testBit 1
  | none => false

/-- `dict.get`, of a value that is taken for nothing if it is empty. -/
def getVendor (ouis : List (String × String)) (oui : String) : Option String :=
  (ouis.lookup oui).filter (· ≠ "")

/-- `match`: a vendor, and what it was recognised by. -/
def FingerprintMatcher.matchVendor (t : Texts) (m : FingerprintMatcher) (mac : String)
    (ssid : Option String) : Option (String × String) :=
  let bySSID := (ssid.filter (· ≠ "")).bind fun ssid ↦
    m.ssidRules.find? fun rule ↦ t.fnmatch (t.lower ssid) rule.1
  match bySSID with
  | some (_, vendor) => some (vendor, "ssid")
  | none =>
    if mac ≠ "" ∧ isLocallyAdministered mac then none
    else
      let oui := String.ofList ((t.lower mac).toList.take 8)
      match getVendor m.byOUI oui with
      | some vendor => some (vendor, "oui")
      | none => (getVendor m.registryOUIs oui).map fun vendor ↦ (vendor, "oui_ieee")

/-! ## The pipeline -/

/-- `PipelineStats`. -/
structure PipelineStats where
  framesSeen : ℕ := 0
  beacons : ℕ := 0
  parseErrors : ℕ := 0
  classA : ℕ := 0
  classB : ℕ := 0
  classC : ℕ := 0

/-- `Pipeline`, without the counters, and what it calls of the standard library. -/
structure Pipeline where
  sensorID : String
  matcher : FingerprintMatcher := {}
  texts : Texts
  libm : Libm

/-- What the generator has done so far. -/
structure Emitted where
  stats : PipelineStats := {}
  droneEvidence : Bool := false
  detections : List Json := []

/-- An error of a parser's own is caught: nothing is decoded, and one more error is counted. -/
def caught {α : Type} : Except Raised (Option α) → Except Raised (Option α × ℕ)
  | .ok payload => .ok (payload, 0)
  | .error (.parse _) => .ok (none, 1)
  | .error e => .error e

/-- `self.stats.parse_errors += n`. -/
def Emitted.countErrors (s : Emitted) (n : ℕ) : Emitted :=
  { s with stats := { s.stats with parseErrors := s.stats.parseErrors + n } }

/-- Yielding a detection that is evidence of a drone, with the counters after it. -/
def Emitted.yieldEvidence (s : Emitted) (stats : PipelineStats) (detection : Json) : Emitted where
  stats
  droneEvidence := true
  detections := s.detections ++ [detection]

namespace Pipeline

variable (p : Pipeline)

/-- The body of the loop of `process_beacon`; `draw` is what the clock and the random source give
for each detection of the frame. -/
def processIE (draw : ℕ → Draw) (beacon : Beacon) (s : Emitted) (ie : List Byte) :
    Except Raised Emitted := do
  let (payload, errors) ← caught (Odid.parseVendorIE ie)
  let s := s.countErrors errors
  match payload with
  | some payload =>
    return s.yieldEvidence { s.stats with classA := s.stats.classA + 1 }
      (fromOdid p.sensorID beacon payload ie (draw s.detections.length))
  | none =>
    let (djiPayload, errors) ← caught (Dji.parseVendorIE ie)
    let s := s.countErrors errors
    match djiPayload with
    | some payload =>
      return s.yieldEvidence { s.stats with classB := s.stats.classB + 1 }
        (fromDji p.libm p.sensorID beacon payload ie (draw s.detections.length))
    | none => return s

/-- `process_beacon`. -/
def processBeacon (stats : PipelineStats) (draw : ℕ → Draw) (beacon : Beacon) :
    Except Raised Emitted := do
  let s ← beacon.vendorIEs.foldlM (p.processIE draw beacon) { stats }
  if s.droneEvidence then return s
  match p.matcher.matchVendor p.texts beacon.transmitter beacon.ssid with
  | some (vendor, reason) =>
    let detection := fromFingerprint p.sensorID beacon vendor reason (draw s.detections.length)
    return { s with
      stats := { s.stats with classC := s.stats.classC + 1 }
      detections := s.detections ++ [detection] }
  | none => return s

/-- `process_frame`. -/
def processFrame (stats : PipelineStats) (draw : ℕ → Draw) (frame : List Byte) :
    Except Raised Emitted := do
  let stats := { stats with framesSeen := stats.framesSeen + 1 }
  let (beacon, errors) ← caught (parseBeacon frame)
  match beacon with
  | none => return { stats := { stats with parseErrors := stats.parseErrors + errors } }
  | some beacon => p.processBeacon { stats with beacons := stats.beacons + 1 } draw beacon

end Pipeline

/-! ## What an element gives -/

/-- An element is decoded by one of the parsers. -/
def IsDroneID (ie : List Byte) : Prop :=
  (∃ payload, Odid.parseVendorIE ie = .ok (some payload)) ∨
    ∃ payload, Dji.parseVendorIE ie = .ok (some payload)

/-- The detections so far are as the schema has them just if `c` holds, and there is evidence just
if there are any, which is if `seen` holds. -/
structure Emitted.Inv (c seen : Prop) (s : Emitted) : Prop where
  iff : ∀ d ∈ s.detections, (IsDetection d ↔ c)
  ne_nil : s.detections ≠ [] ↔ seen
  droneEvidence : s.droneEvidence = true ↔ seen

variable {c seen : Prop} {s : Emitted}

theorem Emitted.Inv.countErrors (h : s.Inv c seen) (n : ℕ) : (s.countErrors n).Inv c seen :=
  ⟨h.iff, h.ne_nil, h.droneEvidence⟩

theorem forall_mem_append_singleton_iff {detections : List Json} {detection : Json}
    (h : ∀ d ∈ detections, (IsDetection d ↔ c)) (hd : IsDetection detection ↔ c) :
    ∀ d ∈ detections ++ [detection], (IsDetection d ↔ c) := by
  intro d hmem
  rcases List.mem_append.mp hmem with hmem | hmem
  · exact h d hmem
  · rwa [List.mem_singleton.mp hmem]

theorem Emitted.Inv.yieldEvidence (h : s.Inv c seen) (stats : PipelineStats) {detection : Json}
    (hd : IsDetection detection ↔ c) : (s.yieldEvidence stats detection).Inv c True :=
  ⟨forall_mem_append_singleton_iff h.iff hd, by simp [Emitted.yieldEvidence],
    by simp [Emitted.yieldEvidence]⟩

variable {p : Pipeline} {beacon : Beacon}

/-- What `caught` makes of a parser that raises no errors but its own. -/
theorem caught_cases {α : Type} {P : α → Prop} {x : Except Raised (Option α)}
    (h : x = .ok none ∨ (∃ a, x = .ok (some a) ∧ P a) ∨ ∃ text, x = .error (.parse text)) :
    (∃ n, caught x = .ok (none, n) ∧ ∀ a, x ≠ .ok (some a)) ∨
      ∃ a, caught x = .ok (some a, 0) ∧ x = .ok (some a) ∧ P a := by
  rcases h with rfl | ⟨a, rfl, ha⟩ | ⟨text, rfl⟩
  · exact .inl ⟨0, rfl, fun a ↦ by simp⟩
  · exact .inr ⟨a, rfl, rfl, ha⟩
  · exact .inl ⟨1, rfl, fun a ↦ by simp⟩

/-- **One element**: whatever it is, nothing is raised. -/
theorem processIE_inv (hlibm : p.libm.Sound) (hmac : IsMAC beacon.transmitter)
    (hlow : ∀ r ∈ beacon.rssiDBM, -128 ≤ r) (draw : ℕ → Draw)
    (h : s.Inv (Admissible p.sensorID beacon) seen) (ie : List Byte) :
    ∃ s', p.processIE draw beacon s ie = .ok s' ∧
      s'.Inv (Admissible p.sensorID beacon) (seen ∨ IsDroneID ie) := by
  rw [Pipeline.processIE]
  rcases caught_cases (Odid.parseVendorIE_cases ie) with
    ⟨n, hcaught, hodid⟩ | ⟨payload, hcaught, hok, hpayload⟩
  swap
  · rw [hcaught, eq_true (show seen ∨ IsDroneID ie from .inr (.inl ⟨payload, hok⟩))]
    exact ⟨_, rfl, h.yieldEvidence _ (isDetection_fromOdid hmac hlow hpayload ie _)⟩
  rw [hcaught]
  dsimp only [Except.bind, bind, pure, Except.pure]
  rcases caught_cases (Dji.parseVendorIE_cases ie) with
    ⟨m, hcaught, hdji⟩ | ⟨payload, hcaught, hok, hpayload⟩
  · have hnot : ¬IsDroneID ie := by
      rintro (⟨payload, hok⟩ | ⟨payload, hok⟩)
      · exact hodid payload hok
      · exact hdji payload hok
    rw [hcaught, or_iff_left hnot]
    exact ⟨_, rfl, (h.countErrors n).countErrors m⟩
  · rw [hcaught, eq_true (show seen ∨ IsDroneID ie from .inr (.inr ⟨payload, hok⟩))]
    exact ⟨_, rfl, h.yieldEvidence _ (isDetection_fromDji hlibm hmac hlow hpayload ie _)⟩

/-- **All elements**, one after the other. -/
theorem processIEs_inv (hlibm : p.libm.Sound) (hmac : IsMAC beacon.transmitter)
    (hlow : ∀ r ∈ beacon.rssiDBM, -128 ≤ r) (draw : ℕ → Draw) (ies : List (List Byte))
    (h : s.Inv (Admissible p.sensorID beacon) seen) :
    ∃ s', ies.foldlM (p.processIE draw beacon) s = .ok s' ∧
      s'.Inv (Admissible p.sensorID beacon) (seen ∨ ∃ ie ∈ ies, IsDroneID ie) := by
  induction ies generalizing s seen with
  | nil => exact ⟨s, rfl, by simpa using h⟩
  | cons ie ies ih =>
    obtain ⟨next, hnext, hinv⟩ := processIE_inv hlibm hmac hlow draw h ie
    obtain ⟨s', hs', hinv'⟩ := ih hinv
    refine ⟨s', ?_, ?_⟩
    · rw [List.foldlM_cons, hnext]
      exact hs'
    · rw [List.exists_mem_cons_iff, ← or_assoc]
      exact hinv'

/-! ## What a frame gives -/

/-- The beacon has evidence of a drone, or the matcher recognises it. -/
def Pipeline.Recognises (p : Pipeline) (beacon : Beacon) : Prop :=
  (∃ ie ∈ beacon.vendorIEs, IsDroneID ie) ∨
    (p.matcher.matchVendor p.texts beacon.transmitter beacon.ssid).isSome

/-- **A beacon** gives detections just if it is recognised, and nothing is raised. -/
theorem processBeacon_spec (hlibm : p.libm.Sound) (hmac : IsMAC beacon.transmitter)
    (hlow : ∀ r ∈ beacon.rssiDBM, -128 ≤ r) (stats : PipelineStats) (draw : ℕ → Draw) :
    ∃ s, p.processBeacon stats draw beacon = .ok s ∧
      (∀ d ∈ s.detections, (IsDetection d ↔ Admissible p.sensorID beacon)) ∧
      (s.detections ≠ [] ↔ p.Recognises beacon) := by
  have hstart : ({ stats } : Emitted).Inv (Admissible p.sensorID beacon) False :=
    ⟨by simp, by simp, by simp⟩
  obtain ⟨s, hs, hinv⟩ := processIEs_inv hlibm hmac hlow draw beacon.vendorIEs hstart
  rw [false_or] at hinv
  rw [Pipeline.processBeacon, hs, Pipeline.Recognises]
  dsimp only [Except.bind, bind, pure, Except.pure]
  split
  · rename_i hevidence
    have hseen := hinv.droneEvidence.mp hevidence
    exact ⟨s, rfl, hinv.iff, hinv.ne_nil.trans (iff_of_true hseen (.inl hseen))⟩
  rename_i hevidence
  have hunseen := mt hinv.droneEvidence.mpr hevidence
  split
  · rename_i vendor reason hmatch
    refine ⟨_, rfl, forall_mem_append_singleton_iff hinv.iff
      (isDetection_fromFingerprint hmac hlow vendor reason _), iff_of_true (by simp) (.inr ?_)⟩
    rw [hmatch]
    rfl
  · rename_i hmatch
    refine ⟨s, rfl, hinv.iff, hinv.ne_nil.trans (iff_of_false hunseen ?_)⟩
    rw [hmatch]
    simpa using hunseen

/-- The frame is a beacon that gives a detection. -/
def Pipeline.Reports (p : Pipeline) (frame : List Byte) : Prop :=
  ∃ beacon, parseBeacon frame = .ok (some beacon) ∧ p.Recognises beacon

/-- The signal strength in the radiotap header, if there is one, is no more than the schema has. -/
def SignalInRange (frame : List Byte) : Prop :=
  ∀ rt, parseRadiotap frame = .ok rt → ∀ r ∈ rt.rssiDBM, r ≤ 20

theorem admissible_iff {frame : List Byte} {rt : RadiotapInfo} {sensorID : String}
    (hrt : parseRadiotap frame = .ok rt) (hrssi : beacon.rssiDBM = rt.rssiDBM) :
    Admissible sensorID beacon ↔ sensorID ≠ "" ∧ SignalInRange frame := by
  have hname : 1 ≤ sensorID.length ↔ sensorID ≠ "" := by
    rw [Nat.one_le_iff_ne_zero, ne_eq, String.length_eq_zero_iff]
  have hsignal : (∀ r ∈ beacon.rssiDBM, r ≤ 20) ↔ SignalInRange frame := by
    rw [hrssi]
    exact ⟨fun h rt' hrt' ↦ Except.ok.inj (hrt.symm.trans hrt') ▸ h, fun h ↦ h rt hrt⟩
  rw [← hname, ← hsignal]
  exact ⟨fun h ↦ ⟨h.1, h.2⟩, fun h ↦ ⟨h.1, h.2⟩⟩

/-- **What a frame gives.**  Nothing is raised, and each detection is as the schema has it just if
the sensor has a name and the signal is in range. -/
theorem processFrame_spec (hlibm : p.libm.Sound) (stats : PipelineStats) (draw : ℕ → Draw)
    (frame : List Byte) :
    ∃ s, p.processFrame stats draw frame = .ok s ∧
      (∀ d ∈ s.detections, (IsDetection d ↔ p.sensorID ≠ "" ∧ SignalInRange frame)) ∧
      (s.detections ≠ [] ↔ p.Reports frame) := by
  rw [Pipeline.processFrame]
  rcases parseBeacon_cases frame with ⟨beacon, rt, hbeacon, hrt, hmac, hrssi⟩ | hnone | ⟨text, herr⟩
  · have hlow : ∀ r ∈ beacon.rssiDBM, -128 ≤ r := fun r hr ↦
      (parseRadiotap_rssi hrt r (hrssi ▸ hr)).1
    obtain ⟨s, hs, hiff, hne⟩ := processBeacon_spec hlibm hmac hlow _ draw
    have hreports : p.Reports frame ↔ p.Recognises beacon := by
      rw [Pipeline.Reports, hbeacon]
      simp
    rw [admissible_iff hrt hrssi] at hiff
    rw [hbeacon, hreports]
    exact ⟨s, hs, hiff, hne⟩
  · have hreports : ¬p.Reports frame := by
      rw [Pipeline.Reports, hnone]
      simp
    rw [hnone]
    exact ⟨_, rfl, by simp, iff_of_false (by simp) hreports⟩
  · have hreports : ¬p.Reports frame := by
      rw [Pipeline.Reports, herr]
      simp
    rw [herr]
    exact ⟨_, rfl, by simp, iff_of_false (by simp) hreports⟩

/-- **When a frame gives only what the schema allows.**  Whatever the frame, nothing is raised; and
every detection is as the schema has it just if there is none, or the sensor has a name and the
signal in the radiotap header is in range. -/
theorem process_frame_iff (p : Pipeline) (hlibm : p.libm.Sound) (stats : PipelineStats)
    (draw : ℕ → Draw) (frame : List Byte) :
    ∃ s, p.processFrame stats draw frame = .ok s ∧
      ((∀ d ∈ s.detections, IsDetection d) ↔
        (p.Reports frame → p.sensorID ≠ "" ∧ SignalInRange frame)) := by
  obtain ⟨s, hs, hiff, hne⟩ := processFrame_spec hlibm stats draw frame
  refine ⟨s, hs, fun h hreports ↦ ?_, fun h d hd ↦ ?_⟩
  · obtain ⟨d, hd⟩ := List.exists_mem_of_ne_nil _ (hne.mpr hreports)
    exact (hiff d hd).mp (h d hd)
  · exact (hiff d hd).mpr (h (hne.mp (List.ne_nil_of_mem hd)))

/-- A C library that is right about lengths along an axis, and about the sides of an angle. -/
def axisLibm : Libm where
  hypot x y := |x| + |y|
  atan2 y x := y / (|x| + |y|)

theorem axisLibm_sound : axisLibm.Sound where
  hypot_nonneg x y := add_nonneg (abs_nonneg x) (abs_nonneg y)
  atan2_mem y x := by
    have hle : |y / (|x| + |y|)| ≤ 1 := by
      rw [abs_div, abs_of_nonneg (add_nonneg (abs_nonneg x) (abs_nonneg y))]
      exact div_le_one_of_le₀ (le_add_of_nonneg_left (abs_nonneg x)) (by positivity)
    obtain ⟨hlow, hhigh⟩ := abs_le.mp hle
    have hpi := pi_mem.1
    constructor
    · show -pi ≤ y / (|x| + |y|)
      linarith
    · show y / (|x| + |y|) ≤ pi
      linarith
  atan2_nonneg x hy := div_nonneg hy (by positivity)
  atan2_le {y} x hy _ := by
    show y / (|x| + |y|) ≤ y / (2 * (|x| + |y|))
    have h0 : y / (|x| + |y|) ≤ 0 := div_nonpos_of_nonpos_of_nonneg hy.le (by positivity)
    have heq : y / (2 * (|x| + |y|)) = y / (|x| + |y|) / 2 := by
      rw [div_div, mul_comm]
    rw [heq]
    linarith

/-- A sensor that knows no fingerprints. -/
def wifi0 : Pipeline where
  sensorID := "wifi-0"
  texts := ⟨id, fun _ _ ↦ false⟩
  libm := axisLibm

/-- A clock and a random source that stand still. -/
def still (_ : ℕ) : Draw := ⟨List.replicate 10 0, 0, "1970-01-01T00:00:00.000Z"⟩

/-- A beacon with a single vendor element, received with the signal strength. -/
def beaconFrame (rssi : Byte) (ie : List Byte) : List Byte :=
  [0, 0, 9, 0, 0x20, 0, 0, 0, rssi] ++ [0x80] ++ List.replicate 35 0 ++
    [tagVendorSpecific, Fin.ofNat 256 ie.length] ++ ie

/-- The telemetry of an aircraft that hovers, without the fields after its velocity. -/
def hovering : List Byte :=
  [0x26, 0x37, 0x12, 0, 0, 0, 0x10, 2, 42, 0, 15, 0] ++ List.replicate 16 0x31 ++
    [0x10, 0x27, 0, 0, 0x10, 0x27, 0, 0, 120, 0, 100, 0, 0, 0, 0, 0, 0, 0]

/-- A signal of -60 dBm is in range. -/
theorem process_frame_hovering : ∃ s,
    wifi0.processFrame {} still (beaconFrame 196 hovering) = .ok s ∧
      ∀ d ∈ s.detections, IsDetection d := by
  have hrt : parseRadiotap (beaconFrame 196 hovering) = .ok ⟨9, none, some (-60)⟩ := by rfl
  obtain ⟨s, hs, hiff⟩ :=
    process_frame_iff wifi0 axisLibm_sound {} still (beaconFrame 196 hovering)
  refine ⟨s, hs, hiff.mpr fun _ ↦ ⟨by decide, fun rt hrt' r hr ↦ ?_⟩⟩
  obtain rfl := Except.ok.inj (hrt.symm.trans hrt')
  obtain rfl := Option.some.inj hr
  norm_num

/-- An element of DroneID that describes no flight. -/
def emptyPurpose : List Byte := [0x26, 0x37, 0x12, 0, 0, 0, 0x11]

/-- A signal of 100 dBm is not in range, and it is passed on. -/
theorem loud_frame : ¬∀ (stats : PipelineStats) (draw : ℕ → Draw) (frame : List Byte), ∃ s,
    wifi0.processFrame stats draw frame = .ok s ∧ ∀ d ∈ s.detections, IsDetection d := by
  intro h
  obtain ⟨s, hs, hall⟩ := h {} still (beaconFrame 100 emptyPurpose)
  obtain ⟨s', hs', hiff, hne⟩ :=
    processFrame_spec (p := wifi0) axisLibm_sound {} still (beaconFrame 100 emptyPurpose)
  obtain rfl := Except.ok.inj (hs.symm.trans hs')
  have hrt : parseRadiotap (beaconFrame 100 emptyPurpose) = .ok ⟨9, none, some 100⟩ := by rfl
  have hdrop : (beaconFrame 100 emptyPurpose).drop 45 = tagVendorSpecific :: 7 :: emptyPurpose := by
    rfl
  have htags : parseTags ((beaconFrame 100 emptyPurpose).drop 45) =
      [(tagVendorSpecific, emptyPurpose)] := by
    rw [hdrop]
    simp [parseTags, emptyPurpose]
  have hreports : wifi0.Reports (beaconFrame 100 emptyPurpose) := by
    refine ⟨_, rfl, .inl ⟨emptyPurpose, ?_, .inr ⟨_, rfl⟩⟩⟩
    show emptyPurpose ∈ ((parseTags ((beaconFrame 100 emptyPurpose).drop 45)).filter
      fun t ↦ t.1 = tagVendorSpecific).map Prod.snd
    rw [htags]
    simp
  obtain ⟨d, hd⟩ := List.exists_mem_of_ne_nil _ (hne.mpr hreports)
  have hle : (100 : ℤ) ≤ 20 := ((hiff d hd).mp (hall d hd)).2 _ hrt 100 rfl
  norm_num at hle

end ClassG.Wifi
