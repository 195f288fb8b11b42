import Mathlib.Data.List.Sort
import ClassG.Binary64
import ClassG.ForGo.Map
import ClassG.Machine

/-!
# Channel occupancy

`SurveySampler` of `classg_wifi/survey.py`.  The driver counts for each channel how long the radio
was on it, and how much of that time it was busy, received and transmitted; a sample is the
difference to the reading before.

A counter that moves backwards has been reset, and such a window should be dropped.  That is so for
two of the four counters.  `sample_iff` says which windows are dropped all the same, and that the
times of a channel add up while its windows are reported.  Times are exact, in milliseconds, and
rounded where they are reported.
-/

set_option autoImplicit false

namespace ClassG.Wifi

open Double Machine

/-- The counters of a channel.  One that the driver does not report is `0`. -/
structure ChannelSurvey where
  freqMHz : ℤ
  inUse : Bool
  noiseDBM : Option ℚ
  activeMs : ℚ
  busyMs : ℚ
  rxMs : ℚ
  txMs : ℚ

/-- An entry of a sample. -/
structure SurveyEntry where
  freqMHz : ℤ
  band : String
  inUse : Bool
  activeMs : ℚ
  busyMs : ℚ
  busyFraction : ℚ
  rxMs : ℚ
  txMs : ℚ
  channel : Option ℤ
  noiseDBM : Option ℚ

/-- `channel_for`. -/
def channelFor (freqMHz : ℤ) : Option ℤ :=
  if freqMHz = 2484 then some 14
  else if 2412 ≤ freqMHz ∧ freqMHz ≤ 2472 then some ((freqMHz - 2407) / 5)
  else if 5160 ≤ freqMHz ∧ freqMHz ≤ 5885 then some ((freqMHz - 5000) / 5)
  else if 5955 ≤ freqMHz ∧ freqMHz ≤ 7115 then some ((freqMHz - 5950) / 5)
  else none

/-- `band_for`. -/
def bandFor (freqMHz : ℤ) : String :=
  if freqMHz < 3000 then "2.4" else if freqMHz < 5925 then "5" else "6"

/-- `round(x, n)`. -/
def roundTo (n : ℕ) (x : ℚ) : ℚ := roundEven (x * 10 ^ n) / 10 ^ n

/-- The entry for the window between two readings of a channel. -/
def window (previous reading : ChannelSurvey) : SurveyEntry :=
  let active := reading.activeMs - previous.activeMs
  let busy := reading.busyMs - previous.busyMs
  let rx := reading.rxMs - previous.rxMs
  let tx := reading.txMs - previous.txMs
  { freqMHz := reading.freqMHz
    band := bandFor reading.freqMHz
    inUse := reading.inUse
    activeMs := roundTo 1 active
    busyMs := roundTo 1 busy
    busyFraction := roundTo 4 (min (busy / active) 1)
    rxMs := roundTo 1 rx
    txMs := roundTo 1 (max tx 0)
    channel := channelFor reading.freqMHz
    noiseDBM := reading.noiseDBM }

/-- The body of the loop, where there is a reading before. -/
def entryOf (previous reading : ChannelSurvey) : Option SurveyEntry :=
  let active := reading.activeMs - previous.activeMs
  let busy := reading.busyMs - previous.busyMs
  let rx := reading.rxMs - previous.rxMs
  if active < 0 ∨ busy < 0 then none
  else if active ≤ 0 then none
  else if busy ≤ 0 ∧ rx ≤ 0 ∧ reading.noiseDBM = none then none
  else some (window previous reading)

/-- The loop over the readings. -/
def differences : GoMap ℤ ChannelSurvey → List ChannelSurvey →
    List SurveyEntry × GoMap ℤ ChannelSurvey
  | previous, [] => ([], previous)
  | previous, reading :: readings =>
    let entry := (previous.get reading.freqMHz).bind fun p ↦ entryOf p reading
    let (out, previous) := differences (previous.put reading.freqMHz reading) readings
    (entry.toList ++ out, previous)

structure SurveySampler where
  previous : GoMap ℤ ChannelSurvey
  available : Option Bool
  reason : String
  seen : ℕ

/-- What the driver reports at one time: channels that are distinct. -/
structure Survey where
  readings : List ChannelSurvey
  nodup : (readings.map ChannelSurvey.freqMHz).Nodup

namespace SurveySampler

/-- `SurveySampler(iface)`. -/
def new : SurveySampler := ⟨.empty, none, "", 0⟩

/-- `sample`, with what `read_survey` returns. -/
def sample (s : SurveySampler) (readings : List ChannelSurvey) :
    List SurveyEntry × SurveySampler :=
  let s := { s with seen := readings.length }
  if readings = [] then
    ([], { s with
      available := some false
      reason := "iw reported no survey for this interface"
      previous := .empty })
  else
    let hadPrevious := s.previous.len ≠ 0
    let (out, previous) := differences s.previous readings
    let out := out.insertionSort fun a b ↦ a.freqMHz ≤ b.freqMHz
    let noun := if s.seen = 1 then "entry" else "entries"
    let reason :=
      if out ≠ [] then ""
      else if hadPrevious then
        s!"the driver returned {s.seen} survey {noun} carrying no busy time " ++
          "and no noise floor, so there is no occupancy to report"
      else s.reason
    (out, { s with available := some true, reason := reason, previous := previous })

end SurveySampler

/-! ## One sample -/

/-- The radio was on the channel, its counters did not go back, and there is a measurement. -/
def Reported (previous reading : ChannelSurvey) : Prop :=
  previous.activeMs < reading.activeMs ∧ previous.busyMs ≤ reading.busyMs ∧
    (previous.busyMs < reading.busyMs ∨ previous.rxMs < reading.rxMs ∨ reading.noiseDBM ≠ none)

theorem entryOf_eq_some {previous reading : ChannelSurvey} {e : SurveyEntry} :
    entryOf previous reading = some e ↔
      Reported previous reading ∧ window previous reading = e := by
  rw [entryOf, Reported]
  split_ifs with hback hstill hnothing
  · refine iff_of_false (by simp) ?_
    rintro ⟨⟨hactive, hbusy, -⟩, -⟩
    rcases hback with hback | hback <;> linarith
  · refine iff_of_false (by simp) ?_
    rintro ⟨⟨hactive, -⟩, -⟩
    linarith
  · refine iff_of_false (by simp) ?_
    obtain ⟨hbusy, hrx, hnoise⟩ := hnothing
    rintro ⟨⟨-, -, hmore | hmore | hmore⟩, -⟩
    · linarith
    · linarith
    · exact hmore hnoise
  · rw [Option.some.injEq]
    obtain ⟨hactive, hbusy⟩ := not_or.mp hback
    refine (and_iff_right ⟨by linarith, by linarith, ?_⟩).symm
    by_contra hno
    obtain ⟨hbusy', hrx, hnoise⟩ := not_or.mp hno |>.imp_right not_or.mp
    exact hnothing ⟨by linarith, by linarith, not_not.mp hnoise⟩

/-- The readings of a sample take the place of those before. -/
theorem get_differences (previous : GoMap ℤ ChannelSurvey) {readings : List ChannelSurvey}
    (h : (readings.map ChannelSurvey.freqMHz).Nodup) (f : ℤ) :
    (differences previous readings).2.get f =
      (readings.find? (·.freqMHz = f)).or (previous.get f) := by
  induction readings generalizing previous with
  | nil => rfl
  | cons reading readings ih =>
    obtain ⟨hnotin, hnodup⟩ := List.nodup_cons.mp h
    rw [differences, List.find?_cons]
    dsimp only
    rw [ih _ hnodup, GoMap.get_put]
    by_cases hf : reading.freqMHz = f
    · have hnone : readings.find? (·.freqMHz = f) = none := by
        rw [List.find?_eq_none]
        intro r hr hrf
        rw [← of_decide_eq_true hrf] at hf
        exact hnotin (hf ▸ List.mem_map_of_mem hr)
      rw [hnone, if_pos hf.symm, decide_eq_true hf]
      rfl
    · rw [if_neg (Ne.symm hf), decide_eq_false hf]

/-- **The step of the loop**: an entry is that of a channel with a reading before. -/
theorem mem_differences {previous : GoMap ℤ ChannelSurvey} {readings : List ChannelSurvey}
    (h : (readings.map ChannelSurvey.freqMHz).Nodup) {e : SurveyEntry} :
    e ∈ (differences previous readings).1 ↔
      ∃ reading ∈ readings, ∃ p, previous.get reading.freqMHz = some p ∧
        entryOf p reading = some e := by
  induction readings generalizing previous with
  | nil => simp [differences]
  | cons reading readings ih =>
    obtain ⟨hnotin, hnodup⟩ := List.nodup_cons.mp h
    rw [differences]
    dsimp only
    rw [List.mem_append, ih hnodup, List.exists_mem_cons_iff, Option.mem_toList,
      Option.bind_eq_some_iff]
    refine or_congr Iff.rfl (exists_congr fun r ↦ and_congr_right fun hr ↦ ?_)
    have hne : r.freqMHz ≠ reading.freqMHz := fun heq ↦
      hnotin (heq ▸ List.mem_map_of_mem hr)
    rw [GoMap.get_put, if_neg hne]

namespace SurveySampler

theorem mem_sample {s : SurveySampler} {a : Survey} {e : SurveyEntry} :
    e ∈ (s.sample a.readings).1 ↔ ∃ reading ∈ a.readings, ∃ p,
      s.previous.get reading.freqMHz = some p ∧ Reported p reading ∧ window p reading = e := by
  simp only [← entryOf_eq_some]
  rw [← mem_differences a.nodup, sample]
  split
  · rename_i hnil
    rw [hnil, differences]
  · exact (List.perm_insertionSort ..).mem_iff

theorem get_sample (s : SurveySampler) (a : Survey) (f : ℤ) :
    (s.sample a.readings).2.previous.get f =
      if a.readings = [] then none
      else (a.readings.find? (·.freqMHz = f)).or (s.previous.get f) := by
  rw [sample, ← get_differences _ a.nodup]
  split <;> rfl

end SurveySampler

/-! ## Rounding -/

theorem roundTo_nonneg {n : ℕ} {x : ℚ} (h : 0 ≤ x) : 0 ≤ roundTo n x := by
  have hround : 0 ≤ roundEven (x * 10 ^ n) := le_roundEven (by push_cast; positivity)
  rw [roundTo]
  exact div_nonneg (by exact_mod_cast hround) (by positivity)

theorem roundTo_le_one {n : ℕ} {x : ℚ} (h : x ≤ 1) : roundTo n x ≤ 1 := by
  have hround : roundEven (x * 10 ^ n) ≤ (10 ^ n : ℤ) :=
    roundEven_le (by push_cast; exact mul_le_of_le_one_left (by positivity) h)
  rw [roundTo, div_le_one (by positivity)]
  exact_mod_cast hround

/-- A whole number of tenths. -/
def Tenths (x : ℚ) : Prop := ∃ n : ℤ, x = n / 10

theorem Tenths.sub {x y : ℚ} (hx : Tenths x) (hy : Tenths y) : Tenths (x - y) := by
  obtain ⟨m, rfl⟩ := hx
  obtain ⟨n, rfl⟩ := hy
  exact ⟨m - n, by push_cast; ring⟩

/-- Of a whole number of tenths nothing is rounded off. -/
theorem roundTo_of_tenths {x : ℚ} (h : Tenths x) : roundTo 1 x = x := by
  obtain ⟨n, rfl⟩ := h
  rw [roundTo, pow_one, div_mul_cancel₀ _ (by norm_num), roundEven_intCast]

/-- Whole tenths of milliseconds.  The driver counts whole ones. -/
structure ChannelSurvey.InTenths (r : ChannelSurvey) : Prop where
  active : Tenths r.activeMs
  busy : Tenths r.busyMs

/-! ## Runs -/

/-- A sampler from the moment it is built. -/
def surveying : Machine SurveySampler Survey where
  init s := s = .new
  next s a s' := s' = (s.sample a.readings).2

/-- What the sample reports. -/
def reported (x : Step SurveySampler Survey) : List SurveyEntry := (x.pre.sample x.act.readings).1

/-- The last reading of a channel. -/
def lastReading (f : ℤ) : List (Step SurveySampler Survey) → Option ChannelSurvey
  | [] => none
  | x :: older => (x.act.readings.find? (·.freqMHz = f)).or (lastReading f older)

/-- The last reading of a channel, since there was a survey with nothing in it. -/
def baseReading (f : ℤ) : List (Step SurveySampler Survey) → Option ChannelSurvey
  | [] => none
  | x :: older =>
    if x.act.readings = [] then none
    else (x.act.readings.find? (·.freqMHz = f)).or (baseReading f older)

variable {tr : List (Step SurveySampler Survey)} {s : SurveySampler}

theorem lastReading_of_baseReading {f : ℤ} {p : ChannelSurvey} (h : baseReading f tr = some p) :
    lastReading f tr = some p := by
  induction tr with
  | nil => cases h
  | cons x older ih =>
    rw [baseReading] at h
    split at h
    · cases h
    · rw [lastReading]
      rcases Option.or_eq_some_iff.mp h with hfind | ⟨hfind, hbase⟩
      · rw [hfind]
        rfl
      · rw [hfind, ih hbase]
        rfl

/-- **What a sampler remembers**: the last reading of each channel. -/
theorem get_previous (hr : Run surveying tr s) (f : ℤ) : s.previous.get f = baseReading f tr := by
  refine hr.trace_invariant_of (C := fun _ _ ↦ True)
    (I := fun tr s ↦ s.previous.get f = baseReading f tr) (fun _ _ ↦ trivial) ?_ ?_
  · rintro s rfl
    rfl
  · rintro tr s a _ - hi - rfl
    rw [SurveySampler.get_sample, hi, baseReading]

theorem mem_of_baseReading {f : ℤ} {p : ChannelSurvey} (h : baseReading f tr = some p) :
    ∃ x ∈ tr, p ∈ x.act.readings := by
  induction tr with
  | nil => cases h
  | cons x older ih =>
    rw [baseReading] at h
    split at h
    · cases h
    · rcases Option.or_eq_some_iff.mp h with hfind | ⟨-, hbase⟩
      · exact ⟨x, List.mem_cons_self, List.mem_of_find?_eq_some hfind⟩
      · obtain ⟨y, hy, hp⟩ := ih hbase
        exact ⟨y, List.mem_cons_of_mem _ hy, hp⟩

/-- Of the readings of a survey, one is of the channel. -/
theorem Survey.eq_of_freqMHz {a : Survey} {r r' : ChannelSurvey} (hr : r ∈ a.readings)
    (hr' : r' ∈ a.readings) (h : r.freqMHz = r'.freqMHz) : r = r' :=
  List.inj_on_of_nodup_map a.nodup hr hr' h

theorem mem_reported (hr : Run surveying tr s) {a : Survey} {s' : SurveySampler}
    {e : SurveyEntry} : e ∈ reported ⟨s, a, s'⟩ ↔ ∃ reading ∈ a.readings, ∃ p,
      baseReading reading.freqMHz tr = some p ∧ Reported p reading ∧ window p reading = e := by
  rw [reported, SurveySampler.mem_sample]
  simp only [get_previous hr]

/-! ## Windows -/

/-- One of the counters of a channel has moved backwards. -/
def MovedBack (previous reading : ChannelSurvey) : Prop :=
  reading.activeMs < previous.activeMs ∨ reading.busyMs < previous.busyMs ∨
    reading.rxMs < previous.rxMs ∨ reading.txMs < previous.txMs

/-- **What a sample should be**, after the steps `older`: its entries are windows since the last
reading of their channel, there is none where a counter has moved backwards, and the times and the
fraction are in their ranges. -/
structure SampleRight (older : List (Step SurveySampler Survey)) (x : Step SurveySampler Survey) :
    Prop where
  measured : ∀ e ∈ reported x, ∃ r ∈ x.act.readings, ∃ p,
    lastReading r.freqMHz older = some p ∧ window p r = e
  dropped : ∀ r ∈ x.act.readings, ∀ p, lastReading r.freqMHz older = some p → MovedBack p r →
    ∀ e ∈ reported x, e.freqMHz ≠ r.freqMHz
  ranged : ∀ e ∈ reported x, 0 < e.activeMs ∧ 0 ≤ e.busyMs ∧ 0 ≤ e.rxMs ∧ 0 ≤ e.txMs ∧
    0 ≤ e.busyFraction ∧ e.busyFraction ≤ 1

/-- Where a window is reported, the times of receiving and transmitting have not moved
backwards. -/
def Steady (older : List (Step SurveySampler Survey)) (a : Survey) : Prop :=
  ∀ r ∈ a.readings, ∀ p, baseReading r.freqMHz older = some p → Reported p r →
    p.rxMs ≤ r.rxMs ∧ p.txMs ≤ r.txMs

/-- The readings are whole tenths of milliseconds. -/
def InTenths (tr : List (Step SurveySampler Survey)) : Prop :=
  ∀ x ∈ tr, ∀ r ∈ x.act.readings, r.InTenths

/-- What is reported of a window that is steady is in range. -/
theorem window_ranged {p r : ChannelSurvey} (hp : p.InTenths) (hr : r.InTenths)
    (h : Reported p r) (hrx : p.rxMs ≤ r.rxMs) :
    0 < (window p r).activeMs ∧ 0 ≤ (window p r).busyMs ∧ 0 ≤ (window p r).rxMs ∧
      0 ≤ (window p r).txMs ∧ 0 ≤ (window p r).busyFraction ∧ (window p r).busyFraction ≤ 1 := by
  obtain ⟨hactive, hbusy, -⟩ := h
  have hpos : 0 < r.activeMs - p.activeMs := sub_pos.mpr hactive
  have hbusy' : 0 ≤ r.busyMs - p.busyMs := sub_nonneg.mpr hbusy
  refine ⟨?_, roundTo_nonneg hbusy', roundTo_nonneg (sub_nonneg.mpr hrx),
    roundTo_nonneg (le_max_right _ _), roundTo_nonneg (le_min (div_nonneg hbusy' hpos.le)
      zero_le_one), roundTo_le_one (min_le_right _ _)⟩
  rw [window]
  dsimp only
  rwa [roundTo_of_tenths (hr.active.sub hp.active)]

/-- **The step lemma**: a sample is right exactly if its windows are steady. -/
theorem sampleRight_iff (hr : Run surveying tr s) {a : Survey} {s' : SurveySampler}
    (htr : InTenths tr) (ha : ∀ r ∈ a.readings, r.InTenths) :
    SampleRight tr ⟨s, a, s'⟩ ↔ Steady tr a := by
  constructor
  · intro hright r hmem p hbase hreported
    by_contra hno
    have hback : MovedBack p r := by
      rcases not_and_or.mp hno with hrx | htx
      · exact .inr (.inr (.inl (not_le.mp hrx)))
      · exact .inr (.inr (.inr (not_le.mp htx)))
    exact hright.dropped r hmem p (lastReading_of_baseReading hbase) hback (window p r)
      ((mem_reported hr).mpr ⟨r, hmem, p, hbase, hreported, rfl⟩) rfl
  · intro hsteady
    refine ⟨fun e he ↦ ?_, fun r hmem p hlast hback e he hfreq ↦ ?_, fun e he ↦ ?_⟩
    · obtain ⟨r, hmem, p, hbase, -, rfl⟩ := (mem_reported hr).mp he
      exact ⟨r, hmem, p, lastReading_of_baseReading hbase, rfl⟩
    · obtain ⟨r', hmem', p', hbase, hreported, rfl⟩ := (mem_reported hr).mp he
      obtain rfl : r' = r := Survey.eq_of_freqMHz hmem' hmem hfreq
      obtain rfl : p' = p := Option.some.inj ((lastReading_of_baseReading hbase).symm.trans hlast)
      obtain ⟨hrx, htx⟩ := hsteady r' hmem' p' hbase hreported
      rcases hback with hback | hback | hback | hback
      · exact hback.not_gt hreported.1
      · exact hback.not_ge hreported.2.1
      · exact hback.not_ge hrx
      · exact hback.not_ge htx
    · obtain ⟨r, hmem, p, hbase, hreported, rfl⟩ := (mem_reported hr).mp he
      obtain ⟨x, hx, hp⟩ := mem_of_baseReading hbase
      exact window_ranged (htr x hx p hp) (ha r hmem) hreported
        (hsteady r hmem p hbase hreported).1

theorem always_sampleRight_iff (hr : Run surveying tr s) (htr : InTenths tr) :
    Always SampleRight tr ↔ Always (fun older x ↦ Steady older x.act) tr := by
  induction hr with
  | init => exact Iff.rfl
  | step a s' hr hn ih =>
    obtain ⟨ha, htr⟩ := List.forall_mem_cons.mp htr
    exact and_congr (sampleRight_iff hr htr ha) (ih htr)

/-! ## Stretches -/

/-- The loop gives no more than one entry for a reading. -/
theorem differences_sublist (previous : GoMap ℤ ChannelSurvey) (readings : List ChannelSurvey) :
    ((differences previous readings).1.map SurveyEntry.freqMHz).Sublist
      (readings.map ChannelSurvey.freqMHz) := by
  induction readings generalizing previous with
  | nil => exact .slnil
  | cons reading readings ih =>
    rw [differences, List.map_cons]
    dsimp only
    rcases hentry : (previous.get reading.freqMHz).bind fun p ↦ entryOf p reading with _ | e
    · exact (ih _).cons _
    · obtain ⟨p, -, he⟩ := Option.bind_eq_some_iff.mp hentry
      obtain ⟨-, rfl⟩ := entryOf_eq_some.mp he
      exact (ih _).cons_cons _

theorem nodup_reported (x : Step SurveySampler Survey) :
    ((reported x).map SurveyEntry.freqMHz).Nodup := by
  rw [reported, SurveySampler.sample]
  split
  · exact List.nodup_nil
  · refine ((List.perm_insertionSort ..).map _).nodup_iff.mpr ?_
    exact (differences_sublist _ _).nodup x.act.nodup

/-- What a sample reports of a channel. -/
def entriesOf (f : ℤ) (x : Step SurveySampler Survey) : List SurveyEntry :=
  (reported x).filter (·.freqMHz = f)

theorem entriesOf_eq_nil (hr : Run surveying tr s) {a : Survey} {s' : SurveySampler} {f : ℤ}
    (h : a.readings.find? (·.freqMHz = f) = none) : entriesOf f ⟨s, a, s'⟩ = [] := by
  rw [entriesOf, List.filter_eq_nil_iff]
  intro e he hf
  obtain ⟨r, hmem, p, -, -, rfl⟩ := (mem_reported hr).mp he
  exact List.find?_eq_none.mp h r hmem hf

/-- Where there is an entry for a channel, it is the one for its window. -/
theorem entriesOf_eq_singleton (hr : Run surveying tr s) {a : Survey} {s' : SurveySampler}
    {r : ChannelSurvey} (hmem : r ∈ a.readings)
    (h : ∃ e ∈ reported ⟨s, a, s'⟩, e.freqMHz = r.freqMHz) :
    ∃ p, baseReading r.freqMHz tr = some p ∧ entriesOf r.freqMHz ⟨s, a, s'⟩ = [window p r] := by
  obtain ⟨e, he, hf⟩ := h
  obtain ⟨r', hmem', p, hbase, -, rfl⟩ := (mem_reported hr).mp he
  obtain rfl : r' = r := Survey.eq_of_freqMHz hmem' hmem hf
  refine ⟨p, hbase, ?_⟩
  have hnodup := (nodup_reported ⟨s, a, s'⟩).of_map
  have hperm : (entriesOf r'.freqMHz ⟨s, a, s'⟩).Perm [window p r'] := by
    rw [entriesOf]
    refine (List.perm_ext_iff_of_nodup (hnodup.filter _) (List.nodup_singleton _)).mpr ?_
    intro e
    rw [List.mem_filter, List.mem_singleton, decide_eq_true_eq]
    constructor
    · rintro ⟨he', hf'⟩
      exact List.inj_on_of_nodup_map (nodup_reported ⟨s, a, s'⟩) he' he hf'
    · rintro rfl
      exact ⟨he, rfl⟩
  exact List.perm_singleton.mp hperm

/-- The times that are reported of a channel over a stretch, together. -/
def total (time : SurveyEntry → ℚ) (f : ℤ) (stretch : List (Step SurveySampler Survey)) : ℚ :=
  ((stretch.flatMap (entriesOf f)).map time).sum

theorem total_cons (time : SurveyEntry → ℚ) (f : ℤ) (x : Step SurveySampler Survey)
    (stretch : List (Step SurveySampler Survey)) :
    total time f (x :: stretch) = ((entriesOf f x).map time).sum + total time f stretch := by
  rw [total, List.flatMap_cons, List.map_append, List.sum_append, total]

/-- Each sample with a reading of the channel has an entry for it. -/
def ReportsAll (f : ℤ) (stretch : List (Step SurveySampler Survey)) : Prop :=
  ∀ x ∈ stretch, ∀ r ∈ x.act.readings, r.freqMHz = f → ∃ e ∈ reported x, e.freqMHz = f

/-- **Times add up**: over a stretch in which each window is reported, to the difference between
the last reading and the first. -/
theorem total_of_reportsAll {stretch older : List (Step SurveySampler Survey)}
    (hr : Run surveying (stretch ++ older) s) (htr : InTenths (stretch ++ older)) {f : ℤ}
    {p q : ChannelSurvey} (hfirst : lastReading f older = some p)
    (hlast : lastReading f (stretch ++ older) = some q) (hall : ReportsAll f stretch) :
    total SurveyEntry.activeMs f stretch = q.activeMs - p.activeMs ∧
      total SurveyEntry.busyMs f stretch = q.busyMs - p.busyMs := by
  induction stretch generalizing s q with
  | nil =>
    obtain rfl : p = q := Option.some.inj (hfirst.symm.trans hlast)
    exact ⟨(sub_self _).symm, (sub_self _).symm⟩
  | cons x stretch ih =>
    obtain ⟨hx, hall⟩ := List.forall_mem_cons.mp hall
    obtain ⟨hmore, -, -⟩ := hr.of_cons
    obtain ⟨hxtenths, htenths⟩ := List.forall_mem_cons.mp htr
    rw [total_cons, total_cons]
    rw [List.cons_append, lastReading] at hlast
    rcases hfind : x.act.readings.find? (·.freqMHz = f) with _ | r
    · rw [hfind] at hlast
      rw [entriesOf_eq_nil hmore hfind]
      have hsum := ih hmore htenths hlast hall
      simpa using hsum
    · rw [hfind] at hlast
      obtain rfl : r = q := Option.some.inj hlast
      have hmem := List.mem_of_find?_eq_some hfind
      have hf := List.find?_some hfind
      obtain rfl : r.freqMHz = f := of_decide_eq_true hf
      obtain ⟨p', hbase, hentries⟩ := entriesOf_eq_singleton hmore hmem (hx r hmem rfl)
      obtain ⟨y, hy, hp'⟩ := mem_of_baseReading hbase
      obtain ⟨hactive, hbusy⟩ := ih hmore htenths (lastReading_of_baseReading hbase) hall
      have hp'tenths := htenths y hy p' hp'
      have hrtenths := hxtenths r hmem
      have hwindow : (window p' r).activeMs = r.activeMs - p'.activeMs ∧
          (window p' r).busyMs = r.busyMs - p'.busyMs :=
        ⟨roundTo_of_tenths (hrtenths.active.sub hp'tenths.active),
          roundTo_of_tenths (hrtenths.busy.sub hp'tenths.busy)⟩
      rw [hentries, hactive, hbusy, List.map_singleton, List.map_singleton, List.sum_singleton,
        List.sum_singleton, hwindow.1, hwindow.2]
      constructor <;> ring

/-- **When the windows of resets are dropped.**  In a run whose readings are whole tenths of
milliseconds all samples are right exactly if no window is reported in which the time of receiving
or of transmitting has moved backwards.  Over a stretch in which each window of a channel is
reported its active and its busy times add up. -/
theorem sample_iff (hr : Run surveying tr s) (htr : InTenths tr) :
    (Always SampleRight tr ↔ Always (fun older x ↦ Steady older x.act) tr) ∧
      ∀ stretch older f p q, tr = stretch ++ older → lastReading f older = some p →
        lastReading f tr = some q → ReportsAll f stretch →
          total SurveyEntry.activeMs f stretch = q.activeMs - p.activeMs ∧
            total SurveyEntry.busyMs f stretch = q.busyMs - p.busyMs := by
  refine ⟨always_sampleRight_iff hr htr, ?_⟩
  rintro stretch older f p q rfl hfirst hlast hall
  exact total_of_reportsAll hr htr hfirst hlast hall

/-- A survey of channel 6. -/
def survey6 (activeMs busyMs rxMs : ℚ) : Survey where
  readings := [⟨2437, true, some (-92), activeMs, busyMs, rxMs, 0⟩]
  nodup := List.nodup_singleton _

/-- The sampler after one survey of channel 6. -/
def after6 (activeMs busyMs rxMs : ℚ) : SurveySampler :=
  (SurveySampler.new.sample (survey6 activeMs busyMs rxMs).readings).2

theorem run_after6 (activeMs busyMs rxMs : ℚ) : Run surveying
    [⟨.new, survey6 activeMs busyMs rxMs, after6 activeMs busyMs rxMs⟩]
      (after6 activeMs busyMs rxMs) :=
  have hinit : surveying.init .new := rfl
  .step _ _ (.init hinit) rfl

/-- A second later, half of it busy. -/
def second6 (rxMs : ℚ) : Step SurveySampler Survey :=
  ⟨after6 10000 4000 300, survey6 11000 4500 rxMs,
    ((after6 10000 4000 300).sample (survey6 11000 4500 rxMs).readings).2⟩

theorem run_second6 (rxMs : ℚ) : Run surveying
    [second6 rxMs, ⟨.new, survey6 10000 4000 300, after6 10000 4000 300⟩] (second6 rxMs).post :=
  .step _ _ (run_after6 10000 4000 300) rfl

theorem inTenths_second6 (rxMs : ℚ) : InTenths
    [second6 rxMs, ⟨.new, survey6 10000 4000 300, after6 10000 4000 300⟩] := by
  simp only [InTenths, second6, survey6, List.forall_mem_cons, List.not_mem_nil, false_implies,
    implies_true, and_true]
  exact ⟨⟨⟨110000, by norm_num⟩, ⟨45000, by norm_num⟩⟩,
    ⟨⟨100000, by norm_num⟩, ⟨40000, by norm_num⟩⟩⟩

/-- The window is reported, whatever was received. -/
theorem mem_second6 (rxMs : ℚ) :
    window ⟨2437, true, some (-92), 10000, 4000, 300, 0⟩
        ⟨2437, true, some (-92), 11000, 4500, rxMs, 0⟩ ∈ reported (second6 rxMs) := by
  refine (mem_reported (run_after6 10000 4000 300)).mpr
    ⟨_, List.mem_singleton_self _, _, rfl, ⟨?_, ?_, .inl ?_⟩, rfl⟩ <;> norm_num

theorem second6_adds_up : total SurveyEntry.activeMs 2437 [second6 500] = 11000 - 10000 ∧
    total SurveyEntry.busyMs 2437 [second6 500] = 4500 - 4000 := by
  refine (sample_iff (run_second6 500) (inTenths_second6 500)).2 [second6 500] _ 2437 _ _ rfl rfl
    rfl ?_
  intro x hx r hr hf
  rw [List.mem_singleton.mp hx]
  exact ⟨_, mem_second6 500, rfl⟩

/-- The time of receiving has been reset, and the window is reported all the same. -/
theorem second6_not_dropped : ∃ tr s, Run surveying tr s ∧ InTenths tr ∧ ¬Always SampleRight tr := by
  refine ⟨_, _, run_second6 200, inTenths_second6 200, fun hall ↦ ?_⟩
  refine hall.1.dropped _ (List.mem_singleton_self _) _ rfl ?_ _ (mem_second6 200) rfl
  exact .inr (.inr (.inl (by norm_num)))

end ClassG.Wifi
