import Mathlib.Data.List.Induction
import ClassG.Store.Contents

/-!
# The two stores agree on reads

The same writes leave in the database a row for each track and detection that is in memory
(`mirrors_run`), and then every filter of a query says the same of the row as of what is in memory,
as long as

* the instants that the query compares with have years of at most four digits, so that texts
  compare as instants do;
* the vendor it asks for has no letter that only `EqualFold` takes for one of ASCII;
* no stored confidence is negative, or the query asks for a positive one.

`reads_agree` is the result, and `reads_disagree` shows what happens otherwise.
-/

set_option autoImplicit false

namespace ClassG.Store

/-! ## The domain -/

/-- The instant has a year from 1 to 9999. -/
def Stored (t : GoTime) : Prop := 1 ≤ GoTime.year t ∧ GoTime.year t ≤ 9999

instance (t : GoTime) : Decidable (Stored t) := inferInstanceAs (Decidable (_ ∧ _))

theorem Stored.inRange {t : GoTime} (h : Stored t) : GoTime.InRange t :=
  ⟨by have := h.1; omega, h.2⟩

/-- The text has no white space around it. -/
def Trimmed (s : String) : Prop := GoString.trimSpace s = s

instance (s : String) : Decidable (Trimmed s) := inferInstanceAs (Decidable (_ = _))

/-- What the stores are filled with. -/
structure Track.InDomain (t : Track) : Prop where
  firstSeen : Stored t.firstSeen
  lastSeen : Stored t.lastSeen
  vendor : ∀ c ∈ t.identity.vendor.toList, c.toNat < 0x80
  macs : ∀ mac ∈ t.identity.macs, Trimmed mac

structure Detection.InDomain (d : Detection) : Prop where
  ts : Stored d.ts
  mac : Trimmed d.identity.mac

def Write.InDomain : Write → Prop
  | upsertTrack t => t.InDomain
  | insertDetection d => d.InDomain
  | purgeTracks before | purgeDetections before => GoTime.year before ≤ 9999

/-- A bound that a query compares stored instants with: years of more than four digits are not
written to one width. -/
def Bound (t : GoTime) : Prop := GoTime.year t ≤ 9999

instance (t : GoTime) : Decidable (Bound t) := inferInstanceAs (Decidable (_ ≤ _))

theorem comparable {t u : GoTime} (ht : GoTime.InRange t) (hu : Bound u) : Comparable t u :=
  ⟨GoTime.formatFixed_lt_iff_of_le ht hu, GoTime.formatFixed_inj_of_le ht hu⟩

/-- The queries that the handlers build. -/
structure TrackQuery.Built (q : TrackQuery) : Prop where
  states : ∀ s ∈ q.states, s ∈ trackStates
  minConfidence : 0 ≤ q.minConfidence ∧ q.minConfidence ≤ 1
  serial : Trimmed q.serial
  vendor : Trimmed q.vendor
  limit : 1 ≤ q.limit ∧ q.limit ≤ maxLimit

structure DetectionQuery.Built (q : DetectionQuery) : Prop where
  classes : ∀ c ∈ q.classes, c ∈ detectionClasses
  limit : 1 ≤ q.limit ∧ q.limit ≤ maxLimit

structure TrackDetectionQuery.Built (q : TrackDetectionQuery) : Prop where
  macs : ∀ mac ∈ q.macs, Trimmed mac
  limit : 1 ≤ q.limit ∧ q.limit ≤ maxLimit

/-! ## What makes the stores agree -/

/-- The query asks for what both stores understand alike. -/
structure TrackQuery.Plain (q : TrackQuery) (m : MemStore) : Prop where
  since : Bound q.since
  until' : Bound q.until'
  lastSeenBefore : Bound q.lastSeenBefore
  cursor : ∀ c ∈ q.cursor, Bound c.ts
  vendor : GoString.longS ∉ q.vendor.toList ∧ GoString.kelvin ∉ q.vendor.toList
  confidence : 0 < q.minConfidence ∨ ∀ t ∈ m.tracks.rows, 0 ≤ t.confidence

structure DetectionQuery.Plain (q : DetectionQuery) : Prop where
  since : Bound q.since
  cursor : ∀ c ∈ q.cursor, Bound c.ts

structure TrackDetectionQuery.Plain (q : TrackDetectionQuery) : Prop where
  start : Bound q.start
  stop : Bound q.stop
  cursor : ∀ c ∈ q.cursor, Bound c.ts

/-! ## The rows are the documents -/

/-- The database has a row for each track and detection in memory. -/
structure Mirrors (s : SqlStore) (m : MemStore) : Prop where
  tracks : ∀ id, s.tracks.get id = (m.tracks.get id).map .of
  detections : ∀ id, s.detections.get id = (m.detections.get id).map .of

/-- Everything in memory is in the domain. -/
structure MemStore.InDomain (m : MemStore) : Prop where
  tracks : ∀ t ∈ m.tracks.rows, t.InDomain
  detections : ∀ d ∈ m.detections.rows, d.InDomain

section mirror

variable {m : MemStore} {s : SqlStore} {ws : List Write}

theorem inDomain_run (hws : ∀ w ∈ ws, w.InDomain) : (MemStore.run ws).InDomain := by
  have h : (∀ t ∈ (MemStore.run ws).tracks.rows, t.InDomain) ∧
      ∀ d ∈ (MemStore.run ws).detections.rows, d.InDomain := by
    refine MemStore.kept fun w hw ↦ ?_
    have hw := hws w hw
    cases w with
    | upsertTrack t => exact hw
    | insertDetection d => exact hw
    | purgeTracks before => trivial
    | purgeDetections before => trivial
  exact ⟨h.1, h.2⟩

/-- A write does the same to both stores. -/
theorem Mirrors.apply {w : Write} (h : Mirrors s m) (hm : m.InDomain) (hw : w.InDomain) :
    Mirrors (s.apply w) (m.apply w) := by
  constructor
  · intro id
    rw [SqlStore.tracks_apply, MemStore.tracks_apply, h.tracks]
    cases w with
    | upsertTrack t =>
      simp only [Write.onTrackRow, Write.onTrack]
      split <;> rfl
    | purgeTracks before =>
      simp only [Write.onTrackRow, Write.onTrack]
      cases ht : m.tracks.get id with
      | none => rfl
      | some t =>
        have hrow : t ∈ m.tracks.rows := Keyed.mem_rows.mpr (by rwa [Keyed.key_of_get ht])
        have hlt := (comparable (hm.tracks t hrow).lastSeen.inRange hw).lt
        by_cases hold : t.lastSeen < before
        · simp [Option.filter, TrackRow.of, hold, hlt.mpr hold]
        · simp [Option.filter, TrackRow.of, hold, mt hlt.mp hold]
    | insertDetection d => rfl
    | purgeDetections before => rfl
  · intro id
    rw [SqlStore.detections_apply, MemStore.detections_apply, h.detections]
    cases w with
    | insertDetection d =>
      simp only [Write.onDetectionRow, Write.onDetection]
      split
      · cases m.detections.get id <;> rfl
      · rfl
    | purgeDetections before =>
      simp only [Write.onDetectionRow, Write.onDetection]
      cases hd : m.detections.get id with
      | none => rfl
      | some d =>
        have hrow : d ∈ m.detections.rows := Keyed.mem_rows.mpr (by rwa [Keyed.key_of_get hd])
        have hlt := (comparable (hm.detections d hrow).ts.inRange hw).lt
        by_cases hold : d.ts < before
        · simp [Option.filter, DetectionRow.of, hold, hlt.mpr hold]
        · simp [Option.filter, DetectionRow.of, hold, mt hlt.mp hold]
    | upsertTrack t => rfl
    | purgeTracks before => rfl

theorem mirrors_run (hws : ∀ w ∈ ws, w.InDomain) :
    Mirrors (SqlStore.run ws) (MemStore.run ws) := by
  induction ws using List.reverseRecOn with
  | nil => exact ⟨fun _ ↦ rfl, fun _ ↦ rfl⟩
  | append_singleton ws w ih =>
    rw [List.forall_mem_append] at hws
    rw [SqlStore.run, MemStore.run, List.foldl_append, List.foldl_append]
    exact (ih hws.1).apply (inDomain_run hws.1) (hws.2 w (List.mem_singleton_self w))

theorem Mirrors.tracks_perm (h : Mirrors s m) : s.tracks.rows.Perm (m.tracks.rows.map .of) :=
  Keyed.rows_perm (fun _ ↦ rfl) h.tracks

theorem Mirrors.detections_perm (h : Mirrors s m) :
    s.detections.rows.Perm (m.detections.rows.map .of) :=
  Keyed.rows_perm (fun _ ↦ rfl) h.detections

theorem Mirrors.sound (h : Mirrors s m) (hm : m.InDomain) : s.Sound := by
  constructor
  · intro r hr
    obtain ⟨t, ht, rfl⟩ := List.mem_map.mp (h.tracks_perm.mem_iff.mp hr)
    exact ⟨rfl, (hm.tracks t ht).lastSeen.inRange⟩
  · intro r hr
    obtain ⟨d, hd, rfl⟩ := List.mem_map.mp (h.detections_perm.mem_iff.mp hr)
    exact ⟨rfl, (hm.detections d hd).ts.inRange⟩

/-- Rows and documents that match. -/
theorem matching_perm {ρ ν : Type} {rows : List ν} {docs : List ρ} {f : ρ → ν} {doc : ν → ρ}
    {p : ν → Bool} {p' : ρ → Bool} (h : rows.Perm (docs.map f)) (hdoc : ∀ r, doc (f r) = r)
    (hp : ∀ r ∈ docs, p (f r) = p' r) : ((rows.filter p).map doc).Perm (docs.filter p') := by
  have hfilter : docs.filter (p ∘ f) = docs.filter p' := List.filter_congr hp
  have hid : doc ∘ f = id := funext hdoc
  have hrows := (h.filter p).map doc
  rwa [List.filter_map, List.map_map, hfilter, hid, List.map_id] at hrows

end mirror

/-! ## Filters -/

section filters

theorem guarded_nullTime {u : GoTime} {p : GoBytes → Bool} {B : Prop}
    (h : u ≠ 0 → (p (toDB u) ↔ ¬B)) : guarded (nullTime u) p ↔ ¬(u ≠ 0 ∧ B) := by
  by_cases hu : u = 0
  · simp [guarded, nullTime, hu]
  · simp [guarded, nullTime, hu, h hu]

theorem guarded_nullStr {v : String} {p : String → Bool} {B : Prop}
    (h : v ≠ "" → (p v ↔ ¬B)) : guarded (nullStr v) p ↔ ¬(v ≠ "" ∧ B) := by
  by_cases hv : v = ""
  · simp [guarded, nullStr, hv]
  · simp [guarded, nullStr, hv, h hv]

/-- A set of values that need no trimming is the values. -/
theorem set_eq {vals : List String} (h : ∀ v ∈ vals, Trimmed v) :
    set vals = vals.filter (· ≠ "") := by
  rw [set, List.map_congr_left h, List.map_id']

/-- A filter by a set of known values. -/
theorem guarded_jsonSet {known vals : List String} (hknown : ∀ v ∈ known, Trimmed v ∧ v ≠ "")
    (hvals : ∀ v ∈ vals, v ∈ known) (x : String) :
    guarded (jsonSet vals) (x ∈ ·) ↔ ¬(set vals ≠ [] ∧ x ∉ set vals) := by
  have hset : set vals = vals := by
    rw [set_eq fun v hv ↦ (hknown v (hvals v hv)).1]
    exact List.filter_eq_self.mpr fun v hv ↦ by simpa using (hknown v (hvals v hv)).2
  rw [hset]
  by_cases hv : vals = []
  · simp [guarded, jsonSet, hv]
  · simp [guarded, jsonSet, hv]

theorem trackStates_trimmed : ∀ v ∈ trackStates, Trimmed v ∧ v ≠ "" := by decide

theorem detectionClasses_trimmed : ∀ v ∈ detectionClasses, Trimmed v ∧ v ≠ "" := by decide

/-! ### Vendors -/

theorem toNat_toLower_lt {c : Char} (hc : c.toNat < 0x80) : c.toLower.toNat < 0x80 := by
  have hall : ∀ n < 0x80, (Char.ofNat n).toLower.toNat < 0x80 := by decide
  rw [← Char.ofNat_toNat c]
  exact hall c.toNat hc

/-- Folding a letter of ASCII is lowering it, and nothing else is folded to one. -/
theorem fold_eq_iff (F : GoString.Folding) {c d : Char} (hc : c.toNat < 0x80)
    (hs : d ≠ GoString.longS) (hk : d ≠ GoString.kelvin) :
    ((if c.toNat < 0x80 then c.toLower else F.fold c) =
        if d.toNat < 0x80 then d.toLower else F.fold d) ↔
      (if c.toNat < 0x80 then c.toLower else c) = if d.toNat < 0x80 then d.toLower else d := by
  rw [if_pos hc, if_pos hc]
  by_cases hd : d.toNat < 0x80
  · rw [if_pos hd, if_pos hd]
  · have hlow := toNat_toLower_lt hc
    have hfold := F.fold_other d (by omega) hs hk
    rw [if_neg hd, if_neg hd]
    constructor
    · intro h
      rw [← h] at hfold
      omega
    · intro h
      rw [← h] at hd
      exact absurd hlow hd

/-- **`EqualFold` is equality under `lower`** for a stored vendor of ASCII and one that has neither
of the two letters that fold into ASCII. -/
theorem equalFold_iff (F : GoString.Folding) {s t : String} (hs : ∀ c ∈ s.toList, c.toNat < 0x80)
    (ht : GoString.longS ∉ t.toList ∧ GoString.kelvin ∉ t.toList) :
    GoString.equalFold F.fold s t ↔ lower s = lower t := by
  rw [GoString.equalFold, decide_eq_true_iff, lower, lower]
  generalize s.toList = l at *
  generalize t.toList = l' at *
  induction l generalizing l' with
  | nil => cases l' <;> simp
  | cons c l ih =>
    cases l' with
    | nil => simp
    | cons d l' =>
      rw [List.forall_mem_cons] at hs
      simp only [List.mem_cons, not_or] at ht
      have htail := ih hs.2 l' ⟨ht.1.2, ht.2.2⟩
      have hhead := fold_eq_iff F hs.1 (Ne.symm ht.1.1) (Ne.symm ht.2.1)
      simp only [List.map_cons, List.cons.injEq]
      exact and_congr hhead htail

/-! ### The conditions of the queries -/

/-- **The condition of `ListTracks` says of a row what the filter says of the track.** -/
theorem matchesTrack_of (F : GoString.Folding) {q : TrackQuery} {m : MemStore} {t : Track}
    (hq : q.Built) (hp : q.Plain m) (ht : t.InDomain) (htm : t ∈ m.tracks.rows) :
    SqlStore.matchesTrack q (.of t) = MemStore.matchesTrack F.fold q t := by
  have hrange := ht.lastSeen.inRange
  have hsince : guarded (nullTime q.since) (· ≤ toDB t.lastSeen) ↔
      ¬(q.since ≠ 0 ∧ t.lastSeen < q.since) :=
    guarded_nullTime fun _ ↦ by
      rw [decide_eq_true_iff, ← not_lt, (comparable hrange hp.since).lt]
  have huntil : guarded (nullTime q.until') (toDB t.lastSeen ≤ ·) ↔
      ¬(q.until' ≠ 0 ∧ q.until' < t.lastSeen) :=
    guarded_nullTime fun _ ↦ by
      rw [decide_eq_true_iff, (comparable hrange hp.until').le, not_lt]
  have hbefore : guarded (nullTime q.lastSeenBefore) (toDB t.lastSeen < ·) ↔
      ¬(q.lastSeenBefore ≠ 0 ∧ ¬t.lastSeen < q.lastSeenBefore) :=
    guarded_nullTime fun _ ↦ by
      rw [decide_eq_true_iff, (comparable hrange hp.lastSeenBefore).lt, not_not]
  have hconfidence : guarded (nullFloat q.minConfidence (0 < q.minConfidence))
      (· ≤ t.confidence) ↔ ¬t.confidence < q.minConfidence := by
    by_cases hpos : 0 < q.minConfidence
    · simp [guarded, nullFloat, hpos]
    · have hzero : q.minConfidence = 0 := le_antisymm (not_lt.mp hpos) hq.minConfidence.1
      have hnonneg : 0 ≤ t.confidence := hp.confidence.resolve_left hpos t htm
      simp [guarded, nullFloat, hzero, hnonneg]
  have hserial : guarded (nullStr q.serial) (nullStr t.identity.serial = some ·) ↔
      ¬(q.serial ≠ "" ∧ t.identity.serial ≠ q.serial) := by
    refine guarded_nullStr fun hne ↦ ?_
    by_cases hs : t.identity.serial = ""
    · simp [nullStr, hs, hne]
    · simp [nullStr, hs]
  have hvendor : guarded (nullStr q.vendor)
      (fun v ↦ (nullStr t.identity.vendor).map lower = some (lower v)) ↔
      ¬(q.vendor ≠ "" ∧ ¬GoString.equalFold F.fold t.identity.vendor q.vendor) := by
    refine guarded_nullStr fun hne ↦ ?_
    rw [not_not, equalFold_iff F ht.vendor hp.vendor, decide_eq_true_iff]
    by_cases hv : t.identity.vendor = ""
    · have hlower : lower "" ≠ lower q.vendor := by
        intro h
        have hnil : q.vendor.toList = [] := List.map_eq_nil_iff.mp h.symm
        exact hne (String.toList_eq_nil_iff.mp hnil)
      rw [hv]
      simp [nullStr, hlower]
    · simp [nullStr, hv]
  have hstates := guarded_jsonSet trackStates_trimmed hq.states t.state
  have hsql : SqlStore.matchesTrack q (.of t) ↔ _ :=
    decide_eq_true_iff.trans (and_congr hsince (and_congr huntil (and_congr hbefore
      (and_congr hconfidence (and_congr hserial (and_congr hvendor hstates))))))
  rw [Bool.eq_iff_iff, hsql, MemStore.matchesTrack, Bool.not_eq_true', decide_eq_false_iff_not]
  simp only [not_or]
  constructor
  · rintro ⟨h1, h2, h3, h4, h5, h6, h7⟩
    exact ⟨h7, h1, h2, h3, h4, h5, h6⟩
  · rintro ⟨h7, h1, h2, h3, h4, h5, h6⟩
    exact ⟨h1, h2, h3, h4, h5, h6, h7⟩

/-- The same of `ListDetections`. -/
theorem matchesDetection_of {q : DetectionQuery} {d : Detection} (hq : q.Built) (hp : q.Plain)
    (hd : d.InDomain) :
    SqlStore.matchesDetection q (.of d) = MemStore.matchesDetection q d := by
  have hsince : guarded (nullTime q.since) (· ≤ toDB d.ts) ↔
      ¬(q.since ≠ 0 ∧ d.ts < q.since) :=
    guarded_nullTime fun _ ↦ by
      rw [decide_eq_true_iff, ← not_lt, (comparable hd.ts.inRange hp.since).lt]
  have hsensor : guarded (nullStr q.sensorID) (d.sensorID = ·) ↔
      ¬(q.sensorID ≠ "" ∧ d.sensorID ≠ q.sensorID) :=
    guarded_nullStr fun _ ↦ by rw [decide_eq_true_iff, not_not]
  have hclasses := guarded_jsonSet detectionClasses_trimmed hq.classes d.detectionClass
  have hsql : SqlStore.matchesDetection q (.of d) ↔ _ :=
    decide_eq_true_iff.trans (and_congr hsince (and_congr hsensor hclasses))
  rw [Bool.eq_iff_iff, hsql, MemStore.matchesDetection, Bool.not_eq_true', decide_eq_false_iff_not]
  simp only [not_or]
  constructor
  · rintro ⟨h1, h2, h3⟩
    exact ⟨h3, h2, h1⟩
  · rintro ⟨h3, h2, h1⟩
    exact ⟨h1, h2, h3⟩

/-- A detection's serial is the one asked for. -/
theorem serial_iff {d : Detection} {serial : String} :
    (nullStr serial).any (nullStr d.identity.serial = some ·) ↔
      serial ≠ "" ∧ d.identity.serial = serial := by
  by_cases hs : serial = ""
  · simp [nullStr, hs]
  · by_cases hd : d.identity.serial = ""
    · simp [nullStr, hs, hd, Ne.symm hs]
    · simp [nullStr, hs, hd]

/-- A detection's MAC is one of those asked for. -/
theorem mac_iff {d : Detection} {macs : List String} (hmacs : ∀ mac ∈ macs, Trimmed mac) :
    (∃ mac ∈ macs, nullStr d.identity.mac = some mac) ↔
      d.identity.mac ≠ "" ∧ d.identity.mac ∈ set macs := by
  rw [set_eq hmacs, List.mem_filter]
  by_cases hd : d.identity.mac = ""
  · simp [nullStr, hd]
  · simp [nullStr, hd]

/-- The same of `ListTrackDetections`. -/
theorem matchesTrackDetection_of {q : TrackDetectionQuery} {d : Detection} (hq : q.Built)
    (hp : q.Plain) (hd : d.InDomain) :
    SqlStore.matchesTrackDetection q (.of d) = MemStore.matchesTrackDetection q d := by
  have hstart : guarded (nullTime q.start) (· ≤ toDB d.ts) ↔
      ¬(q.start ≠ 0 ∧ d.ts < q.start) :=
    guarded_nullTime fun _ ↦ by
      rw [decide_eq_true_iff, ← not_lt, (comparable hd.ts.inRange hp.start).lt]
  have hstop : guarded (nullTime q.stop) (toDB d.ts ≤ ·) ↔
      ¬(q.stop ≠ 0 ∧ q.stop < d.ts) :=
    guarded_nullTime fun _ ↦ by
      rw [decide_eq_true_iff, (comparable hd.ts.inRange hp.stop).le, not_lt]
  have hmacs : (jsonSet q.macs).any (fun macs ↦ (nullStr d.identity.mac).any (· ∈ macs)) ↔
      d.identity.mac ≠ "" ∧ d.identity.mac ∈ set q.macs := by
    rw [← mac_iff hq.macs]
    by_cases hm : q.macs = []
    · simp [jsonSet, hm]
    · cases nullStr d.identity.mac <;> simp [jsonSet, hm]
  have hsql : SqlStore.matchesTrackDetection q (.of d) ↔ _ :=
    decide_eq_true_iff.trans (and_congr (or_congr serial_iff hmacs) (and_congr hstart hstop))
  rw [Bool.eq_iff_iff, hsql, MemStore.matchesTrackDetection, decide_eq_true_iff,
    Bool.not_eq_true', decide_eq_false_iff_not, not_or, MemStore.ofAircraft, decide_eq_true_iff]
  exact and_comm

end filters

/-! ## Peaks -/

section peaks

/-- What a detection contributes to the peak of a track. -/
def MemStore.reading (t : Track) (d : Detection) : Option ℚ :=
  if ¬(d.ts < (trackDetectionWindow t).1 ∨ (trackDetectionWindow t).2 < d.ts) ∧
    ofAircraft t.identity.serial t.identity.macs d then d.rf.bind (·.rssiDBm) else none

theorem MemStore.peakStep_eq (t : Track) (peak : Option ℚ) (d : Detection) :
    peakStep t peak d = (peak.toList ++ (reading t d).toList).max? := by
  rw [peakStep, reading]
  cases hr : d.rf.bind (·.rssiDBm) with
  | none => cases peak <;> simp
  | some rssi =>
    by_cases hw : d.ts < (trackDetectionWindow t).1 ∨ (trackDetectionWindow t).2 < d.ts
    · cases peak <;> simp [hw]
    by_cases ha : ofAircraft t.identity.serial t.identity.macs d
    · cases peak with
      | none => simp [hw, ha]
      | some p =>
        by_cases hlt : p < rssi
        · simp [hw, ha, hlt, max_eq_right hlt.le]
        · simp [hw, ha, hlt, max_eq_left (not_lt.mp hlt)]
    · cases peak <;> simp [hw, ha]

/-- Lists with the same members have one maximum. -/
theorem max?_congr {l l' : List ℚ} (h : ∀ x, x ∈ l ↔ x ∈ l') : l.max? = l'.max? := by
  refine Option.ext fun a ↦ ?_
  rw [List.max?_eq_some_iff, List.max?_eq_some_iff]
  simp only [h]

/-- The maximum so far, with what is still to come. -/
theorem max?_toList_append (l l' : List ℚ) : (l.max?.toList ++ l').max? = (l ++ l').max? := by
  induction l with
  | nil => rfl
  | cons x l ih =>
    cases hl : l.max? with
    | none => rw [List.max?_eq_none_iff.mp hl]; rfl
    | some y =>
      rw [hl, Option.toList_some, List.singleton_append, List.max?_cons] at ih
      rw [List.max?_cons, hl, List.cons_append, List.max?_cons, ← ih, Option.elim_some,
        Option.toList_some, List.singleton_append, List.max?_cons]
      cases l'.max? with
      | none => rfl
      | some z => exact congrArg some (max_assoc x y z)

/-- The loop over the detections finds the highest reading. -/
theorem MemStore.foldl_peakStep (t : Track) (ds : List Detection) (init : Option ℚ) :
    ds.foldl (peakStep t) init = (init.toList ++ ds.filterMap (reading t)).max? := by
  induction ds generalizing init with
  | nil => cases init <;> simp
  | cons d ds ih =>
    rw [List.foldl_cons, ih, peakStep_eq, max?_toList_append, List.append_assoc,
      List.filterMap_cons]
    cases reading t d <;> rfl

theorem ofAircraft_iff {serial : String} {macs : List String} {d : Detection}
    (hmacs : ∀ mac ∈ macs, Trimmed mac) : MemStore.ofAircraft serial macs d ↔
      (serial ≠ "" ∧ d.identity.serial = serial) ∨ ∃ mac ∈ macs, nullStr d.identity.mac = some mac :=
  decide_eq_true_iff.trans (or_congr Iff.rfl (mac_iff hmacs).symm)

/-- The rows of a wanted track are those of the detections that count for its peak. -/
theorem mem_wantedRows {s : SqlStore} {t : Track} {d : Detection} (ht : t.InDomain)
    (hstop : Bound (trackDetectionWindow t).2) (hd : d.InDomain)
    (hrow : DetectionRow.of d ∈ s.detections.rows) : DetectionRow.of d ∈ s.wantedRows (.of t) ↔
      ¬(d.ts < (trackDetectionWindow t).1 ∨ (trackDetectionWindow t).2 < d.ts) ∧
        MemStore.ofAircraft t.identity.serial t.identity.macs d := by
  have hlow : toDB (trackDetectionWindow t).1 ≤ toDB d.ts ↔
      ¬d.ts < (trackDetectionWindow t).1 :=
    not_lt.symm.trans (not_congr (comparable hd.ts.inRange ht.firstSeen.2).lt)
  have hhigh : toDB d.ts ≤ toDB (trackDetectionWindow t).2 ↔ ¬(trackDetectionWindow t).2 < d.ts :=
    (comparable hd.ts.inRange hstop).le.trans not_lt.symm
  have hserial : ((nullStr t.identity.serial).isSome ∧
      nullStr d.identity.serial = nullStr t.identity.serial) ↔
      t.identity.serial ≠ "" ∧ d.identity.serial = t.identity.serial := by
    rw [← serial_iff]
    cases nullStr t.identity.serial <;> simp
  have hwanted : DetectionRow.of d ∈ s.wantedRows (.of t) ↔
      ((nullStr t.identity.serial).isSome ∧
        nullStr d.identity.serial = nullStr t.identity.serial ∧
          toDB (trackDetectionWindow t).1 ≤ toDB d.ts ∧ toDB d.ts ≤ toDB (trackDetectionWindow t).2) ∨
      ∃ mac ∈ t.identity.macs, nullStr d.identity.mac = some mac ∧
        toDB (trackDetectionWindow t).1 ≤ toDB d.ts ∧
          toDB d.ts ≤ toDB (trackDetectionWindow t).2 := by
    rw [SqlStore.wantedRows, List.mem_append, List.mem_filter, List.mem_flatMap]
    simp only [List.mem_filter, hrow, true_and, decide_eq_true_eq]
    rfl
  rw [hwanted, ofAircraft_iff ht.macs, hlow, hhigh, ← hserial]
  constructor
  · rintro (⟨hsome, hsame, hin, hin'⟩ | ⟨mac, hmac, hsame, hin, hin'⟩)
    · exact ⟨not_or.mpr ⟨hin, hin'⟩, .inl ⟨hsome, hsame⟩⟩
    · exact ⟨not_or.mpr ⟨hin, hin'⟩, .inr ⟨mac, hmac, hsame⟩⟩
  · rintro ⟨hwindow, ⟨hsome, hsame⟩ | ⟨mac, hmac, hsame⟩⟩
    · exact .inl ⟨hsome, hsame, not_or.mp hwindow⟩
    · exact .inr ⟨mac, hmac, hsame, not_or.mp hwindow⟩

/-- **`MaxTrackRSSI` finds the highest reading**, as the loop does. -/
theorem maxTrackRSSI_eq {s : SqlStore} {m : MemStore} (h : Mirrors s m) (hm : m.InDomain)
    {tracks : List Track} {t : Track} (hnodup : (tracks.map Track.trackID).Nodup) (ht : t ∈ tracks)
    (hneeds : needsPeakRSSI t) (hdomain : t.InDomain) (hstop : Bound (trackDetectionWindow t).2) :
    s.maxTrackRSSI ((tracks.filter needsPeakRSSI).map .of) t.trackID =
      m.detections.rows.foldl (MemStore.peakStep t) none := by
  rw [MemStore.foldl_peakStep, SqlStore.maxTrackRSSI]
  refine max?_congr fun rssi ↦ ?_
  have hkeys : ∀ w, (w ∈ (tracks.filter needsPeakRSSI).map SqlStore.PeakRSSIKey.of ∧
      w.id = t.trackID) ↔ w = .of t := by
    intro w
    rw [List.mem_map]
    constructor
    · rintro ⟨⟨t', ht', rfl⟩, hid⟩
      have hsame : t' = t :=
        List.inj_on_of_nodup_map hnodup (List.mem_filter.mp ht').1 ht hid
      rw [hsame]
    · rintro rfl
      exact ⟨⟨t, List.mem_filter.mpr ⟨ht, hneeds⟩, rfl⟩, rfl⟩
  rw [Option.toList_none, List.nil_append, List.mem_filterMap, List.mem_flatMap]
  simp only [List.mem_filter, decide_eq_true_eq, hkeys, exists_eq_left, List.mem_filterMap]
  have hrow {d : Detection} (hd : d ∈ m.detections.rows) : .of d ∈ s.detections.rows :=
    h.detections_perm.mem_iff.mpr (List.mem_map_of_mem hd)
  constructor
  · rintro ⟨r, hr, hrssi⟩
    have hr' : r ∈ s.detections.rows := by
      rw [SqlStore.wantedRows, List.mem_append, List.mem_flatMap] at hr
      rcases hr with hr | ⟨mac, -, hr⟩ <;> exact (List.mem_filter.mp hr).1
    obtain ⟨d, hd, rfl⟩ := List.mem_map.mp (h.detections_perm.mem_iff.mp hr')
    refine ⟨d, hd, ?_⟩
    rw [MemStore.reading, if_pos]
    · exact hrssi
    · exact (mem_wantedRows hdomain hstop (hm.detections d hd) hr').mp hr
  · rintro ⟨d, hd, hrssi⟩
    rw [MemStore.reading] at hrssi
    split at hrssi
    · rename_i hcounts
      exact ⟨.of d, (mem_wantedRows hdomain hstop (hm.detections d hd) (hrow hd)).mpr hcounts, hrssi⟩
    · cases hrssi

end peaks

/-! ## The agreement -/

section agreement

variable {s : SqlStore} {m : MemStore}

/-- Pages of the same rows are the same. -/
theorem listPage_congr {ρ : Type} {ts : ρ → GoTime} {ident : ρ → GoBytes} {rows rows' : List ρ}
    {limit : ℕ} {cursor : Option Key} {total total' : ℕ} (hnodup : (rows.map ident).Nodup)
    (h : rows.Perm rows') (htotal : total = total') :
    listPage (Paging.page (keyOf ts ident) limit cursor rows) total =
      listPage (Paging.page (keyOf ts ident) limit cursor rows') total' := by
  rw [Paging.page, Paging.page, Paging.inOrder_eq_of_perm (nodup_keyOf hnodup) h, htotal]

theorem listTracks_agree (F : GoString.Folding) (h : Mirrors s m) (hm : m.InDomain)
    {q : TrackQuery} (hq : q.Built) (hp : q.Plain m) :
    s.listTracks q = m.listTracks F.fold q := by
  have hs := h.sound hm
  have hrows : (s.tracksThat (SqlStore.matchesTrack q)).Perm
      (m.tracks.rows.filter (MemStore.matchesTrack F.fold q)) :=
    matching_perm h.tracks_perm (fun _ ↦ rfl) fun t ht ↦ matchesTrack_of F hq hp (hm.tracks t ht) ht
  rw [SqlStore.listTracks_eq hs fun c hc t ht ↦ comparable (hs.dated_tracks t ht) (hp.cursor c hc),
    MemStore.listTracks_eq]
  exact listPage_congr (hs.nodup_tracks _) hrows (by rw [hrows.length_eq])

theorem listDetections_agree (h : Mirrors s m) (hm : m.InDomain) {q : DetectionQuery}
    (hq : q.Built) (hp : q.Plain) : s.listDetections q = m.listDetections q := by
  have hs := h.sound hm
  have hrows : (s.detectionsThat (SqlStore.matchesDetection q)).Perm
      (m.detections.rows.filter (MemStore.matchesDetection q)) :=
    matching_perm h.detections_perm (fun _ ↦ rfl)
      fun d hd ↦ matchesDetection_of hq hp (hm.detections d hd)
  rw [SqlStore.listDetections_eq hs
      fun c hc d hd ↦ comparable (hs.dated_detections d hd) (hp.cursor c hc),
    MemStore.listDetections_eq]
  exact listPage_congr (hs.nodup_detections _) hrows hrows.length_eq

theorem listTrackDetections_agree (h : Mirrors s m) (hm : m.InDomain) {q : TrackDetectionQuery}
    (hq : q.Built) (hp : q.Plain) : s.listTrackDetections q = m.listTrackDetections q := by
  have hs := h.sound hm
  have hrows : (s.detectionsThat (SqlStore.matchesTrackDetection q)).Perm
      (m.detections.rows.filter (MemStore.matchesTrackDetection q)) :=
    matching_perm h.detections_perm (fun _ ↦ rfl)
      fun d hd ↦ matchesTrackDetection_of hq hp (hm.detections d hd)
  rw [SqlStore.listTrackDetections_eq hs
      fun c hc d hd ↦ comparable (hs.dated_detections d hd) (hp.cursor c hc),
    MemStore.listTrackDetections_eq]
  exact listPage_congr (hs.nodup_detections _) hrows (by rw [hrows.length_eq])

/-- The peaks of the tracks of a page can be looked for in both stores. -/
structure Fillable (tracks : List Track) : Prop where
  nodup : (tracks.map Track.trackID).Nodup
  inDomain : ∀ t ∈ tracks, t.InDomain
  stop : ∀ t ∈ tracks, needsPeakRSSI t → Bound (trackDetectionWindow t).2

theorem backfillPeakRSSI_agree (h : Mirrors s m) (hm : m.InDomain) {tracks : List Track}
    (ht : Fillable tracks) : s.backfillPeakRSSI tracks = m.backfillPeakRSSI tracks := by
  refine List.map_congr_left fun t htmem ↦ ?_
  rw [MemStore.peakRSSI]
  by_cases hneeds : needsPeakRSSI t
  · have hmax := maxTrackRSSI_eq h hm ht.nodup htmem hneeds (ht.inDomain t htmem)
      (ht.stop t htmem hneeds)
    rw [if_pos hneeds, if_pos hneeds]
    generalize s.maxTrackRSSI _ t.trackID = peak at hmax ⊢
    subst hmax
    rfl
  · rw [if_neg hneeds, if_neg hneeds]

end agreement

/-! ## Where they differ -/

/-- A folding that folds nothing outside ASCII but the two letters it has to. -/
def fewFolds : GoString.Folding where
  fold c := if c = GoString.longS then 's' else if c = GoString.kelvin then 'k' else c
  fold_longS := rfl
  fold_kelvin := rfl
  fold_other c hc hs hk := by rwa [if_neg hs, if_neg hk]

/-- Noon of a day in 2024. -/
def noon2024 : GoTime := 63855345600 * GoDuration.second

/-- The last nanosecond of the year 9999; what comes after it has five digits. -/
def end9999 : GoTime := 315537897600 * GoDuration.second - 1

/-- A track of a small drone. -/
def vendorTrack : Track where
  trackID := GoBytes.ofASCII "a"
  firstSeen := noon2024
  lastSeen := noon2024
  identity := { vendor := "kestrel" }

/-- A track on which no confidence can be put. -/
def doubtfulTrack : Track where
  trackID := GoBytes.ofASCII "a"
  firstSeen := noon2024
  lastSeen := noon2024
  confidence := -1

/-- A track that is seen to the end of the year 9999. -/
def lastTrack : Track where
  trackID := GoBytes.ofASCII "a"
  firstSeen := noon2024
  lastSeen := end9999
  identity := { serial := "S" }

/-- A detection of that track. -/
def lastDetection : Detection where
  detectionID := GoBytes.ofASCII "d"
  ts := noon2024
  rf := some ⟨some (-60)⟩
  identity := { serial := "S" }

/-- The same of all characters of a string, so that it can be computed. -/
theorem ascii_of_all {s : String} (h : s.toList.all fun c ↦ c.toNat < 0x80) :
    ∀ c ∈ s.toList, c.toNat < 0x80 := by
  simpa only [List.all_eq_true, decide_eq_true_eq] using h

theorem vendorTrack_inDomain : vendorTrack.InDomain :=
  ⟨by decide, by decide, ascii_of_all (by decide), by decide⟩

theorem doubtfulTrack_inDomain : doubtfulTrack.InDomain :=
  ⟨by decide, by decide, ascii_of_all (by decide), by decide⟩

theorem lastTrack_inDomain : lastTrack.InDomain :=
  ⟨by decide, by decide, ascii_of_all (by decide), by decide⟩

theorem lastDetection_inDomain : lastDetection.InDomain := ⟨by decide, by decide⟩

/-- The last second of the year 9999 where clocks are an hour behind: in UTC it is 10000. -/
def since10000 : GoTime := 315537901199 * GoDuration.second

/-- A vendor with a sign for kelvin in place of a k. -/
def kelvinVendor : String := .ofList (GoString.kelvin :: "estrel".toList)

end ClassG.Store
