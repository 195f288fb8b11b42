import Mathlib.Data.List.Infix
import ClassG.ForJs.Map
import ClassG.Ui.Flight

/-!
# Filters of the flights list

`features/tracks/flight-filters.ts`: seven filters, and for five of them the options to choose from,
each with the number of flights that it would leave.

An option's number is counted over the flights that all the other filters leave, and `filterFlights`
is not asked again: `length_filterFlights` says why that comes to the same.

* `Truthful`: what is asked of the options of one filter.
* `flightFacets_truthful_iff`: when the five have it.
-/

set_option autoImplicit false

namespace ClassG.Ui

/-- What the browser does with texts and dates.  A time that is `NaN` is `none`. -/
structure Browser where
  /-- `Date.parse`. -/
  dateParse : String → Option ℤ
  /-- `Date.UTC(year, month, day)`. -/
  utc : ℤ → ℤ → ℤ → Option ℤ
  /-- `new Date(year, month, day).getTime()`. -/
  localTime : ℤ → ℤ → ℤ → Option ℤ
  trim : String → String
  toLowerCase : String → String
  localeCompare : String → String → ℤ
  /-- A number in a template. -/
  numberText : ℚ → String

/-! ## Filters -/

/-- `searchableIdentity`. -/
def searchableIdentity (track : Flight) : String :=
  let identity := track.identity.getD {}
  let parts := [identity.serial, identity.manufacturerCode, identity.vendor, identity.modelHint,
    identity.operatorId, some track.trackId].reduceOption ++ identity.macs.getD []
  " ".intercalate (parts.filter (· ≠ ""))

inductive OperatorChoice
  | yes | no
  deriving DecidableEq, Repr

structure FlightFilters where
  q : Option String := none
  day : Option String := none
  vendor : Option String := none
  evidence : Option DetectionClass := none
  operator : Option OperatorChoice := none
  minDurationS : Option Double := none
  minDetections : Option Double := none

/-- `FlightFacet`. -/
inductive FlightFacet
  | q | day | vendor | evidence | operator | minDurationS | minDetections
  deriving DecidableEq, Repr

/-- `DURATION_THRESHOLDS_S`. -/
def durationThresholdsS : List ℚ := [60, 300, 900]

/-- `DETECTION_THRESHOLDS`. -/
def detectionThresholds : List ℚ := [10, 100, 1000]

/-- `Number`, of digits. -/
def digitsNumber (ds : List Char) : ℤ := ds.foldl (fun n c ↦ 10 * n + (c.toNat - '0'.toNat)) 0

variable (b : Browser)

/-- `dayRangeMs`: the start, and the end. -/
def dayRangeMs (key : String) (utc : Bool) : Option (ℤ × Option ℤ) :=
  match key.toList with
  | [y₁, y₂, y₃, y₄, '-', m₁, m₂, '-', d₁, d₂] =>
    if [y₁, y₂, y₃, y₄, m₁, m₂, d₁, d₂].all Char.isDigit then do
      let year := digitsNumber [y₁, y₂, y₃, y₄]
      let month := digitsNumber [m₁, m₂] - 1
      let day := digitsNumber [d₁, d₂]
      let at' := if utc then b.utc else b.localTime
      let start ← at' year month day
      return (start, at' year month (day + 1))
    else none
  | _ => none

def matchesFacet (track : Flight) (facet : FlightFacet) (filters : FlightFilters) (utc : Bool) :
    Bool :=
  match facet with
  | .q =>
    match filters.q with
    | none => true
    | some text =>
      let q := b.toLowerCase (b.trim text)
      q = "" || q.toList <:+: (b.toLowerCase (searchableIdentity track)).toList
  | .day =>
    match filters.day with
    | none | some "" => true
    | some day =>
      match dayRangeMs b day utc with
      | none => true
      | some (start, stop) =>
        (b.dateParse track.firstSeen).any fun ms ↦ start ≤ ms && stop.any (ms < ·)
  | .vendor =>
    match filters.vendor with
    | none | some "" => true
    | some vendor => track.identity.bind FlightIdentity.vendor = some vendor
  | .evidence =>
    match filters.evidence with
    | none => true
    | some cls => (track.evidence.getD []).any (· = cls)
  | .operator =>
    match filters.operator with
    | none => true
    | some choice => track.hasOperatorFix = decide (choice = .yes)
  | .minDurationS =>
    match filters.minDurationS with
    | none => true
    | some min => (track.durationS b.dateParse).any (min.le ·)
  | .minDetections =>
    match filters.minDetections with
    | none => true
    | some min => min.le track.detectionCount

/-- `ALL_FACETS`. -/
def allFacets : List FlightFacet :=
  [.q, .day, .vendor, .evidence, .operator, .minDurationS, .minDetections]

def filterFlights (tracks : List Flight) (filters : FlightFilters) (utc : Bool)
    (except : Option FlightFacet) : List Flight :=
  tracks.filter fun track ↦ allFacets.all fun facet ↦
    some facet = except || matchesFacet b track facet filters utc

/-! ## Options -/

structure FacetOption (T : Type) where
  value : T
  label : String
  count : ℕ

structure FlightFacets where
  vendor : List (FacetOption String)
  evidence : List (FacetOption DetectionClass)
  operator : List (FacetOption OperatorChoice)
  duration : List (FacetOption Double)
  detections : List (FacetOption Double)

def durationLabel (seconds : ℚ) : String :=
  if 3600 ≤ seconds then "≥ " ++ b.numberText (seconds / 3600) ++ " h"
  else if 60 ≤ seconds then "≥ " ++ b.numberText (seconds / 60) ++ " min"
  else "≥ " ++ b.numberText seconds ++ " s"

/-- The letter of a class. -/
def DetectionClass.text : DetectionClass → String
  | A => "A"
  | B => "B"
  | C => "C"
  | D => "D"
  | E => "E"
  | F => "F"
  | G => "G"
  | H => "H"

/-- The vendor of a track, if it has one. -/
def vendorOf (track : Flight) : Option String :=
  (track.identity.bind FlightIdentity.vendor).filter (· ≠ "")

/-- With a count of `0` for what is selected, if it has none. -/
def withSelected {κ : Type} [DecidableEq κ] (m : JsMap κ ℕ) (selected : Option κ) : JsMap κ ℕ :=
  match selected with
  | some v => if m.has v then m else m.set v 0
  | none => m

/-- `vendorCounts`. -/
def vendorCounts (forVendor : List Flight) (filters : FlightFilters) : JsMap String ℕ :=
  withSelected (JsMap.tally (forVendor.filterMap vendorOf)) (filters.vendor.filter (· ≠ ""))

/-- `evidenceCounts`. -/
def evidenceCounts (forEvidence : List Flight) (filters : FlightFilters) :
    JsMap DetectionClass ℕ :=
  withSelected (JsMap.tally (forEvidence.flatMap fun track ↦ distinct (track.evidence.getD [])))
    filters.evidence

/-- The options for some thresholds: those that leave a flight, and the one that is selected. -/
def thresholdOptions (thresholds : List ℚ) (label : ℚ → String) (count : Double → ℕ)
    (selected : Option Double) : List (FacetOption Double) :=
  (thresholds.map fun min ↦ ⟨.fin min, label min, count (.fin min)⟩).filter fun option ↦
    0 < option.count || selected = some option.value

def flightFacets (tracks : List Flight) (filters : FlightFilters) (utc : Bool) : FlightFacets :=
  let forVendor := filterFlights b tracks filters utc (some .vendor)
  let forEvidence := filterFlights b tracks filters utc (some .evidence)
  let forOperator := filterFlights b tracks filters utc (some .operator)
  let forDuration := filterFlights b tracks filters utc (some .minDurationS)
  let forDetections := filterFlights b tracks filters utc (some .minDetections)
  let located := (forOperator.filter Flight.hasOperatorFix).length
  { vendor :=
      ((vendorCounts forVendor filters).entries.mergeSort fun x y ↦
        y.2 < x.2 || (x.2 = y.2 && b.localeCompare x.1 y.1 ≤ 0)).map fun e ↦ ⟨e.1, e.1, e.2⟩
    evidence :=
      ((evidenceCounts forEvidence filters).entries.mergeSort fun x y ↦
        b.localeCompare x.1.text y.1.text ≤ 0).map fun e ↦ ⟨e.1, "Class " ++ e.1.text, e.2⟩
    operator :=
      [⟨.yes, "Located", located⟩, ⟨.no, "Not located", forOperator.length - located⟩].filter
        fun option ↦ 0 < option.count || filters.operator = some option.value
    duration :=
      thresholdOptions durationThresholdsS (durationLabel b)
        (fun min ↦ (forDuration.filter fun track ↦
          min.le ((track.durationS b.dateParse).getD (.fin (-1)))).length) filters.minDurationS
    detections :=
      thresholdOptions detectionThresholds (fun min ↦ "≥ " ++ b.numberText min)
        (fun min ↦ (forDetections.filter fun track ↦ min.le track.detectionCount).length)
        filters.minDetections }

/-! ## What is asked of the options -/

/-- Each option has the number of flights that there are with it, those with none are not offered
unless they are selected, and what is selected is offered. -/
structure Truthful {T : Type} (options : List (FacetOption T)) (selected : Option T)
    (returned : T → ℕ) : Prop where
  count : ∀ o ∈ options, o.count = returned o.value
  nonzero : ∀ o ∈ options, o.count = 0 → selected = some o.value
  selected : ∀ v, selected = some v → ∃ o ∈ options, o.value = v

/-- The options of all filters are. -/
structure FacetsTruthful (tracks : List Flight) (filters : FlightFilters) (utc : Bool) : Prop where
  vendor : Truthful (flightFacets b tracks filters utc).vendor filters.vendor fun v ↦
    (filterFlights b tracks { filters with vendor := some v } utc none).length
  evidence : Truthful (flightFacets b tracks filters utc).evidence filters.evidence fun v ↦
    (filterFlights b tracks { filters with evidence := some v } utc none).length
  operator : Truthful (flightFacets b tracks filters utc).operator filters.operator fun v ↦
    (filterFlights b tracks { filters with operator := some v } utc none).length
  duration : Truthful (flightFacets b tracks filters utc).duration filters.minDurationS fun v ↦
    (filterFlights b tracks { filters with minDurationS := some v } utc none).length
  detections : Truthful (flightFacets b tracks filters utc).detections filters.minDetections fun v ↦
    (filterFlights b tracks { filters with minDetections := some v } utc none).length

/-! ## Setting one filter -/

theorem mem_allFacets (facet : FlightFacet) : facet ∈ allFacets := by
  cases facet <;> decide

/-- The filters with one of them as in `new`. -/
def FlightFilters.take (filters : FlightFilters) (facet : FlightFacet) (new : FlightFilters) :
    FlightFilters :=
  match facet with
  | .q => { filters with q := new.q }
  | .day => { filters with day := new.day }
  | .vendor => { filters with vendor := new.vendor }
  | .evidence => { filters with evidence := new.evidence }
  | .operator => { filters with operator := new.operator }
  | .minDurationS => { filters with minDurationS := new.minDurationS }
  | .minDetections => { filters with minDetections := new.minDetections }

theorem matchesFacet_take {f facet : FlightFacet} (h : f ≠ facet) (track : Flight)
    (filters new : FlightFilters) (utc : Bool) :
    matchesFacet b track f (filters.take facet new) utc = matchesFacet b track f filters utc := by
  cases f <;> cases facet <;> first | rfl | exact absurd rfl h

/-- **With one filter set, there is what the others leave and this one lets through.** -/
theorem length_filterFlights (facet : FlightFacet) (tracks : List Flight)
    (filters new : FlightFilters) (utc : Bool) :
    (filterFlights b tracks (filters.take facet new) utc none).length =
      (filterFlights b tracks filters utc (some facet)).countP fun track ↦
        matchesFacet b track facet (filters.take facet new) utc := by
  rw [filterFlights, filterFlights, List.countP_filter, ← List.countP_eq_length_filter]
  refine List.countP_congr fun track _ ↦ ?_
  simp only [List.all_eq_true, Bool.and_eq_true, Bool.or_eq_true, decide_eq_true_eq, reduceCtorEq,
    false_or, Option.some.injEq]
  constructor
  · refine fun hall ↦ ⟨hall facet (mem_allFacets facet), fun f hf ↦ ?_⟩
    by_cases heq : f = facet
    · exact .inl heq
    · exact .inr (matchesFacet_take b heq track filters new utc ▸ hall f hf)
  · rintro ⟨hfacet, hall⟩ f hf
    by_cases heq : f = facet
    · exact heq ▸ hfacet
    · exact (matchesFacet_take b heq track filters new utc).trans ((hall f hf).resolve_left heq)

/-! ## Counts -/

section counts

variable {κ : Type} [DecidableEq κ] {ks : List κ} {selected : Option κ}

theorem get_withSelected (v : κ) (n : ℕ) :
    (withSelected (JsMap.tally ks) selected).get v = some n ↔
      (v ∈ ks ∨ selected = some v) ∧ n = ks.count v := by
  have hget := JsMap.get_tally ks v
  rcases selected with _ | w
  · rw [withSelected, hget]
    by_cases hv : v ∈ ks <;> simp [hv, eq_comm]
  · rw [withSelected, JsMap.has, JsMap.get_tally]
    by_cases hw : w ∈ ks
    · rw [if_pos hw, if_pos (Option.isSome_some), hget]
      by_cases hv : v ∈ ks
      · simp [hv, eq_comm]
      · have hne : w ≠ v := fun heq ↦ hv (heq ▸ hw)
        simp [hv, hne]
    · rw [if_neg hw, if_neg (by simp), JsMap.get_set, hget]
      by_cases hvw : v = w
      · subst hvw
        simp [hw, List.count_eq_zero_of_not_mem hw, eq_comm]
      · by_cases hv : v ∈ ks <;> simp [hv, hvw, eq_comm]

/-- Options made of a tally: one for each key that occurs, and one for what is selected. -/
theorem truthful_of_tally {entries : List (κ × ℕ)} (label : κ → String) {returned : κ → ℕ}
    (hentries : entries.Perm (withSelected (JsMap.tally ks) selected).entries)
    (hcount : ∀ v, v ∈ ks ∨ selected = some v → ks.count v = returned v) :
    Truthful (entries.map fun e ↦ (⟨e.1, label e.1, e.2⟩ : FacetOption κ)) selected returned := by
  have hmem (v : κ) (n : ℕ) :
      (v, n) ∈ entries ↔ (v ∈ ks ∨ selected = some v) ∧ n = ks.count v := by
    rw [hentries.mem_iff, JsMap.mem_entries, get_withSelected]
  constructor
  · intro o ho
    obtain ⟨⟨v, n⟩, he, rfl⟩ := List.mem_map.mp ho
    obtain ⟨hv, rfl⟩ := (hmem v n).mp he
    exact hcount v hv
  · intro o ho hzero
    obtain ⟨⟨v, n⟩, he, rfl⟩ := List.mem_map.mp ho
    obtain ⟨hv, rfl⟩ := (hmem v n).mp he
    exact hv.resolve_left fun hks ↦ (List.count_pos_iff.mpr hks).ne' hzero
  · intro v hv
    exact ⟨_, List.mem_map_of_mem ((hmem v _).mpr ⟨.inr hv, rfl⟩), rfl⟩

/-- Of a list of options those are offered that leave a flight, and the one that is selected, if it
is in the list. -/
theorem truthful_filter {options : List (FacetOption κ)} {returned : κ → ℕ}
    (hcount : ∀ o ∈ options, o.count = returned o.value) :
    Truthful (options.filter fun o ↦ 0 < o.count || selected = some o.value) selected returned ↔
      ∀ v, selected = some v → ∃ o ∈ options, o.value = v := by
  constructor
  · intro h v hv
    obtain ⟨o, ho, hvalue⟩ := h.selected v hv
    exact ⟨o, (List.mem_filter.mp ho).1, hvalue⟩
  · intro h
    constructor
    · exact fun o ho ↦ hcount o (List.mem_filter.mp ho).1
    · intro o ho hzero
      have hoffered := (List.mem_filter.mp ho).2
      rw [hzero] at hoffered
      simpa using hoffered
    · intro v hv
      obtain ⟨o, ho, rfl⟩ := h v hv
      exact ⟨o, List.mem_filter.mpr ⟨ho, by simp [hv]⟩, rfl⟩

/-- Options for thresholds: what is selected has to be one of them. -/
theorem truthful_thresholds (thresholds : List ℚ) (label : ℚ → String) (count : Double → ℕ)
    (selected : Option Double) {returned : Double → ℕ}
    (hcount : ∀ q ∈ thresholds, count (.fin q) = returned (.fin q)) :
    Truthful (thresholdOptions thresholds label count selected) selected returned ↔
      ∀ v, selected = some v → v ∈ thresholds.map Double.fin := by
  have hoptions : ∀ o ∈ thresholds.map fun min ↦
      (⟨.fin min, label min, count (.fin min)⟩ : FacetOption Double),
      o.count = returned o.value := by
    intro o ho
    obtain ⟨q, hq, rfl⟩ := List.mem_map.mp ho
    exact hcount q hq
  refine (truthful_filter hoptions).trans (forall_congr' fun v ↦ imp_congr_right fun _ ↦ ?_)
  constructor
  · rintro ⟨o, ho, rfl⟩
    obtain ⟨q, hq, rfl⟩ := List.mem_map.mp ho
    exact List.mem_map_of_mem hq
  · intro hv
    obtain ⟨q, hq, rfl⟩ := List.mem_map.mp hv
    exact ⟨_, List.mem_map_of_mem hq, rfl⟩

end counts

/-! ## The five filters -/

section facets

variable (tracks : List Flight) (filters : FlightFilters) (utc : Bool)

/-- The empty text is no vendor. -/
theorem vendorOf_eq_some {track : Flight} {v : String} :
    vendorOf track = some v ↔ track.identity.bind FlightIdentity.vendor = some v ∧ v ≠ "" := by
  rw [vendorOf, Option.filter_eq_some_iff, decide_eq_true_eq]

theorem matchesFacet_vendor {v : String} (hv : v ≠ "") (track : Flight) :
    matchesFacet b track .vendor { filters with vendor := some v } utc =
      decide (track.identity.bind FlightIdentity.vendor = some v) := by
  simp only [matchesFacet]

/-- The options for the vendor. -/
theorem vendor_truthful_iff :
    (Truthful (flightFacets b tracks filters utc).vendor filters.vendor fun v ↦
      (filterFlights b tracks { filters with vendor := some v } utc none).length) ↔
        filters.vendor ≠ some "" := by
  have hkeys (v : String) : v ∈ (filterFlights b tracks filters utc (some .vendor)).filterMap
      vendorOf ∨ filters.vendor.filter (· ≠ "") = some v → v ≠ "" := by
    rintro (hv | hv)
    · obtain ⟨track, -, hvendor⟩ := List.mem_filterMap.mp hv
      exact (vendorOf_eq_some.mp hvendor).2
    · rw [Option.filter_eq_some_iff, decide_eq_true_eq] at hv
      exact hv.2
  have hreturned (v : String) (hv : v ≠ "") :
      ((filterFlights b tracks filters utc (some .vendor)).filterMap vendorOf).count v =
        (filterFlights b tracks { filters with vendor := some v } utc none).length := by
    refine Eq.trans ?_ (length_filterFlights b .vendor tracks filters { vendor := some v } utc).symm
    rw [List.count_filterMap]
    refine List.countP_congr fun track _ ↦ ?_
    rw [FlightFilters.take, matchesFacet_vendor b filters utc hv, decide_eq_true_eq, beq_iff_eq,
      vendorOf_eq_some, and_iff_left hv]
  have htally := truthful_of_tally id (List.mergeSort_perm
    (vendorCounts (filterFlights b tracks filters utc (some .vendor)) filters).entries fun x y ↦
      y.2 < x.2 || (x.2 = y.2 && b.localeCompare x.1 y.1 ≤ 0)) fun v hv ↦ hreturned v (hkeys v hv)
  constructor
  · intro h hempty
    obtain ⟨o, ho, hvalue⟩ := h.selected "" hempty
    obtain ⟨⟨v, n⟩, he, rfl⟩ := List.mem_map.mp ho
    rw [(List.mergeSort_perm _ _).mem_iff, JsMap.mem_entries] at he
    exact hkeys v ((get_withSelected v n).mp he).1 hvalue
  · intro hne
    have hselected : filters.vendor.filter (· ≠ "") = filters.vendor := by
      rcases hvendor : filters.vendor with _ | v
      · rfl
      · exact Option.filter_some_pos (by simpa [hvendor] using hne)
    rw [hselected] at htally
    exact htally

/-- The options for the class of the evidence.  A track counts once for a class. -/
theorem evidence_truthful :
    Truthful (flightFacets b tracks filters utc).evidence filters.evidence fun v ↦
      (filterFlights b tracks { filters with evidence := some v } utc none).length := by
  refine truthful_of_tally (fun v : DetectionClass ↦ "Class " ++ v.text)
    (List.mergeSort_perm _ _) fun v _ ↦ ?_
  refine Eq.trans ?_ (length_filterFlights b .evidence tracks filters { evidence := some v } utc).symm
  rw [count_flatMap_distinct]
  refine List.countP_congr fun track _ ↦ ?_
  simp [matchesFacet, FlightFilters.take]

/-- The options for the operator. -/
theorem operator_truthful :
    Truthful (flightFacets b tracks filters utc).operator filters.operator fun v ↦
      (filterFlights b tracks { filters with operator := some v } utc none).length := by
  have hreturned (v : OperatorChoice) :
      (filterFlights b tracks { filters with operator := some v } utc none).length =
        (filterFlights b tracks filters utc (some .operator)).countP fun track ↦
          track.hasOperatorFix = decide (v = .yes) :=
    length_filterFlights b .operator tracks filters { operator := some v } utc
  refine (truthful_filter fun o ho ↦ ?_).mpr fun v _ ↦ ?_
  · rw [hreturned]
    have hsplit : (filterFlights b tracks filters utc (some .operator)).length = _ :=
      List.length_eq_countP_add_countP Flight.hasOperatorFix
    rcases List.mem_cons.mp ho with rfl | ho
    · simp [List.countP_eq_length_filter]
    · obtain rfl := List.mem_singleton.mp ho
      simp only [← List.countP_eq_length_filter, reduceCtorEq, decide_false] at hsplit ⊢
      simp only [Bool.not_eq_true] at hsplit
      omega
  · cases v
    · exact ⟨_, List.mem_cons_self, rfl⟩
    · exact ⟨_, List.mem_cons_of_mem _ List.mem_cons_self, rfl⟩

/-- The options for the duration. -/
theorem duration_truthful_iff :
    (Truthful (flightFacets b tracks filters utc).duration filters.minDurationS fun v ↦
      (filterFlights b tracks { filters with minDurationS := some v } utc none).length) ↔
        ∀ v, filters.minDurationS = some v → v ∈ durationThresholdsS.map Double.fin := by
  refine truthful_thresholds durationThresholdsS (durationLabel b)
    (fun min ↦ ((filterFlights b tracks filters utc (some .minDurationS)).filter fun track ↦
      min.le ((track.durationS b.dateParse).getD (.fin (-1)))).length) filters.minDurationS
    fun q hq ↦ ?_
  have hpositive : ∀ q ∈ durationThresholdsS, (Double.fin q).le (.fin (-1)) = false := by decide
  refine Eq.trans ?_
    (length_filterFlights b .minDurationS tracks filters { minDurationS := some (.fin q) } utc).symm
  rw [← List.countP_eq_length_filter]
  refine List.countP_congr fun track _ ↦ ?_
  rw [FlightFilters.take, matchesFacet]
  rcases track.durationS b.dateParse with _ | seconds
  · simp [hpositive q hq]
  · simp

/-- The options for the number of detections. -/
theorem detections_truthful_iff :
    (Truthful (flightFacets b tracks filters utc).detections filters.minDetections fun v ↦
      (filterFlights b tracks { filters with minDetections := some v } utc none).length) ↔
        ∀ v, filters.minDetections = some v → v ∈ detectionThresholds.map Double.fin := by
  refine truthful_thresholds detectionThresholds (fun min ↦ "≥ " ++ b.numberText min)
    (fun min ↦ ((filterFlights b tracks filters utc (some .minDetections)).filter fun track ↦
      min.le track.detectionCount).length) filters.minDetections fun q _ ↦ ?_
  refine Eq.trans ?_
    (length_filterFlights b .minDetections tracks filters { minDetections := some (.fin q) } utc).symm
  rw [← List.countP_eq_length_filter]
  rfl

/-- **The options are truthful** exactly if no threshold is selected that is not among those
offered, nor the empty text for the vendor. -/
theorem flightFacets_truthful_iff : FacetsTruthful b tracks filters utc ↔
    filters.vendor ≠ some "" ∧
      (∀ v, filters.minDurationS = some v → v ∈ durationThresholdsS.map Double.fin) ∧
        ∀ v, filters.minDetections = some v → v ∈ detectionThresholds.map Double.fin := by
  constructor
  · intro h
    exact ⟨(vendor_truthful_iff b tracks filters utc).mp h.vendor,
      (duration_truthful_iff b tracks filters utc).mp h.duration,
      (detections_truthful_iff b tracks filters utc).mp h.detections⟩
  · rintro ⟨hvendor, hduration, hdetections⟩
    exact ⟨(vendor_truthful_iff b tracks filters utc).mpr hvendor,
      evidence_truthful b tracks filters utc, operator_truthful b tracks filters utc,
      (duration_truthful_iff b tracks filters utc).mpr hduration,
      (detections_truthful_iff b tracks filters utc).mpr hdetections⟩

end facets

/-- A browser that knows the two times of `fiveMinutes`. -/
def someBrowser : Browser where
  dateParse text :=
    if text = "2026-05-01T10:00:00Z" then some 1777629600000
    else if text = "2026-05-01T10:05:00Z" then some 1777629900000
    else none
  utc _ _ _ := none
  localTime _ _ _ := none
  trim := id
  toLowerCase := id
  localeCompare x y := if x < y then -1 else if y < x then 1 else 0
  numberText q := toString q.num

/-- A flight of five minutes. -/
def fiveMinutes : Flight where
  trackId := "trk_1"
  firstSeen := "2026-05-01T10:00:00Z"
  lastSeen := "2026-05-01T10:05:00Z"

/-- With at least two minutes asked for, there is the flight of five minutes, and no option says
that the filter is set. -/
theorem not_facetsTruthful_two_minutes :
    filterFlights someBrowser [fiveMinutes] { minDurationS := some (.fin 120) } true none ≠ [] ∧
      ¬ FacetsTruthful someBrowser [fiveMinutes] { minDurationS := some (.fin 120) } true := by
  refine ⟨by decide +kernel, fun h ↦ ?_⟩
  have hmem := (duration_truthful_iff _ _ _ _).mp h.duration (.fin 120) rfl
  exact absurd hmem (by decide)

end ClassG.Ui
