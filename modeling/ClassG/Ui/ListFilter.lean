import ClassG.Ui.LiveFrames

/-!
# Two filters

`matchesQuery` compares texts where `ListTracks` compares instants, and takes a filter for asked for
where the server takes an empty one for none.

* `Asked` — what the server makes of a query.
* `Mirrored` — the track is none that the two filters tell apart.
* `matchesQuery_docOf` — of such a track they say the same.
-/

set_option autoImplicit false

namespace ClassG.Ui

open Store

/-- The bounds of the query are RFC 3339 texts of instants. -/
structure TracksQuery.Rendered (q : TracksQuery) : Prop where
  since : ∀ b ∈ q.since, ∃ s, GoTime.InRange s ∧ b = GoTime.formatRFC3339Nano s
  until' : ∀ b ∈ q.until', ∃ s, GoTime.InRange s ∧ b = GoTime.formatRFC3339Nano s

/-! ## What the server is asked -/

/-- What the server makes of the query. -/
structure Asked (q : TracksQuery) (asked : TrackQuery) : Prop where
  valid : ∀ s ∈ q.state, s ∈ trackStates
  states : asked.states = q.state
  since : timeParam q.since = some asked.since
  until' : timeParam q.until' = some asked.until'
  minConfidence : confidenceParam q.minConfidence = some asked.minConfidence
  serial : asked.serial = GoString.trimSpace (q.serial.getD "")
  vendor : asked.vendor = GoString.trimSpace (q.vendor.getD "")
  lastSeenBefore : asked.lastSeenBefore = 0
  skipTotal : asked.skipTotal = false
  cursor : asked.cursor = none

theorem asked_of_serverQuery {q : TracksQuery} {asked : TrackQuery}
    (h : serverQuery q = some asked) : Asked q asked := by
  rw [serverQuery] at h
  split at h
  · rename_i hvalid
    obtain ⟨since, hsince, h⟩ := Option.bind_eq_some_iff.mp h
    obtain ⟨until', huntil, h⟩ := Option.bind_eq_some_iff.mp h
    split at h
    · cases h
    · obtain ⟨minConfidence, hconfidence, h⟩ := Option.bind_eq_some_iff.mp h
      obtain ⟨limit, -, h⟩ := Option.bind_eq_some_iff.mp h
      obtain rfl := Option.some.inj h
      exact ⟨by simpa using hvalid, rfl, hsince, huntil, hconfidence, rfl, rfl, rfl, rfl, rfl⟩
  · cases h

/-- A text of an instant is what the server takes for it. -/
theorem timeParam_format {s : GoTime} (hs : GoTime.InRange s) :
    timeParam (some (GoTime.formatRFC3339Nano s)) = some s := by
  have hparse := GoTime.parseRFC3339Nano_formatRFC3339Nano hs
  rcases hf : GoTime.formatRFC3339Nano s with _ | ⟨b, rest⟩
  · rw [hf] at hparse
    cases hparse
  · rw [timeParam, ← hf, hparse]
    nofun

/-- A bound is missing, or it is an instant and the client has its text. -/
theorem Rendered.bound {b : Option GoBytes} {s : GoTime}
    (h : ∀ c ∈ b, ∃ s, GoTime.InRange s ∧ c = GoTime.formatRFC3339Nano s)
    (hs : timeParam b = some s) :
    (b = none ∧ s = 0) ∨ (GoTime.InRange s ∧ b = some (GoTime.formatRFC3339Nano s)) := by
  rcases b with _ | c
  · exact .inl ⟨rfl, (Option.some.inj hs).symm⟩
  · obtain ⟨u, hu, rfl⟩ := h c rfl
    obtain rfl := Option.some.inj ((timeParam_format hu).symm.trans hs)
    exact .inr ⟨hu, rfl⟩

theorem format_ne_nil {s : GoTime} (hs : GoTime.InRange s) :
    GoTime.formatRFC3339Nano s ≠ [] := by
  intro h
  have hparse := GoTime.parseRFC3339Nano_formatRFC3339Nano hs
  rw [h] at hparse
  cases hparse

/-! ## Filter by filter -/

section filters

variable (fold : Char → Char) (asked : TrackQuery) (t : Track)

/-- It was seen last before the window. -/
def Early : Prop := asked.since ≠ 0 ∧ t.lastSeen < asked.since

/-- It was seen last after the window. -/
def Late : Prop := asked.until' ≠ 0 ∧ asked.until' < t.lastSeen

/-- It has not the serial. -/
def OtherSerial : Prop := asked.serial ≠ "" ∧ t.identity.serial ≠ asked.serial

/-- It has not the vendor. -/
def OtherVendor : Prop :=
  asked.vendor ≠ "" ∧ ¬GoString.equalFold fold t.identity.vendor asked.vendor

instance : Decidable (Early asked t) := inferInstanceAs (Decidable (_ ∧ _))
instance : Decidable (Late asked t) := inferInstanceAs (Decidable (_ ∧ _))
instance : Decidable (OtherSerial asked t) := inferInstanceAs (Decidable (_ ∧ _))
instance : Decidable (OtherVendor fold asked t) := inferInstanceAs (Decidable (_ ∧ _))

theorem trimmed_of_mem {s : String} (h : s ∈ trackStates) :
    GoString.trimSpace s = s ∧ s ≠ "" := by
  have hall : ∀ s ∈ trackStates, GoString.trimSpace s = s ∧ s ≠ "" := by decide
  exact hall s h

theorem set_states {q : TracksQuery} (h : Asked q asked) : Store.set asked.states = q.state := by
  have hmap : q.state.map GoString.trimSpace = q.state :=
    (List.map_congr_left fun s hs ↦ (trimmed_of_mem (h.valid s hs)).1).trans (List.map_id _)
  unfold Store.set
  rw [h.states, hmap]
  exact List.filter_eq_self.mpr fun s hs ↦ decide_eq_true (trimmed_of_mem (h.valid s hs)).2

/-- A state that is not ruled out. -/
theorem not_asked_for {states : List String} {s : String} :
    ¬(states ≠ [] ∧ s ∉ states) ↔ states = [] ∨ s ∈ states := by
  rw [not_and_or, not_not, not_not]

/-- The filter of the server, clause by clause. -/
theorem matchesTrack_iff {q : TracksQuery} (h : Asked q asked) :
    MemStore.matchesTrack fold asked t = true ↔ (q.state = [] ∨ t.state ∈ q.state) ∧
      ¬Early asked t ∧ ¬Late asked t ∧ ¬OtherSerial asked t ∧ ¬OtherVendor fold asked t ∧
        ¬t.confidence < asked.minConfidence := by
  simp only [MemStore.matchesTrack, set_states asked h, h.lastSeenBefore, Bool.not_eq_true',
    decide_eq_false_iff_not, not_or, not_asked_for]
  constructor
  · rintro ⟨hstate, hearly, hlate, -, hconfidence, hserial, hvendor⟩
    exact ⟨hstate, hearly, hlate, hserial, hvendor, hconfidence⟩
  · rintro ⟨hstate, hearly, hlate, hserial, hvendor, hconfidence⟩
    exact ⟨hstate, hearly, hlate, fun hbefore ↦ hbefore.1 rfl, hconfidence, hserial, hvendor⟩

/-- The filter of the console, clause by clause. -/
theorem matchesQuery_iff (toLowerCase : String → String) (d : TrackDoc) (q : TracksQuery) :
    matchesQuery toLowerCase d q = true ↔ (q.state = [] ∨ d.state ∈ q.state) ∧
      (∀ b ∈ q.since, b ≠ [] → ¬d.lastSeen < b) ∧ (∀ b ∈ q.until', b ≠ [] → ¬b < d.lastSeen) ∧
      (∀ s ∈ q.serial, d.identity.bind (·.serial) = some s) ∧
      (∀ v ∈ q.vendor,
        toLowerCase ((d.identity.bind (·.vendor)).getD "") = toLowerCase v) ∧
      ∀ c ∈ q.minConfidence, ¬d.confidence < c := by
  have hif {p : Prop} [Decidable p] {b : Bool} :
      (if p then false else b) = true ↔ ¬p ∧ b = true := by
    split <;> simp [*]
  have hany {α : Type} {o : Option α} {p : α → Bool} :
      ¬o.any p = true ↔ ∀ a ∈ o, ¬p a = true := by
    rcases o with _ | a <;> simp
  rw [matchesQuery, hif, hif, hif, hif, hif, hif, hany, hany, hany, hany, hany]
  refine and_congr not_asked_for (and_congr ?_ (and_congr ?_ (and_congr ?_ (and_congr ?_ ?_))))
  all_goals simp

end filters

/-! ## Where they agree -/

section mirrored

variable (toLowerCase : String → String) (fold : Char → Char) (q : TracksQuery)
  (asked : TrackQuery) (t : Track)

/-- No filter that comes to decide on the track decides otherwise in the console: a bound is an
instant whose text can be told apart from that of `last_seen`, and not the zero time where it
would decide; a serial or a vendor is found the same with and without the spaces around it and
whatever folds its case; and a confidence is not negative where none is asked for. -/
structure Mirrored : Prop where
  since : (q.state = [] ∨ t.state ∈ q.state) → q.since ≠ none →
    GoTime.Tellable t.lastSeen asked.since ∧ (asked.since = 0 → 0 ≤ t.lastSeen)
  until' : (q.state = [] ∨ t.state ∈ q.state) → ¬Early asked t → q.until' ≠ none →
    GoTime.Tellable asked.until' t.lastSeen ∧ (asked.until' = 0 → t.lastSeen ≤ 0)
  serial : (q.state = [] ∨ t.state ∈ q.state) → ¬Early asked t → ¬Late asked t →
    ∀ s ∈ q.serial, omitEmpty t.identity.serial = some s ↔
      asked.serial = "" ∨ t.identity.serial = asked.serial
  vendor : (q.state = [] ∨ t.state ∈ q.state) → ¬Early asked t → ¬Late asked t →
    ¬OtherSerial asked t → ∀ v ∈ q.vendor, toLowerCase t.identity.vendor = toLowerCase v ↔
      asked.vendor = "" ∨ GoString.equalFold fold t.identity.vendor asked.vendor = true
  confidence : (q.state = [] ∨ t.state ∈ q.state) → ¬Early asked t → ¬Late asked t →
    ¬OtherSerial asked t → ¬OtherVendor fold asked t → q.minConfidence = none → 0 ≤ t.confidence

variable {toLowerCase fold q asked t}

/-- A lower bound. -/
theorem since_iff (hr : q.Rendered) (h : Asked q asked) (ht : GoTime.InRange t.lastSeen)
    (hm : q.since ≠ none →
      GoTime.Tellable t.lastSeen asked.since ∧ (asked.since = 0 → 0 ≤ t.lastSeen)) :
    (∀ b ∈ q.since, b ≠ [] → ¬(docOf t).lastSeen < b) ↔ ¬Early asked t := by
  rcases Rendered.bound hr.since h.since with ⟨hnone, hzero⟩ | ⟨hs, hsome⟩
  · rw [hnone, Early, hzero]
    simp
  · obtain ⟨htell, hzero⟩ := hm (by rw [hsome]; nofun)
    have hlt : (docOf t).lastSeen < GoTime.formatRFC3339Nano asked.since ↔
        t.lastSeen < asked.since := GoTime.formatRFC3339Nano_lt_iff ht hs htell
    have hne := format_ne_nil hs
    simp only [hsome, Option.mem_some_iff, forall_eq', Early, hlt]
    refine ⟨fun hnot hearly ↦ hnot hne hearly.2, fun hnot _ hearly ↦ hnot ⟨fun h0 ↦ ?_, hearly⟩⟩
    have := hzero h0
    rw [h0] at hearly
    exact absurd hearly (not_lt.mpr this)

/-- An upper bound. -/
theorem until_iff (hr : q.Rendered) (h : Asked q asked) (ht : GoTime.InRange t.lastSeen)
    (hm : q.until' ≠ none →
      GoTime.Tellable asked.until' t.lastSeen ∧ (asked.until' = 0 → t.lastSeen ≤ 0)) :
    (∀ b ∈ q.until', b ≠ [] → ¬b < (docOf t).lastSeen) ↔ ¬Late asked t := by
  rcases Rendered.bound hr.until' h.until' with ⟨hnone, hzero⟩ | ⟨hs, hsome⟩
  · rw [hnone, Late, hzero]
    simp
  · obtain ⟨htell, hzero⟩ := hm (by rw [hsome]; nofun)
    have hlt : GoTime.formatRFC3339Nano asked.until' < (docOf t).lastSeen ↔
        asked.until' < t.lastSeen := GoTime.formatRFC3339Nano_lt_iff hs ht htell
    have hne := format_ne_nil hs
    simp only [hsome, Option.mem_some_iff, forall_eq', Late, hlt]
    refine ⟨fun hnot hlate ↦ hnot hne hlate.2, fun hnot _ hlate ↦ hnot ⟨fun h0 ↦ ?_, hlate⟩⟩
    have := hzero h0
    rw [h0] at hlate
    exact absurd hlate (not_lt.mpr this)

theorem serial_iff (h : Asked q asked)
    (hm : ∀ s ∈ q.serial, omitEmpty t.identity.serial = some s ↔
      asked.serial = "" ∨ t.identity.serial = asked.serial) :
    (∀ s ∈ q.serial, (docOf t).identity.bind (·.serial) = some s) ↔ ¬OtherSerial asked t := by
  have hdoc : (docOf t).identity.bind (·.serial) = omitEmpty t.identity.serial := rfl
  rw [hdoc, OtherSerial]
  rcases hs : q.serial with _ | s
  · have hempty : asked.serial = "" := by
      rw [h.serial, hs]
      decide
    simp [hempty]
  · simp only [Option.mem_some_iff, forall_eq', hm s hs]
    rw [not_and_or, not_not, not_not]

theorem omitEmpty_getD (s : String) : (omitEmpty s).getD "" = s := by
  rw [omitEmpty]
  split
  · rename_i h
    exact h.symm
  · rfl

theorem vendor_iff (h : Asked q asked)
    (hm : ∀ v ∈ q.vendor, toLowerCase t.identity.vendor = toLowerCase v ↔
      asked.vendor = "" ∨ GoString.equalFold fold t.identity.vendor asked.vendor = true) :
    (∀ v ∈ q.vendor, toLowerCase (((docOf t).identity.bind (·.vendor)).getD "") =
      toLowerCase v) ↔ ¬OtherVendor fold asked t := by
  have hdoc : ((docOf t).identity.bind (·.vendor)).getD "" = t.identity.vendor :=
    omitEmpty_getD t.identity.vendor
  rw [hdoc, OtherVendor]
  rcases hv : q.vendor with _ | v
  · have hempty : asked.vendor = "" := by
      rw [h.vendor, hv]
      decide
    simp [hempty]
  · simp only [Option.mem_some_iff, forall_eq', hm v hv]
    rw [not_and_or, not_not, not_not]

theorem confidence_iff (h : Asked q asked) (hm : q.minConfidence = none → 0 ≤ t.confidence) :
    (∀ c ∈ q.minConfidence, ¬(docOf t).confidence < c) ↔ ¬t.confidence < asked.minConfidence := by
  have hdoc : (docOf t).confidence = t.confidence := rfl
  have hc := h.minConfidence
  rw [hdoc]
  rcases hq : q.minConfidence with _ | c
  · rw [hq] at hc
    have hzero : asked.minConfidence = 0 := (Option.some.inj hc).symm
    simp [hzero, hm hq]
  · rw [hq, confidenceParam] at hc
    split at hc
    · cases hc
    · simp [Option.some.inj hc]

/-- **The two filters agree** on a track that they do not tell apart. -/
theorem matchesQuery_docOf (hr : q.Rendered) (h : Asked q asked) (ht : GoTime.InRange t.lastSeen)
    (hm : Mirrored toLowerCase fold q asked t) :
    matchesQuery toLowerCase (docOf t) q = MemStore.matchesTrack fold asked t := by
  rw [Bool.eq_iff_iff, matchesQuery_iff, matchesTrack_iff fold asked t h]
  refine and_congr_right fun hstate ↦ ?_
  rw [since_iff hr h ht (hm.since hstate)]
  refine and_congr_right fun hearly ↦ ?_
  rw [until_iff hr h ht (hm.until' hstate hearly)]
  refine and_congr_right fun hlate ↦ ?_
  rw [serial_iff h (hm.serial hstate hearly hlate)]
  refine and_congr_right fun hserial ↦ ?_
  rw [vendor_iff h (hm.vendor hstate hearly hlate hserial)]
  exact and_congr_right fun hvendor ↦
    confidence_iff h (hm.confidence hstate hearly hlate hserial hvendor)

end mirrored

end ClassG.Ui
