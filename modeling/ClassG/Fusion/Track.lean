import Mathlib.Data.Rat.Floor
import Mathlib.Algebra.BigOperators.Group.List.Basic
import ClassG.ForGo.Map
import ClassG.Fusion.Detection

/-!
# Tracks

A track is fusion's assertion that something might be an uncrewed aircraft.  This file is the
document and the methods of `services/fusion/track.go` that work on one track at a time: how a
detection is counted (`addEvidence`, `noteReceiver`), where the aircraft is and has been
(`addPosition`), and what time makes of it (`updateState`).  `Track.absorb` is the part of
`TrackStore.Ingest` that folds a detection into the track it belongs to, from the MAC on.

Every method returns the new document.  Which fields a method leaves alone is what the rest of
the development asks of it most often, so each definition is followed by those facts as `simp`
lemmas.

`horizontalDistanceM` is trigonometry over `float64` and is taken as a parameter: nothing below
depends on what it computes.
-/

set_option autoImplicit false

namespace ClassG.Fusion

/-- `horizontalDistanceM(lat1, lon1, lat2, lon2)`, in metres. -/
abbrev DistanceFn := ℚ → ℚ → ℚ → ℚ → ℚ

/-- A terrain resolver: height above ground and ground elevation for a latitude, a longitude and
a geodetic altitude, if the elevation there is known.  No resolver at all is one that never
answers. -/
abbrev TerrainResolver := ℚ → ℚ → ℚ → Option (ℚ × ℚ)

/-- What the lifecycle makes of a track. -/
inductive TrackState
  | tentative
  | confirmed
  | coasting
  | closed
  deriving DecidableEq, Repr

/-- The lifecycle thresholds. -/
structure Lifecycle where
  confirmMinDetections : ℤ
  confirmMinSpan : GoDuration
  coastAfter : GoDuration
  closeAfter : GoDuration
  resumeWithin : GoDuration
  historyDepth : ℤ
  historyMinMoveM : ℚ
  historyMinInterval : GoDuration
  deriving DecidableEq, Repr

open GoDuration in
/-- `DefaultLifecycle`. -/
def defaultLifecycle : Lifecycle where
  confirmMinDetections := 2
  confirmMinSpan := 2 * second
  coastAfter := 30 * second
  closeAfter := 300 * second
  resumeWithin := 30 * minute
  historyDepth := 4096
  historyMinMoveM := 2
  historyMinInterval := 2 * second

/-- Evidence classes that corroborate an identification but must never make one on their own. -/
def corroboratingOnlyClasses (cls : String) : Bool := cls = "C" ∨ cls = "D" ∨ cls = "H"

/-- Where an aircraft, or its operator, was at an instant. -/
structure Position where
  lat : ℚ
  lon : ℚ
  altGeodeticM : Option ℚ := none
  heightAGLM : Option ℚ := none
  terrainElevationM : Option ℚ := none
  speedMPS : Option ℚ := none
  trackDeg : Option ℚ := none
  atTime : GoTime
  deriving DecidableEq, Repr

/-- What the detections of one class add up to. -/
structure Evidence where
  cls : String
  sensorKind : String
  weight : ℚ
  count : ℕ
  lastSeen : GoTime
  deriving DecidableEq, Repr

/-- One radio's contribution to a track. -/
structure Receiver where
  sensorID : String
  sensorKind : String
  detectionCount : ℕ
  rssidBm : Option ℚ
  lastSeen : GoTime
  deriving DecidableEq, Repr

/-- Who a track says it is. -/
structure Identity where
  serial : String := ""
  macs : List String := []
  vendor : String := ""
  operatorID : String := ""
  uaType : String := ""
  deriving DecidableEq, Repr

/-- The track document. -/
structure Track where
  schemaVersion : String := "1.0"
  trackID : String
  state : TrackState := .tentative
  firstSeen : GoTime
  lastSeen : GoTime := 0
  detectionCount : ℕ := 0
  identity : Identity := {}
  confidence : ℚ := 0
  evidence : GoMap String Evidence := .empty
  current : Option Position := none
  history : List Position := []
  operator : Option Position := none
  rssidBm : Option ℚ := none
  receivers : GoMap String Receiver := .empty
  adsbCorrelated : Bool := false

instance : Inhabited Track := ⟨{ trackID := "", firstSeen := 0 }⟩

namespace Track

/-- Whether anything has actually identified this track as an aircraft, as opposed to merely
being consistent with one. -/
def identified (t : Track) : Bool := t.evidence.keys.any fun cls ↦ !corroboratingOnlyClasses cls

theorem identified_iff {t : Track} :
    t.identified = true ↔
      ∃ cls e, t.evidence.get cls = some e ∧ corroboratingOnlyClasses cls = false := by
  simp only [identified, List.any_eq_true, GoMap.mem_keys, Bool.not_eq_true']
  constructor
  · rintro ⟨cls, ⟨e, he⟩, hc⟩; exact ⟨cls, e, he, hc⟩
  · rintro ⟨cls, e, he, hc⟩; exact ⟨cls, ⟨e, he⟩, hc⟩

/-! ## Evidence -/

/-- `math.Round`: halves go away from zero. -/
def mathRound (x : ℚ) : ℤ := if 0 ≤ x then ⌊x + 1 / 2⌋ else ⌈x - 1 / 2⌉

/-- Noisy-OR over the evidence classes, rounded to three decimals. -/
def recomputeConfidence (t : Track) : Track :=
  let product := (t.evidence.values.map fun e ↦ 1 - e.weight).prod
  { t with confidence := mathRound ((1 - product) * 1000) / 1000 }

def addEvidence (t : Track) (cls sensorKind : String) (weight : ℚ) (atTime : GoTime) : Track :=
  let e := (t.evidence.get cls).getD
    { cls := cls, sensorKind := sensorKind, weight := weight, count := 0, lastSeen := 0 }
  recomputeConfidence
    { t with evidence := t.evidence.put cls { e with count := e.count + 1, lastSeen := atTime } }

/-- The stronger of a peak so far and a new reading; a detection without a reading changes
nothing. -/
def raisePeak (peak reading : Option ℚ) : Option ℚ :=
  match reading, peak with
  | none, _ => peak
  | some v, none => some v
  | some v, some p => if p < v then some v else some p

/-- Record which radio heard this detection and what it measured. -/
def noteReceiver (t : Track) (d : Detection) : Track :=
  if d.sensorID = "" then t
  else
    let r := (t.receivers.get d.sensorID).getD
      { sensorID := d.sensorID, sensorKind := d.sensorKind, detectionCount := 0,
        rssidBm := none, lastSeen := 0 }
    let r : Receiver :=
      { r with
        detectionCount := r.detectionCount + 1
        -- detections arrive out of order, and an older one must not drag the clock backwards
        lastSeen := if r.lastSeen < d.ts then d.ts else r.lastSeen
        rssidBm := raisePeak r.rssidBm d.rf.rssidBm }
    { t with receivers := t.receivers.put d.sensorID r }

/-! ## State -/

/-- The state `updateState` leaves the track in. -/
def nextState (t : Track) (now : GoTime) (lc : Lifecycle) : TrackState :=
  let since := GoTime.sub now t.lastSeen
  if lc.closeAfter < since then .closed
  else if lc.coastAfter < since then
    if t.state = .confirmed then .coasting else t.state
  else match t.state with
    -- reacquired after occlusion, same track by design
    | .coasting => .confirmed
    | .tentative =>
      if t.identified ∧ lc.confirmMinDetections ≤ t.detectionCount ∧
          lc.confirmMinSpan ≤ GoTime.sub t.lastSeen t.firstSeen then .confirmed
      else .tentative
    | s => s

def updateState (t : Track) (now : GoTime) (lc : Lifecycle) : Track :=
  { t with state := t.nextState now lc }

/-- A track is left closed when it has been silent for `CloseAfter`, or was closed already. -/
theorem nextState_eq_closed_iff {t : Track} {now : GoTime} {lc : Lifecycle} :
    t.nextState now lc = .closed ↔
      lc.closeAfter < GoTime.sub now t.lastSeen ∨ t.state = .closed := by
  unfold nextState
  by_cases hclose : lc.closeAfter < GoTime.sub now t.lastSeen
  · simp [hclose]
  · by_cases hcoast : lc.coastAfter < GoTime.sub now t.lastSeen
    · by_cases hs : t.state = .confirmed <;> simp [hclose, hcoast, hs]
    · cases hs : t.state <;> simp [hclose, hcoast]
      split <;> simp

/-- The test a `TENTATIVE` track has to pass to be shown as an aircraft. -/
structure Qualified (t : Track) (lc : Lifecycle) : Prop where
  /-- Some class of evidence is more than corroboration. -/
  identified : t.identified = true
  /-- It was heard often enough. -/
  detections : lc.confirmMinDetections ≤ t.detectionCount
  /-- It was heard for long enough. -/
  span : lc.confirmMinSpan ≤ GoTime.sub t.lastSeen t.firstSeen

/-- Being shown as an aircraft is inherited or earned: `CONFIRMED` and `COASTING` come from each
other, or from passing the test. -/
theorem shown_of_nextState {t : Track} {now : GoTime} {lc : Lifecycle}
    (h : t.nextState now lc = .confirmed ∨ t.nextState now lc = .coasting) :
    t.state = .confirmed ∨ t.state = .coasting ∨ t.Qualified lc := by
  unfold nextState at h
  by_cases hclose : lc.closeAfter < GoTime.sub now t.lastSeen
  · simp [hclose] at h
  · by_cases hcoast : lc.coastAfter < GoTime.sub now t.lastSeen
    · cases hs : t.state <;> simp [hclose, hcoast, hs] at h ⊢
    · cases hs : t.state <;> simp only [hclose, hcoast, hs, if_false] at h
      case tentative =>
        split at h
        · rename_i hq; exact .inr (.inr ⟨hq.1, hq.2.1, hq.2.2⟩)
        · simp at h
      all_goals simp at h ⊢

/-! ## Positions -/

/-- Replace the live position, and extend the trail when the aircraft has gone somewhere or
enough time has passed. -/
def addPosition (dist : DistanceFn) (t : Track) (p : Position) (lc : Lifecycle) : Track :=
  let t := { t with current := some p }
  let repeats := match t.history.getLast? with
    | some last =>
      decide (0 < lc.historyMinMoveM ∧ dist last.lat last.lon p.lat p.lon < lc.historyMinMoveM ∧
        (GoTime.sub p.atTime last.atTime).abs < lc.historyMinInterval)
    | none => false
  if repeats then t
  else
    let history := t.history ++ [p]
    if 0 < lc.historyDepth ∧ lc.historyDepth < history.length then
      { t with history := history.drop (history.length - lc.historyDepth.toNat) }
    else { t with history := history }

/-- Recording a position touches the live position and the trail only. -/
theorem addPosition_eq (dist : DistanceFn) (t : Track) (p : Position) (lc : Lifecycle) :
    t.addPosition dist p lc =
      { t with current := some p, history := (t.addPosition dist p lc).history } := by
  unfold addPosition
  dsimp only
  split
  · rfl
  · split <;> rfl

/-- The position a detection's fix is recorded as.  A height the aircraft reported is kept; only
a missing one is derived from the terrain. -/
def fixOf (d : Detection) (terrain : TerrainResolver) (q : Detection.Position) : Position :=
  let p : Position :=
    { lat := q.lat, lon := q.lon, altGeodeticM := q.altGeodeticM, heightAGLM := q.heightAGLM,
      speedMPS := d.kinematics.bind (·.speedMPS), trackDeg := d.kinematics.bind (·.trackDeg),
      atTime := d.ts }
  match p.heightAGLM, p.altGeodeticM with
  | none, some alt =>
    match terrain p.lat p.lon alt with
    | some (agl, ground) => { p with heightAGLM := some agl, terrainElevationM := some ground }
    | none => p
  | _, _ => p

end Track

/-! ## Folding a detection in -/

/-- The identity a track has once a detection is attributed to it.  A serial is adopted only by a
track that has none. -/
def Identity.learn (i : Identity) (d : Detection.Identity) : Identity :=
  { i with
    macs := if d.mac ≠ "" ∧ d.mac ∉ i.macs then i.macs ++ [d.mac] else i.macs
    serial := if d.serial ≠ "" ∧ i.serial = "" then d.serial else i.serial
    operatorID := if d.operatorID ≠ "" then d.operatorID else i.operatorID
    uaType := if d.uaType ≠ "" then d.uaType else i.uaType }

namespace Track

/-- The document under another serial. -/
def withSerial (t : Track) (serial : String) : Track :=
  { t with identity := { t.identity with serial := serial } }

/-- Count a detection: the clock, the counters and the peak. -/
def count (t : Track) (d : Detection) (seen : GoTime) (weight : ℚ) : Track :=
  let t := { t with lastSeen := if t.lastSeen < seen then seen else t.lastSeen }
  let t := { t with detectionCount := t.detectionCount + 1 }
  let t := t.addEvidence d.detectionClass d.sensorKind weight d.ts
  let t := t.noteReceiver d
  { t with rssidBm := raisePeak t.rssidBm d.rf.rssidBm }

/-- Record where a detection says the aircraft and its operator are. -/
def locate (dist : DistanceFn) (t : Track) (d : Detection) (lc : Lifecycle)
    (terrain : TerrainResolver) : Track :=
  let t := match d.position with
    | some q => t.addPosition dist (fixOf d terrain q) lc
    | none => t
  match d.operator with
  | some o => { t with operator := some { lat := o.lat, lon := o.lon, atTime := d.ts } }
  | none => t

theorem locate_eq (dist : DistanceFn) (t : Track) (d : Detection) (lc : Lifecycle)
    (terrain : TerrainResolver) :
    t.locate dist d lc terrain =
      { t with
        current := (t.locate dist d lc terrain).current
        history := (t.locate dist d lc terrain).history
        operator := (t.locate dist d lc terrain).operator } := by
  unfold locate
  cases d.position with
  | none => cases d.operator <;> rfl
  | some q =>
    dsimp only
    rw [addPosition_eq]
    cases d.operator <;> rfl

/-- Everything `Ingest` does to the document of the track a detection belongs to. -/
def absorb (dist : DistanceFn) (t : Track) (d : Detection) (seen now : GoTime) (weight : ℚ)
    (lc : Lifecycle) (terrain : TerrainResolver) : Track :=
  let t := { t with identity := t.identity.learn d.identity }
  let t := t.count d seen weight
  let t := t.locate dist d lc terrain
  t.updateState now lc

/-! ### What absorbing a detection does to each field -/

variable (dist : DistanceFn) (t : Track) (d : Detection) (seen now : GoTime) (weight : ℚ)
  (lc : Lifecycle) (terrain : TerrainResolver)

theorem count_eq :
    t.count d seen weight =
      { t with
        lastSeen := max t.lastSeen seen
        detectionCount := t.detectionCount + 1
        evidence := (t.addEvidence d.detectionClass d.sensorKind weight d.ts).evidence
        confidence := (t.addEvidence d.detectionClass d.sensorKind weight d.ts).confidence
        receivers := (t.noteReceiver d).receivers
        rssidBm := raisePeak t.rssidBm d.rf.rssidBm } := by
  rw [max_def_lt]
  unfold count noteReceiver
  dsimp only [addEvidence, recomputeConfidence]
  by_cases h : d.sensorID = "" <;> simp [h]

/-- A detection touches everything but the identity of the document itself, the start of the
flight and the correlation flag. -/
theorem absorb_eq :
    t.absorb dist d seen now weight lc terrain =
      { t with
        identity := t.identity.learn d.identity
        lastSeen := max t.lastSeen seen
        detectionCount := t.detectionCount + 1
        evidence := (t.addEvidence d.detectionClass d.sensorKind weight d.ts).evidence
        confidence := (t.addEvidence d.detectionClass d.sensorKind weight d.ts).confidence
        receivers := (t.noteReceiver d).receivers
        rssidBm := raisePeak t.rssidBm d.rf.rssidBm
        current := (t.absorb dist d seen now weight lc terrain).current
        history := (t.absorb dist d seen now weight lc terrain).history
        operator := (t.absorb dist d seen now weight lc terrain).operator
        state := (t.count d seen weight).nextState now lc } := by
  have hrec : ({ t with identity := t.identity.learn d.identity }.noteReceiver d).receivers
      = (t.noteReceiver d).receivers := by
    unfold noteReceiver; split <;> rfl
  unfold absorb
  dsimp only
  rw [locate_eq, count_eq, count_eq, hrec]
  rfl

@[simp] theorem absorb_trackID :
    (t.absorb dist d seen now weight lc terrain).trackID = t.trackID := by rw [absorb_eq]

@[simp] theorem absorb_firstSeen :
    (t.absorb dist d seen now weight lc terrain).firstSeen = t.firstSeen := by rw [absorb_eq]

@[simp] theorem absorb_identity :
    (t.absorb dist d seen now weight lc terrain).identity = t.identity.learn d.identity := by
  rw [absorb_eq]

@[simp] theorem absorb_lastSeen :
    (t.absorb dist d seen now weight lc terrain).lastSeen = max t.lastSeen seen := by
  rw [absorb_eq]

@[simp] theorem absorb_detectionCount :
    (t.absorb dist d seen now weight lc terrain).detectionCount = t.detectionCount + 1 := by
  rw [absorb_eq]

@[simp] theorem absorb_evidence :
    (t.absorb dist d seen now weight lc terrain).evidence =
      (t.addEvidence d.detectionClass d.sensorKind weight d.ts).evidence := by rw [absorb_eq]

@[simp] theorem absorb_receivers :
    (t.absorb dist d seen now weight lc terrain).receivers = (t.noteReceiver d).receivers := by
  rw [absorb_eq]

@[simp] theorem absorb_rssidBm :
    (t.absorb dist d seen now weight lc terrain).rssidBm = raisePeak t.rssidBm d.rf.rssidBm := by
  rw [absorb_eq]

@[simp] theorem absorb_adsbCorrelated :
    (t.absorb dist d seen now weight lc terrain).adsbCorrelated = t.adsbCorrelated := by
  rw [absorb_eq]

theorem absorb_state :
    (t.absorb dist d seen now weight lc terrain).state =
      (t.count d seen weight).nextState now lc := by rw [absorb_eq]

end Track

end ClassG.Fusion
