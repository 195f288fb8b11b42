import ClassG.Arrivals
import ClassG.Fusion.History

/-!
# The clocks of a track

Detections are delivered in any order, and a track keeps five times of them.  `LastSeen` and those
of its receivers are only ever put forward.  Those of its evidence, of its live position and of the
operator's are assigned as the detections come, so that an older one that comes late takes them
back.

`Kept` is what the fields hold, for every track of every run, and `clocks_right_iff` what it takes
for them to be right.
-/

set_option autoImplicit false

namespace ClassG.Fusion

open Arrivals TrackStore Track

/-! ## What is meant -/

/-- The position is the detection's. -/
def Position.IsOf (p : Position) (d : Detection) : Prop :=
  ∃ q, d.position = some q ∧ p.lat = q.lat ∧ p.lon = q.lon ∧ p.altGeodeticM = q.altGeodeticM ∧
    p.atTime = d.ts

/-- What the operator's position is set to. -/
def operatorFix (d : Detection) : Option Position :=
  d.operator.map fun o ↦ { lat := o.lat, lon := o.lon, atTime := d.ts }

/-- Every time is the latest of the detections it covers, and the two positions are those of the
latest detections that have one. -/
structure ClocksRight (ds : List Detection) (t : Track) : Prop where
  lastSeen : IsGreatest {x | ∃ d ∈ ds, True ∧ d.ts = x} t.lastSeen
  evidence : ∀ cls e, t.evidence.get cls = some e →
    IsGreatest {x | ∃ d ∈ ds, d.detectionClass = cls ∧ d.ts = x} e.lastSeen
  receivers : ∀ id r, t.receivers.get id = some r →
    IsGreatest {x | ∃ d ∈ ds, d.sensorID = id ∧ d.ts = x} r.lastSeen
  current : ∀ d, Newest (·.ts) (·.position.isSome) ds d → ∃ p, t.current = some p ∧ p.IsOf d
  operator : ∀ d, Newest (·.ts) (·.operator.isSome) ds d → t.operator = operatorFix d

/-- The last of each class, with a position, and with the operator's is the latest; and no clock has
only times to show from before its start. -/
structure InTimeOrder (ds : List Detection) : Prop where
  classes : ∀ cls, InOrder Detection.ts (·.detectionClass = cls) ds
  positions : InOrder Detection.ts (·.position.isSome) ds
  operators : InOrder Detection.ts (·.operator.isSome) ds
  started : ∃ d ∈ ds, 0 ≤ d.ts
  receiversStarted : ∀ d ∈ ds, d.sensorID ≠ "" → ∃ d' ∈ ds, d'.sensorID = d.sensorID ∧ 0 ≤ d'.ts

/-- Detections that are delivered in time order are. -/
theorem InTimeOrder.of_pairwise {ds : List Detection} (hne : ds ≠ [])
    (horder : ds.Pairwise fun a b ↦ b.ts ≤ a.ts) (hstarted : ∀ d ∈ ds, 0 ≤ d.ts) :
    InTimeOrder ds where
  classes _ := .of_pairwise horder
  positions := .of_pairwise horder
  operators := .of_pairwise horder
  started := ⟨ds.head hne, List.head_mem hne, hstarted _ (List.head_mem hne)⟩
  receiversStarted d hd _ := ⟨d, hd, rfl, hstarted d hd⟩

/-! ## What is kept -/

/-- What the fields hold, of a track that has been given these detections. -/
structure Kept (ds : List Detection) (t : Track) : Prop where
  lastSeen : Clock Detection.ts (fun _ ↦ True) 0 ds t.lastSeen
  evidence : ∀ cls, (t.evidence.get cls).map (·.lastSeen) =
    (last (fun d : Detection ↦ d.detectionClass = cls) ds).map (·.ts)
  receivers : ∀ id r, t.receivers.get id = some r → (∃ d ∈ ds, d.sensorID = id) ∧ id ≠ "" ∧
    Clock Detection.ts (·.sensorID = id) 0 ds r.lastSeen
  received : ∀ d ∈ ds, d.sensorID ≠ "" → ∃ r, t.receivers.get d.sensorID = some r
  current : ∀ d, last (fun d : Detection ↦ d.position.isSome) ds = some d →
    ∃ p, t.current = some p ∧ p.IsOf d
  operator : t.operator = (last (fun d : Detection ↦ d.operator.isSome) ds).bind operatorFix

/-! ### One detection -/

variable (dist : DistanceFn) (t : Track) (d : Detection) (seen now : GoTime) (weight : ℚ)
  (lc : Lifecycle) (terrain : TerrainResolver)

theorem fixOf_isOf {q : Detection.Position} (h : d.position = some q) :
    (fixOf d terrain q).IsOf d := by
  refine ⟨q, h, ?_⟩
  rw [fixOf]
  dsimp only
  split
  · split <;> exact ⟨rfl, rfl, rfl, rfl⟩
  · exact ⟨rfl, rfl, rfl, rfl⟩

theorem locate_current :
    (t.locate dist d lc terrain).current =
      (d.position.map (fixOf d terrain)).or t.current := by
  rw [locate]
  cases d.position with
  | none => cases d.operator <;> rfl
  | some q =>
    dsimp only
    rw [addPosition_eq]
    cases d.operator <;> rfl

theorem locate_operator :
    (t.locate dist d lc terrain).operator = (operatorFix d).or t.operator := by
  rw [locate, operatorFix]
  cases d.position with
  | none => cases d.operator <;> rfl
  | some q =>
    dsimp only
    rw [addPosition_eq]
    cases d.operator <;> rfl

theorem absorb_current :
    (t.absorb dist d seen now weight lc terrain).current =
      (d.position.map (fixOf d terrain)).or t.current := by
  rw [absorb]
  dsimp only [updateState]
  rw [locate_current, count_eq]

theorem absorb_operator :
    (t.absorb dist d seen now weight lc terrain).operator = (operatorFix d).or t.operator := by
  rw [absorb]
  dsimp only [updateState]
  rw [locate_operator, count_eq]

theorem addEvidence_lastSeen (cls sensorKind k : String) (x : GoTime) :
    ((t.addEvidence cls sensorKind weight x).evidence.get k).map (·.lastSeen) =
      if k = cls then some x else (t.evidence.get k).map (·.lastSeen) := by
  rw [addEvidence]
  dsimp only [recomputeConfidence]
  rw [GoMap.get_put]
  split <;> rfl

/-- The clock of a receiver that has just heard something. -/
def heardAt (r : Option Receiver) (x : GoTime) : GoTime := max ((r.map (·.lastSeen)).getD 0) x

theorem noteReceiver_lastSeen (k : String) :
    ((t.noteReceiver d).receivers.get k).map (·.lastSeen) =
      if k = d.sensorID ∧ k ≠ "" then some (heardAt (t.receivers.get k) d.ts)
      else (t.receivers.get k).map (·.lastSeen) := by
  rw [noteReceiver]
  by_cases hid : d.sensorID = ""
  · rw [if_pos hid, if_neg]
    rintro ⟨rfl, hne⟩
    exact hne hid
  · rw [if_neg hid]
    dsimp only
    rw [GoMap.get_put]
    by_cases hk : k = d.sensorID
    · subst hk
      rw [if_pos rfl, if_pos (show d.sensorID = d.sensorID ∧ d.sensorID ≠ "" from ⟨rfl, hid⟩),
        heardAt, max_def_lt]
      cases t.receivers.get d.sensorID <;> rfl
    · rw [if_neg hk, if_neg fun h ↦ hk h.1]

/-! ### A run -/

variable (cfg : Config)

theorem Kept.blank (n : ℕ) : Kept [] (blank cfg d seen n) where
  lastSeen := .start 0
  evidence _ := rfl
  receivers _ _ h := by cases h
  received _ h := absurd h List.not_mem_nil
  current _ h := by cases h
  operator := rfl

/-- The clock of a receiver, after one more detection. -/
theorem Kept.heard {ds : List Detection} {t : Track} (h : Kept ds t) (d : Detection)
    (hid : d.sensorID ≠ "") :
    Clock Detection.ts (·.sensorID = d.sensorID) 0 (d :: ds)
      (heardAt (t.receivers.get d.sensorID) d.ts) := by
  rw [heardAt]
  rcases hget : t.receivers.get d.sensorID with _ | r
  · refine Clock.cons ⟨le_rfl, fun a ha hp ↦ ?_, .inl rfl⟩ d rfl
    obtain ⟨r, hr⟩ := h.received a ha (hp ▸ hid)
    rw [hp, hget] at hr
    cases hr
  · exact (h.receivers _ r hget).2.2.cons d rfl

/-- Folding a detection in that is not from the future. -/
theorem Kept.absorbed {ds : List Detection} {t : Track} (h : Kept ds t) {d : Detection}
    (hnow : d.ts ≤ now) : Kept (d :: ds) (absorbed cfg d (d.seen now) now terrain t) := by
  have hseen : d.seen now = d.ts := if_neg (not_lt.mpr hnow)
  rw [TrackStore.absorbed, hseen]
  refine ⟨?_, fun cls ↦ ?_, fun id r hr ↦ ?_, fun d' hd' hid ↦ ?_, fun d' hd' ↦ ?_, ?_⟩
  · rw [absorb_lastSeen]
    exact h.lastSeen.cons d trivial
  · rw [absorb_evidence, addEvidence_lastSeen, last_cons, h.evidence]
    by_cases hcls : cls = d.detectionClass
    · rw [if_pos hcls, if_pos hcls.symm]
      rfl
    · rw [if_neg hcls, if_neg (Ne.symm hcls)]
  · have hlast := congrArg (Option.map (·.lastSeen)) hr
    rw [absorb_receivers, noteReceiver_lastSeen, Option.map_some] at hlast
    by_cases hid : id = d.sensorID ∧ id ≠ ""
    · obtain ⟨rfl, hid⟩ := hid
      rw [if_pos ⟨rfl, hid⟩] at hlast
      exact ⟨⟨d, List.mem_cons_self, rfl⟩, hid, Option.some.inj hlast ▸ h.heard d hid⟩
    · rw [if_neg hid] at hlast
      obtain ⟨r', hget, heq⟩ := Option.map_eq_some_iff.mp hlast
      obtain ⟨⟨d', hd', heard⟩, hne, hclock⟩ := h.receivers id r' hget
      exact ⟨⟨d', List.mem_cons_of_mem _ hd', heard⟩, hne,
        heq ▸ hclock.skip fun heq ↦ hid ⟨heq.symm, hne⟩⟩
  · have hsome : ((t.noteReceiver d).receivers.get d'.sensorID).map (·.lastSeen) ≠ none := by
      rw [noteReceiver_lastSeen]
      split
      · exact Option.some_ne_none _
      · rename_i hother
        rcases List.mem_cons.mp hd' with rfl | hd'
        · exact absurd ⟨rfl, hid⟩ hother
        · obtain ⟨r, hr⟩ := h.received d' hd' hid
          rw [hr]
          exact Option.some_ne_none _
    rw [absorb_receivers]
    exact Option.ne_none_iff_exists'.mp fun hnone ↦ hsome (by rw [hnone]; rfl)
  · rw [absorb_current]
    rw [last_cons] at hd'
    rcases hpos : d.position with _ | q
    · rw [if_neg (by rw [hpos]; decide)] at hd'
      exact h.current d' hd'
    · rw [if_pos (by rw [hpos]; rfl)] at hd'
      obtain rfl := Option.some.inj hd'
      exact ⟨_, rfl, fixOf_isOf d terrain hpos⟩
  · rw [absorb_operator, last_cons, h.operator]
    rcases hop : d.operator with _ | o
    · have hfix : operatorFix d = none := by rw [operatorFix, hop]; rfl
      rw [hfix]
      rfl
    · have hfix : operatorFix d = some { lat := o.lat, lon := o.lon, atTime := d.ts } := by
        rw [operatorFix, hop]
        rfl
      rw [hfix, Option.some_or]
      exact hfix.symm

theorem Kept.rule : DeliveryRule cfg fun ys t ↦
    (∀ y ∈ ys, y.detection.ts ≤ y.now) → Kept (ys.map (·.detection)) t where
  blank d _ n _ := Kept.blank d _ cfg n
  absorbed ys t y ih hnow := by
    rw [List.forall_mem_cons] at hnow
    exact (ih hnow.2).absorbed _ _ _ hnow.1
  serial _ _ _ ih hnow := { ih hnow with }
  state _ _ _ ih hnow := { ih hnow with }
  flag _ _ _ ih hnow := { ih hnow with }

/-! ## What it takes -/

variable {ds : List Detection} {t : Track}

theorem Position.IsOf.atTime {p : Position} {d : Detection} (h : p.IsOf d) : p.atTime = d.ts := by
  obtain ⟨q, -, -, -, -, hat⟩ := h
  exact hat

theorem Kept.current_iff (h : Kept ds t) (hdistinct : (ds.map (·.ts)).Nodup) :
    (∀ d, Newest (·.ts) (fun d : Detection ↦ d.position.isSome) ds d →
      ∃ p, t.current = some p ∧ p.IsOf d) ↔
      InOrder Detection.ts (fun d ↦ d.position.isSome) ds := by
  refine shows_newest_iff h.current (fun a b ⟨p, hp, hof⟩ ⟨p', hp', hof'⟩ ↦ ?_) hdistinct
  obtain rfl := Option.some.inj (hp.symm.trans hp')
  exact hof.atTime.symm.trans hof'.atTime

theorem Kept.operator_iff (h : Kept ds t) (hdistinct : (ds.map (·.ts)).Nodup) :
    (∀ d, Newest (·.ts) (fun d : Detection ↦ d.operator.isSome) ds d →
      d.operator.isSome ∧ t.operator = operatorFix d) ↔
      InOrder Detection.ts (fun d ↦ d.operator.isSome) ds := by
  refine shows_newest_iff (fun d hd ↦ ⟨(mem_of_last hd).2, ?_⟩)
    (fun a b ⟨ha, heq⟩ ⟨hb, heq'⟩ ↦ ?_) hdistinct
  · rw [h.operator, hd, Option.bind_some]
  · obtain ⟨o, ho⟩ := Option.isSome_iff_exists.mp ha
    obtain ⟨o', ho'⟩ := Option.isSome_iff_exists.mp hb
    rw [heq, operatorFix, operatorFix, ho, ho'] at heq'
    exact congrArg Position.atTime (Option.some.inj heq')

theorem Kept.evidence_iff (h : Kept ds t) :
    (∀ cls e, t.evidence.get cls = some e →
      IsGreatest {x | ∃ d ∈ ds, d.detectionClass = cls ∧ d.ts = x} e.lastSeen) ↔
      ∀ cls, InOrder Detection.ts (·.detectionClass = cls) ds := by
  constructor
  · intro hright cls d hd d' hd' hcls
    have hevidence := h.evidence cls
    rw [hd] at hevidence
    obtain ⟨e, he, hts⟩ := Option.map_eq_some_iff.mp hevidence
    have hle : d'.ts ≤ e.lastSeen := (hright cls e he).2 ⟨d', hd', hcls, rfl⟩
    exact hle.trans_eq hts
  · intro horder cls e he
    have hevidence := h.evidence cls
    rw [he] at hevidence
    obtain ⟨d, hd, hts⟩ := Option.map_eq_some_iff.mp hevidence.symm
    obtain ⟨hmem, hcls⟩ := mem_of_last hd
    refine ⟨⟨d, hmem, hcls, hts⟩, fun x ⟨d', hd', hcls', hx⟩ ↦ ?_⟩
    rw [← hx]
    exact (horder cls d hd d' hd' hcls').trans_eq hts

theorem Kept.receivers_iff (h : Kept ds t) :
    (∀ id r, t.receivers.get id = some r →
      IsGreatest {x | ∃ d ∈ ds, d.sensorID = id ∧ d.ts = x} r.lastSeen) ↔
      ∀ d ∈ ds, d.sensorID ≠ "" → ∃ d' ∈ ds, d'.sensorID = d.sensorID ∧ 0 ≤ d'.ts := by
  constructor
  · intro hright d hd hid
    obtain ⟨r, hr⟩ := h.received d hd hid
    exact (h.receivers _ r hr).2.2.isGreatest_iff.mp (hright _ r hr)
  · intro hstarted id r hr
    obtain ⟨⟨d, hd, rfl⟩, hne, hclock⟩ := h.receivers id r hr
    exact hclock.isGreatest_iff.mpr (hstarted d hd hne)

/-- **When the clocks are right.**  They are exactly if of each class, of those with a position and
of those with the operator's the detection that was delivered last is the latest, and no clock has
only times to show from before its start. -/
theorem clocks_right_iff {tr : List (Machine.Step TrackStore Op)} {σ : TrackStore}
    (h : (storeMachine cfg).Run tr σ) {r : Ref} (hr : r < σ.next)
    (hnow : ∀ y ∈ delivered cfg tr r, y.detection.ts ≤ y.now)
    (hdistinct : ((folded cfg tr r).map (·.ts)).Nodup) :
    ClocksRight (folded cfg tr r) (σ.heap r) ↔ InTimeOrder (folded cfg tr r) := by
  have hkept : Kept (folded cfg tr r) (σ.heap r) :=
    folded_eq cfg tr r ▸ (Kept.rule cfg).run h r hr hnow
  constructor
  · rintro ⟨hlast, hevidence, hreceivers, hcurrent, hoperator⟩
    refine ⟨hkept.evidence_iff.mp hevidence, (hkept.current_iff hdistinct).mp hcurrent,
      (hkept.operator_iff hdistinct).mp fun d hd ↦ ⟨hd.kind, hoperator d hd⟩, ?_,
      hkept.receivers_iff.mp hreceivers⟩
    exact (hkept.lastSeen.isGreatest_iff.mp hlast).imp fun d hd ↦ ⟨hd.1, hd.2.2⟩
  · rintro ⟨hclasses, hpositions, hoperators, hstarted, hreceivers⟩
    exact ⟨hkept.lastSeen.isGreatest_iff.mpr (hstarted.imp fun d hd ↦ ⟨hd.1, trivial, hd.2⟩),
      hkept.evidence_iff.mpr hclasses, hkept.receivers_iff.mpr hreceivers,
      (hkept.current_iff hdistinct).mpr hpositions,
      fun d hd ↦ ((hkept.operator_iff hdistinct).mpr hoperators d hd).2⟩

/-- A take-off that is heard as it happens. -/
theorem takeOff_clocks_right :
    ClocksRight (folded defaultConfig (stepsOf defaultConfig (takeOff "S" "m")) 0)
      ((after defaultConfig (takeOff "S" "m")).heap 0) :=
  (clocks_right_iff defaultConfig (run_after (by decide)) (by decide)
    (by decide) (by decide)).mpr
    (.of_pairwise (by decide) (by decide) (by decide))

/-- **A detection that comes late takes the clock of its evidence and the live position back.** -/
theorem clocks_taken_back :
    let ops : List Op := [.ingestAt 5 ((heard "S" "m" 5).above 60),
      .ingestAt 6 ((heard "S" "m" 2).above 47)]
    let tr := stepsOf defaultConfig ops
    let t := (after defaultConfig ops).heap 0
    (storeMachine defaultConfig).Run tr (after defaultConfig ops) ∧
      (∀ y ∈ delivered defaultConfig tr 0, y.detection.ts ≤ y.now) ∧
      folded defaultConfig tr 0 = [(heard "S" "m" 2).above 47, (heard "S" "m" 5).above 60] ∧
      (t.evidence.get "A").map (·.lastSeen) = some (clock 2) ∧
      t.current.map (·.atTime) = some (clock 2) ∧
      ¬ClocksRight (folded defaultConfig tr 0) t := by
  intro ops tr t
  have hfolded : folded defaultConfig tr 0 =
      [(heard "S" "m" 2).above 47, (heard "S" "m" 5).above 60] := by decide
  have hevidence : (t.evidence.get "A").map (·.lastSeen) = some (clock 2) := by decide +kernel
  refine ⟨run_after (by decide), by decide +kernel, hfolded, hevidence,
    by decide +kernel, fun h ↦ ?_⟩
  obtain ⟨e, he, hlast⟩ := Option.map_eq_some_iff.mp hevidence
  have hle : clock 5 ≤ e.lastSeen := (h.evidence "A" e he).2
    ⟨(heard "S" "m" 5).above 60, by rw [hfolded]; simp, rfl, rfl⟩
  rw [hlast] at hle
  exact absurd hle (by decide)

end ClassG.Fusion
