import ClassG.Thinning
import ClassG.Fusion.History

/-!
# The trail of a flight

A position is put on the trail if it is far enough from the last one there, or late enough
(`Moved`), and the trail has room for `HistoryDepth` of them (`addPosition`).  `trail_thinned` is
what can be said of it for any positions in any order.

The trail is also what a returning aircraft is judged against: `resumes` takes its first point for
the point of take-off.  `takeoff_iff` says when that is so: until the trail is full.
-/

set_option autoImplicit false

namespace ClassG.Fusion

open Thinning Track TrackStore

variable (dist : DistanceFn) (lc : Lifecycle)

/-- The second position is far enough from the first to be recorded after it. -/
def Moved (q p : Position) : Prop :=
  ¬(0 < lc.historyMinMoveM ∧ dist q.lat q.lon p.lat p.lon < lc.historyMinMoveM ∧
    (GoTime.sub p.atTime q.atTime).abs < lc.historyMinInterval)

instance : DecidableRel (Moved dist lc) := fun _ _ ↦ inferInstanceAs (Decidable (¬_))

/-- The trail, after these positions. -/
def trail (t : Track) (ps : List Position) : List Position :=
  (ps.foldl (fun t p ↦ t.addPosition dist p lc) t).history

/-- The lifecycle, with room for any number of points. -/
def Lifecycle.unlimited : Lifecycle := { lc with historyDepth := 0 }

/-! ## One position -/

variable {dist lc}

theorem addPosition_repeats {t : Track} {p q : Position} (hq : t.history.getLast? = some q)
    (h : ¬Moved dist lc q p) : (t.addPosition dist p lc).history = t.history := by
  rw [Moved, not_not] at h
  rw [addPosition]
  dsimp only
  rw [hq]
  dsimp only
  rw [if_pos (decide_eq_true h)]

/-- What does not fit is cut off from the front. -/
theorem trim_eq (l : List Position) (depth : ℤ) :
    (if 0 < depth ∧ depth < l.length then l.drop (l.length - depth.toNat) else l) =
      if 0 < depth then l.rtake depth.toNat else l := by
  by_cases hdepth : 0 < depth
  · rw [if_pos hdepth, List.rtake]
    split
    · rfl
    · have hroom : l.length - depth.toNat = 0 := by omega
      rw [hroom, List.drop_zero]
  · rw [if_neg hdepth, if_neg fun h ↦ hdepth h.1]

theorem addPosition_moves {t : Track} {p : Position}
    (h : ∀ q, t.history.getLast? = some q → Moved dist lc q p) :
    (t.addPosition dist p lc).history =
      if 0 < lc.historyDepth then (t.history ++ [p]).rtake lc.historyDepth.toNat
      else t.history ++ [p] := by
  rw [addPosition, ← trim_eq]
  dsimp only
  rcases hq : t.history.getLast? with _ | q
  · dsimp only
    rw [if_neg Bool.false_ne_true]
    exact apply_ite Track.history ..
  · refine (congrArg Track.history (if_neg fun hrepeats ↦ ?_)).trans (apply_ite Track.history ..)
    exact h q hq (of_decide_eq_true hrepeats)

/-- With no room to run out of, a position is recorded or not. -/
theorem addPosition_unlimited (hdepth : ¬0 < lc.historyDepth) (t : Track) (p : Position) :
    (t.addPosition dist p lc).history = record (Moved dist lc) t.history p := by
  rw [record]
  rcases hq : t.history.getLast? with _ | q
  · have hmoves : ∀ q, t.history.getLast? = some q → Moved dist lc q p := by simp [hq]
    rw [addPosition_moves hmoves, if_neg hdepth]
  · by_cases hR : Moved dist lc q p
    · have hmoves : ∀ q, t.history.getLast? = some q → Moved dist lc q p := by simpa [hq] using hR
      rw [addPosition_moves hmoves, if_neg hdepth]
      exact (if_pos hR).symm
    · rw [addPosition_repeats hq hR]
      exact (if_neg hR).symm

/-- And otherwise the oldest drops out. -/
theorem addPosition_bounded (hdepth : 0 < lc.historyDepth) (t : Track) (p : Position) :
    (t.addPosition dist p lc).history =
      recordIn (Moved dist lc) lc.historyDepth.toNat t.history p := by
  rw [recordIn]
  rcases hq : t.history.getLast? with _ | q
  · have hmoves : ∀ q, t.history.getLast? = some q → Moved dist lc q p := by simp [hq]
    rw [addPosition_moves hmoves, if_pos hdepth]
  · by_cases hR : Moved dist lc q p
    · have hmoves : ∀ q, t.history.getLast? = some q → Moved dist lc q p := by simpa [hq] using hR
      rw [addPosition_moves hmoves, if_pos hdepth]
      exact (if_pos hR).symm
    · rw [addPosition_repeats hq hR]
      exact (if_neg hR).symm

/-! ## Any positions -/

theorem trail_unlimited (hdepth : ¬0 < lc.historyDepth) {t : Track} (ht : t.history = [])
    (ps : List Position) : trail dist lc t ps = ps.destutter (Moved dist lc) := by
  have hhom : ps.foldl (record (Moved dist lc)) t.history =
      (ps.foldl (fun t p ↦ t.addPosition dist p lc) t).history :=
    List.foldl_hom Track.history fun t p ↦ (addPosition_unlimited hdepth t p).symm
  rw [trail, ← hhom, ht, foldl_record]

theorem trail_bounded (hdepth : 0 < lc.historyDepth) {t : Track} (ht : t.history = [])
    (ps : List Position) :
    trail dist lc t ps = (ps.destutter (Moved dist lc)).rtake lc.historyDepth.toNat := by
  have hhom : ps.foldl (recordIn (Moved dist lc) lc.historyDepth.toNat) t.history =
      (ps.foldl (fun t p ↦ t.addPosition dist p lc) t).history :=
    List.foldl_hom Track.history fun t p ↦ (addPosition_bounded hdepth t p).symm
  rw [trail, ← hhom, ht, foldl_recordIn (by omega)]

theorem trail_eq_rtake (hdepth : 0 < lc.historyDepth) {t : Track} (ht : t.history = [])
    (ps : List Position) :
    trail dist lc t ps = (trail dist lc.unlimited t ps).rtake lc.historyDepth.toNat := by
  rw [trail_bounded hdepth ht, trail_unlimited (lt_irrefl _) ht]
  rfl

variable (dist lc) in
/-- The thinned trail of these positions. -/
structure Thinned (t : Track) (ps : List Position) : Prop where
  /-- It has no more than `HistoryDepth` points, -/
  length_le : ((trail dist lc t ps).length : ℤ) ≤ lc.historyDepth
  /-- which are among the positions, in the order they came. -/
  sublist : (trail dist lc t ps).Sublist ps
  /-- Consecutive ones are apart, in space or in time. -/
  apart : (trail dist lc t ps).IsChain fun q p ↦
    lc.historyMinMoveM ≤ dist q.lat q.lon p.lat p.lon ∨
      lc.historyMinInterval ≤ |p.atTime - q.atTime|
  /-- A position that is not recorded is close to the last one that was, in both. -/
  skipped : ∀ before p, before ++ [p] <+: ps →
    trail dist lc.unlimited t (before ++ [p]) = trail dist lc.unlimited t before ++ [p] ∨
    trail dist lc.unlimited t (before ++ [p]) = trail dist lc.unlimited t before ∧
      ∃ q, (trail dist lc t before).getLast? = some q ∧
        dist q.lat q.lon p.lat p.lon < lc.historyMinMoveM ∧
        |p.atTime - q.atTime| < lc.historyMinInterval
  /-- And it is the end of the trail there would be with room for any number of points. -/
  eq_rtake : trail dist lc t ps = (trail dist lc.unlimited t ps).rtake lc.historyDepth.toNat

theorem not_moved_iff (hmove : 0 < lc.historyMinMoveM)
    (hinterval : lc.historyMinInterval ≤ GoDuration.maxDuration) {q p : Position} :
    ¬Moved dist lc q p ↔ dist q.lat q.lon p.lat p.lon < lc.historyMinMoveM ∧
      |p.atTime - q.atTime| < lc.historyMinInterval := by
  rw [Moved, not_not, GoTime.abs_sub_lt_iff hinterval]
  exact and_iff_right hmove

/-- **Thinning loses nothing beyond its thresholds.** -/
theorem trail_thinned {t : Track} (ht : t.history = []) (hmove : 0 < lc.historyMinMoveM)
    (hdepth : 0 < lc.historyDepth) (hinterval : lc.historyMinInterval ≤ GoDuration.maxDuration)
    (ps : List Position) : Thinned dist lc t ps where
  length_le := by
    rw [trail_bounded hdepth ht]
    have hle := length_rtake_le (n := lc.historyDepth.toNat)
      (l := ps.destutter (Moved dist lc))
    omega
  sublist := by
    rw [trail_bounded hdepth ht]
    exact rtake_suffix.sublist.trans (List.destutter_sublist _ ps)
  apart := by
    rw [trail_bounded hdepth ht]
    refine ((List.isChain_destutter _ ps).suffix rtake_suffix).imp fun q p hmoved ↦ ?_
    by_contra hnear
    rw [not_or, not_le, not_le] at hnear
    exact (not_moved_iff hmove hinterval).mpr hnear hmoved
  skipped before p _ := by
    have hsame : ∀ ps, trail dist lc.unlimited t ps = ps.destutter (Moved dist lc) := fun ps ↦
      trail_unlimited (lt_irrefl _) ht ps
    rw [hsame, hsame, destutter_concat]
    rcases record_cases (R := Moved dist lc) (l := before.destutter (Moved dist lc)) (p := p)
      with hrecorded | ⟨hskipped, q, hq, hnear⟩
    · exact .inl hrecorded
    · refine .inr ⟨hskipped, q, ?_, (not_moved_iff hmove hinterval).mp hnear⟩
      rw [trail_bounded hdepth ht, getLast?_rtake (by omega), hq]
  eq_rtake := trail_eq_rtake hdepth ht ps

/-- A trail with room for one point. -/
theorem one_point_thinned :
    Thinned defaultConfig.horizontalDistanceM { defaultLifecycle with historyDepth := 1 } default
      [⟨46, -122, some 47, none, none, none, none, clock 9⟩,
        ⟨46, -122, some 48, none, none, none, none, clock 8⟩,
        ⟨47, -122, some 49, none, none, none, none, clock 3⟩] :=
  trail_thinned rfl (by decide) (by decide) (by decide) _

/-! ## The point of take-off -/

variable (cfg : Config)

/-- The positions a track has been given, in the order they came. -/
def fixes (ys : List Delivery) : List Position :=
  ys.reverse.filterMap fun y ↦ y.detection.position.map (fixOf y.detection y.terrain)

/-- Every position ever recorded on it. -/
def wholeTrail (ys : List Delivery) : List Position :=
  (fixes ys).destutter (Moved cfg.horizontalDistanceM cfg.lifecycle)

theorem fixes_cons (y : Delivery) (ys : List Delivery) :
    fixes (y :: ys) =
      fixes ys ++ (y.detection.position.map (fixOf y.detection y.terrain)).toList := by
  rw [fixes, List.reverse_cons, List.filterMap_append, ← fixes]
  rcases hpos : y.detection.position with _ | q <;> simp [hpos]

theorem locate_history (t : Track) (d : Detection) (terrain : TerrainResolver) :
    (t.locate dist d lc terrain).history =
      match d.position with
      | some q => (t.addPosition dist (fixOf d terrain q) lc).history
      | none => t.history := by
  rw [locate]
  cases d.position <;> cases d.operator <;> rfl

theorem addPosition_history_congr {t t' : Track} (h : t.history = t'.history) (p : Position) :
    (t.addPosition dist p lc).history = (t'.addPosition dist p lc).history := by
  by_cases hdepth : 0 < lc.historyDepth
  · rw [addPosition_bounded hdepth, addPosition_bounded hdepth, h]
  · rw [addPosition_unlimited hdepth, addPosition_unlimited hdepth, h]

theorem absorb_history (t : Track) (d : Detection) (seen now : GoTime) (weight : ℚ)
    (terrain : TerrainResolver) :
    (t.absorb dist d seen now weight lc terrain).history =
      match d.position with
      | some q => (t.addPosition dist (fixOf d terrain q) lc).history
      | none => t.history := by
  rw [absorb]
  dsimp only [updateState]
  rw [locate_history, count_eq]
  rcases d.position with _ | q
  · rfl
  · dsimp only
    refine addPosition_history_congr ?_ _
    rfl

theorem trail_rule (hdepth : 0 < cfg.lifecycle.historyDepth) : DeliveryRule cfg fun ys t ↦
    t.history = (wholeTrail cfg ys).rtake cfg.lifecycle.historyDepth.toNat where
  blank _ _ _ := (List.rtake_nil _).symm
  absorbed ys t y h := by
    rw [absorbed, absorb_history, wholeTrail, fixes_cons]
    rcases y.detection.position with _ | q
    · exact h.trans (by rw [Option.map_none, Option.toList_none, List.append_nil, wholeTrail])
    · rw [Option.map_some, Option.toList_some, destutter_concat]
      dsimp only
      rw [addPosition_bounded hdepth, h, recordIn_rtake (by omega), wholeTrail]
  serial _ _ _ h := h
  state _ _ _ h := h
  flag _ _ _ h := h

variable {cfg}

/-- Only the first point of the trail matters to a return. -/
theorem resumes_congr {t : Track} {whole : List Position} (h : t.history.head? = whole.head?)
    (d : Detection) (seen : GoTime) :
    resumes cfg t d seen = resumes cfg { t with history := whole } d seen := by
  rw [resumes, resumes]
  dsimp only
  generalize t.history = history at h
  cases d.position with
  | none => rfl
  | some p =>
    rcases history with _ | ⟨q, l⟩ <;> rcases whole with _ | ⟨q', l'⟩
    · rfl
    · cases h
    · cases h
    · obtain rfl := Option.some.inj h
      rfl

variable (cfg) in
/-- **When a return is judged against the point of take-off.**  The first point of the trail is the
first position the track was given exactly as long as no more than `HistoryDepth` points have been
recorded, or by coincidence; and then any detection resumes the flight that would do so with the
whole of the trail on record. -/
theorem takeoff_iff (hdepth : 0 < cfg.lifecycle.historyDepth)
    {tr : List (Machine.Step TrackStore Op)} {σ : TrackStore} (h : (storeMachine cfg).Run tr σ)
    {r : Ref} (hr : r < σ.next) :
    let ys := delivered cfg tr r
    let depth := cfg.lifecycle.historyDepth.toNat
    let whole := wholeTrail cfg ys
    ((σ.heap r).history.head? = (fixes ys).head? ∧ ∀ d seen,
      resumes cfg (σ.heap r) d seen = resumes cfg { σ.heap r with history := whole } d seen) ↔
      whole.length ≤ depth ∨ whole[whole.length - depth]? = whole.head? := by
  intro ys depth whole
  have htrail : (σ.heap r).history = whole.rtake depth := (trail_rule cfg hdepth).run h r hr
  have hfirst : whole.head? = (fixes ys).head? := head?_destutter _
  have hhead : (σ.heap r).history.head? = whole[whole.length - depth]? := by
    rw [htrail, List.rtake, List.head?_drop]
  constructor
  · rintro ⟨htakeoff, -⟩
    exact .inr (hhead.symm.trans (htakeoff.trans hfirst.symm))
  · intro hcond
    have hsame : (σ.heap r).history.head? = whole.head? := by
      rw [hhead]
      rcases hcond with hle | hsame
      · rw [Nat.sub_eq_zero_of_le hle, List.head?_eq_getElem?]
      · exact hsame
    exact ⟨hsame.trans hfirst, resumes_congr hsame⟩

/-- A store with room for two points on a trail. -/
def twoPoints : Config :=
  { defaultConfig with lifecycle := { defaultLifecycle with historyDepth := 2 } }

/-- A take-off, with two points on its trail. -/
theorem takeOff_takeoff :
    let tr := stepsOf twoPoints (takeOff "S" "m")
    let t := (after twoPoints (takeOff "S" "m")).heap 0
    t.history.head? = (fixes (delivered twoPoints tr 0)).head? ∧ ∀ d seen,
      resumes twoPoints t d seen =
        resumes twoPoints { t with history := wholeTrail twoPoints (delivered twoPoints tr 0) }
          d seen :=
  (takeoff_iff twoPoints (by decide) (run_after (by decide)) (by decide)).mpr
    (.inl (by decide +kernel))

/-- **A full trail has lost its take-off.**  An aircraft takes off at 47 m and is heard at 60 and
at 61 m; then it is out of range for longer than `CloseAfter` and comes back at 90 m.  That is
more than `ResumeMinClimbM` over its take-off, and no longer over the first point of its trail. -/
theorem takeoff_lost :
    let ops := takeOff "S" "m" ++ [.ingestAt 8 ((heard "S" "m" 8).above 61)]
    let σ := after twoPoints ops
    let back := (heard "S" "m" 500).above 90
    (storeMachine twoPoints).Run (stepsOf twoPoints ops) σ ∧
      (σ.heap 0).history.head?.map (·.altGeodeticM) = some (some 60) ∧
      (fixes (delivered twoPoints (stepsOf twoPoints ops) 0)).head?.map (·.altGeodeticM) =
        some (some 47) ∧
      resumes twoPoints (σ.heap 0) back (clock 500) = false ∧
      resumes twoPoints
        { σ.heap 0 with
          history := wholeTrail twoPoints (delivered twoPoints (stepsOf twoPoints ops) 0) }
        back (clock 500) = true ∧
      (σ.ingest twoPoints back (clock 500) fun _ _ _ ↦ none).2 = some 1 :=
  ⟨run_after (by decide), by decide +kernel, by decide +kernel, by decide +kernel,
    by decide +kernel, by decide +kernel⟩

end ClassG.Fusion
