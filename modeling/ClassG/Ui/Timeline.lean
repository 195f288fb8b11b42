import Mathlib.Data.Prod.Lex
import ClassG.Lanes
import ClassG.StableSort
import ClassG.Ui.Flight

/-!
# The timeline

`packLanes` of `features/timeline/lanes.ts`: each track of a window is a bar, and the bars are put into
lanes in the order in which the tracks start.  Numbers are rationals.

* `packLanes_eq`: the loop puts the bars into lanes as `Lanes.pack` does, each made longer by the gap.
* `packLanes_wellPacked`: each track of the window has its bar, the bars of a lane keep the gap, and
  there are no more lanes than there have to be.
-/

set_option autoImplicit false

namespace ClassG.Ui

/-! ## packLanes -/

structure TimelineWindow where
  startMs : ℚ
  endMs : ℚ

/-- `TimelineEvent`. -/
structure TimelineEvent where
  track : Flight
  fromMs : ℚ
  toMs : ℚ
  clippedStart : Bool
  clippedEnd : Bool
  lane : ℕ
  deriving DecidableEq

/-- `MIN_EVENT_MS`. -/
def minEventMs : ℚ := 60000

/-- A track and when it was first and last seen. -/
structure TimedTrack where
  track : Flight
  first : ℤ
  last : ℤ
  deriving DecidableEq

variable (dateParse : String → Option ℤ) (window : TimelineWindow) (gapMs : ℚ)

/-- The track with its times, if they can be parsed. -/
def timed (track : Flight) : Option TimedTrack := do
  let first ← dateParse track.firstSeen
  let last ← dateParse track.lastSeen
  return ⟨track, first, last⟩

/-- It is seen in the window. -/
def intersects (d : TimedTrack) : Bool := window.startMs ≤ d.last && d.first < window.endMs

/-- The tracks of the window, sorted by `a.first - b.first || a.last - b.last`. -/
def ordered (tracks : List Flight) : List TimedTrack :=
  sortOn (fun d ↦ toLex (d.first, d.last))
    ((tracks.filterMap (timed dateParse)).filter (intersects window))

def fromMs (d : TimedTrack) : ℚ := max d.first window.startMs

def toMs (d : TimedTrack) : ℚ := min (max d.last (fromMs window d + minEventMs)) window.endMs

/-- The bar of a track. -/
def eventAt (d : TimedTrack) (lane : ℕ) : TimelineEvent where
  track := d.track
  fromMs := fromMs window d
  toMs := toMs window d
  clippedStart := d.first < window.startMs
  clippedEnd := window.endMs < d.last
  lane := lane

/-- The loop of `packLanes`. -/
def packLoop : List ℚ → List TimedTrack → List TimelineEvent
  | _, [] => []
  | laneEnds, d :: rest =>
    match laneEnds.findIdx? fun stop ↦ stop + gapMs ≤ fromMs window d with
    | none => eventAt window d laneEnds.length :: packLoop (laneEnds ++ [toMs window d]) rest
    | some lane => eventAt window d lane :: packLoop (laneEnds.set lane (toMs window d)) rest

def packLanes (tracks : List Flight) : List TimelineEvent :=
  packLoop window gapMs [] (ordered dateParse window tracks)

/-- `laneCount`. -/
def laneCount (events : List TimelineEvent) : ℕ := events.foldl (fun m e ↦ max m (e.lane + 1)) 0

/-! ## The lanes -/

/-- The bar of a track stops when the gap after it is over. -/
def stopMs (d : TimedTrack) : ℚ := toMs window d + gapMs

variable {window gapMs}

/-- **The loop puts the bars into lanes**, with the end of the last bar of each lane at hand. -/
theorem packLoop_eq (lasts ds : List TimedTrack) :
    packLoop window gapMs (lasts.map (toMs window)) ds =
      (Lanes.pack (fromMs window) (stopMs window gapMs) lasts ds).map fun p ↦
        eventAt window p.1 p.2 := by
  induction ds generalizing lasts with
  | nil => rfl
  | cons d ds ih =>
    have hfind : (lasts.map (toMs window)).findIdx? (fun stop ↦ stop + gapMs ≤ fromMs window d) =
        lasts.findIdx? fun b ↦ stopMs window gapMs b ≤ fromMs window d :=
      List.findIdx?_map ..
    rw [packLoop, hfind, Lanes.pack, Lanes.place]
    rcases lasts.findIdx? fun b ↦ stopMs window gapMs b ≤ fromMs window d with _ | lane
    · have hends := ih (lasts ++ [d])
      rw [List.map_append, List.map_singleton] at hends
      simp only [List.length_map, hends, List.map_cons]
    · have hends := ih (lasts.set lane d)
      rw [List.map_set] at hends
      simp only [hends, List.map_cons]

theorem packLanes_eq (tracks : List Flight) :
    packLanes dateParse window gapMs tracks =
      (Lanes.pack (fromMs window) (stopMs window gapMs) [] (ordered dateParse window tracks)).map
        fun p ↦ eventAt window p.1 p.2 :=
  packLoop_eq [] _

/-! ## The bars -/

theorem mem_ordered {tracks : List Flight} {d : TimedTrack}
    (hd : d ∈ ordered dateParse window tracks) : intersects window d = true := by
  rw [ordered, mem_sortOn, List.mem_filter] at hd
  exact hd.2

theorem intersects_iff {d : TimedTrack} :
    intersects window d = true ↔ window.startMs ≤ d.last ∧ (d.first : ℚ) < window.endMs := by
  rw [intersects, Bool.and_eq_true, decide_eq_true_eq, decide_eq_true_eq]

/-- A bar has a width and lies in the window. -/
theorem bar_inWindow (hwindow : window.startMs < window.endMs) {d : TimedTrack}
    (hd : intersects window d = true) :
    window.startMs ≤ fromMs window d ∧ fromMs window d < toMs window d ∧
      toMs window d ≤ window.endMs := by
  have hfrom : fromMs window d < window.endMs := max_lt (intersects_iff.mp hd).2 hwindow
  have hmin : fromMs window d < fromMs window d + minEventMs := lt_add_of_pos_right _ (by decide)
  exact ⟨le_max_right _ _, lt_min (hmin.trans_le (le_max_right _ _)) hfrom, min_le_right _ _⟩

/-- The bars start in the order of the tracks, also where they are cut off. -/
theorem pairwise_fromMs (tracks : List Flight) :
    (ordered dateParse window tracks).Pairwise fun d d' ↦ fromMs window d ≤ fromMs window d' := by
  refine (pairwise_sortOn _ _).imp fun {d d'} hle ↦ ?_
  have hfirst : d.first ≤ d'.first := by
    rcases Prod.Lex.toLex_le_toLex.mp hle with hlt | ⟨heq, -⟩
    · exact hlt.le
    · exact heq.le
  exact max_le_max_right _ (Int.cast_le.mpr hfirst)

/-- The track has times, and they are in the window. -/
def shown (dateParse : String → Option ℤ) (window : TimelineWindow) (track : Flight) : Bool :=
  (timed dateParse track).any (intersects window)

theorem timed_track {track : Flight} {d : TimedTrack} (h : timed dateParse track = some d) :
    d.track = track := by
  obtain ⟨first, -, h⟩ := Option.bind_eq_some_iff.mp h
  obtain ⟨last, -, h⟩ := Option.bind_eq_some_iff.mp h
  exact congrArg TimedTrack.track (Option.some.inj h).symm

theorem map_track_filter (tracks : List Flight) :
    ((tracks.filterMap (timed dateParse)).filter (intersects window)).map TimedTrack.track =
      tracks.filter (shown dateParse window) := by
  induction tracks with
  | nil => rfl
  | cons track tracks ih =>
    rcases h : timed dateParse track with _ | d
    · rw [List.filterMap_cons_none h, List.filter_cons_of_neg (by simp [shown, h]), ih]
    · rw [List.filterMap_cons_some h]
      by_cases hd : intersects window d = true
      · rw [List.filter_cons_of_pos hd, List.map_cons, ih, timed_track dateParse h,
          List.filter_cons_of_pos (by simp [shown, h, hd])]
      · rw [List.filter_cons_of_neg hd, List.filter_cons_of_neg (by simp [shown, h, hd]), ih]

/-! ## What is drawn -/

/-- How many bars there are at a time, each made longer by the gap. -/
def overlap (gapMs : ℚ) (events : List TimelineEvent) (x : ℚ) : ℕ :=
  events.countP fun e ↦ e.fromMs ≤ x ∧ x < e.toMs + gapMs

/-- The bars are those of the tracks of the window, and they are in as few lanes as they fit in. -/
structure WellPacked (dateParse : String → Option ℤ) (window : TimelineWindow) (gapMs : ℚ)
    (tracks : List Flight) (events : List TimelineEvent) : Prop where
  tracks : (events.map TimelineEvent.track).Perm (tracks.filter (shown dateParse window))
  inWindow : ∀ e ∈ events,
    window.startMs ≤ e.fromMs ∧ e.fromMs < e.toMs ∧ e.toMs ≤ window.endMs
  apart : events.Pairwise fun e e' ↦ e.lane = e'.lane → e.toMs + gapMs ≤ e'.fromMs
  lanes : IsGreatest (Set.range (overlap gapMs events)) (laneCount events)

theorem overlap_map (l : List (TimedTrack × ℕ)) :
    overlap gapMs (l.map fun p ↦ eventAt window p.1 p.2) =
      Lanes.crowd (fromMs window) (stopMs window gapMs) l :=
  funext fun _ ↦ List.countP_map

theorem laneCount_map (l : List (TimedTrack × ℕ)) :
    laneCount (l.map fun p ↦ eventAt window p.1 p.2) = Lanes.laneCount l :=
  List.foldl_map

/-- **The timeline is packed well**, whatever the tracks are. -/
theorem packLanes_wellPacked (tracks : List Flight) (hwindow : window.startMs < window.endMs)
    (hgap : 0 ≤ gapMs) :
    WellPacked dateParse window gapMs tracks (packLanes dateParse window gapMs tracks) := by
  have hbar : ∀ d ∈ ordered dateParse window tracks,
      window.startMs ≤ fromMs window d ∧ fromMs window d < toMs window d ∧
        toMs window d ≤ window.endMs :=
    fun d hd ↦ bar_inWindow hwindow (mem_ordered dateParse hd)
  have hfst := Lanes.pack_fst (fromMs window) (stopMs window gapMs) []
    (ordered dateParse window tracks)
  obtain ⟨lasts, hpacked⟩ := (Lanes.Packed.nil (fromMs window) (stopMs window gapMs)).pack
    (by simp) (pairwise_fromMs dateParse tracks) fun d hd ↦
      (hbar d hd).2.1.trans_le (le_add_of_nonneg_right hgap)
  rw [List.nil_append] at hpacked
  rw [packLanes_eq]
  constructor
  · have htracks := congrArg (List.map TimedTrack.track) hfst
    rw [List.map_map] at htracks ⊢
    refine (List.Perm.of_eq htracks).trans ?_
    rw [← map_track_filter, ordered]
    exact (sortOn_perm _ _).map _
  · intro e he
    obtain ⟨p, hp, rfl⟩ := List.mem_map.mp he
    exact hbar p.1 (hfst ▸ List.mem_map_of_mem hp)
  · exact List.pairwise_map.mpr hpacked.disjoint
  · rw [overlap_map, laneCount_map]
    exact hpacked.isGreatest

/-! Two flights, one from the moment at which the other ends. -/

/-- What `Date.parse` makes of a few texts. -/
def afternoon (text : String) : Option ℤ :=
  if text = "2026-08-11T12:00:00.000Z" then some 1786449600000
  else if text = "2026-08-11T13:00:00.000Z" then some 1786453200000
  else if text = "2026-08-11T14:00:00.000Z" then some 1786456800000
  else none

def touchingFlights : List Flight :=
  [{ trackId := "a", firstSeen := "2026-08-11T12:00:00.000Z", lastSeen := "2026-08-11T13:00:00.000Z" },
   { trackId := "b", firstSeen := "2026-08-11T13:00:00.000Z", lastSeen := "2026-08-11T14:00:00.000Z" }]

theorem packLanes_wellPacked_touching :
    touchingFlights.filter (shown afternoon ⟨1786449600000, 1786471200000⟩) = touchingFlights ∧
      WellPacked afternoon ⟨1786449600000, 1786471200000⟩ minEventMs touchingFlights
        (packLanes afternoon ⟨1786449600000, 1786471200000⟩ minEventMs touchingFlights) :=
  ⟨by decide, packLanes_wellPacked afternoon touchingFlights (by decide) (by decide)⟩

end ClassG.Ui
