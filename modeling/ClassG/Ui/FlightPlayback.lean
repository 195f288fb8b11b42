import ClassG.StableSort
import ClassG.Ui.FlightSpeed
import Mathlib.Data.Rat.Floor
import Mathlib.Tactic.LinearCombination

/-!
# Playback of a flight

`frameAt` of `features/tracks/flight-playback.ts`: where the aircraft was at an instant, from the
dated points of its path in the order of time, which a binary search goes through.

The frame shows the point that was found, and the index is where that stands among the dated points
in the order of time, not in the path.  `frameAt_shows_iff` says when the two are the same, and when
`heard` is right.
-/

set_option autoImplicit false

namespace ClassG.Ui

/-! ## Frames -/

/-- `PlaybackFrame`. -/
structure PlaybackFrame where
  lat : ℚ
  lon : ℚ
  heightAglM : Option JsNumber
  speedMps : Option JsNumber
  trackDeg : Option JsNumber
  atMs : ℚ
  /-- Index of the path point at or before `atMs`. -/
  index : ℕ
  heard : Bool
  deriving DecidableEq

def lerp (a b t : ℚ) : ℚ := a + (b - a) * t

/-- `x % m`, which has the sign of `x`. -/
def remainder (x m : ℚ) : ℚ := if 0 ≤ x then x - m * ⌊x / m⌋ else x - m * ⌈x / m⌉

/-- `lerpDegrees`.  What is not finite has no remainder. -/
def lerpDegrees (a b : JsNumber) (t : ℚ) : JsNumber :=
  match a, b with
  | .finite a, .finite b =>
    let delta := remainder (b - a + 540) 360 - 180
    .finite (remainder (a + delta * t + 360) 360)
  | _, _ => .other

def finiteOnly : Option JsNumber → Option ℚ
  | some (.finite q) => some q
  | _ => none

/-- `optionalLerp`. -/
def optionalLerp (a b : Option JsNumber) (t : ℚ) : Option JsNumber :=
  match finiteOnly a, finiteOnly b with
  | some a, some b => some (.finite (lerp a b t))
  | some a, none => some (.finite a)
  | none, b => b.map .finite

/-- `Dated`. -/
structure Dated where
  position : Position
  ms : ℤ
  deriving DecidableEq

/-- `frameOf`. -/
def frameOf (position : Position) (atMs : ℚ) (index : ℕ) (heard : Bool) : PlaybackFrame where
  lat := position.lat
  lon := position.lon
  heightAglM := position.heightAglM
  speedMps := position.speedMps
  trackDeg := position.trackDeg
  atMs := atMs
  index := index
  heard := heard

/-- The frame between two points. -/
def frameBetween (a b : Dated) (atMs : ℚ) (index : ℕ) : PlaybackFrame :=
  let span : ℤ := b.ms - a.ms
  let t := if 0 < span then (atMs - a.ms) / span else 0
  { lat := lerp a.position.lat b.position.lat t
    lon := lerp a.position.lon b.position.lon t
    heightAglM := optionalLerp a.position.heightAglM b.position.heightAglM t
    speedMps := optionalLerp a.position.speedMps b.position.speedMps t
    trackDeg := match a.position.trackDeg, b.position.trackDeg with
      | some d, some d' => some (lerpDegrees d d' t)
      | some d, none => some d
      | none, d' => d'
    atMs := atMs
    index := index
    heard := true }

/-! ## frameAt -/

variable (dateParse : String → Option ℤ)

/-- A point with its timestamp, if it has one. -/
def toDated (position : Position) : Option Dated :=
  (pointMs dateParse position).map fun ms ↦ ⟨position, ms⟩

/-- `datedPoints`. -/
def datedPoints (path : List Position) : List Dated :=
  sortOn Dated.ms (path.filterMap (toDated dateParse))

/-- The search of `frameAt`. -/
def search (dated : List Dated) (atMs : ℚ) (lo hi : ℕ) : ℕ × ℕ :=
  if 1 < hi - lo then
    match dated[(lo + hi) / 2]? with
    | none => (lo, hi)
    | some entry =>
      if entry.ms ≤ atMs then search dated atMs ((lo + hi) / 2) hi
      else search dated atMs lo ((lo + hi) / 2)
  else (lo, hi)
termination_by hi - lo

/-- `frameAt`. -/
def frameAt (path : List Position) (atMs : ℚ) : Option PlaybackFrame :=
  let dated := datedPoints dateParse path
  match dated[0]?, dated[dated.length - 1]? with
  | some first, some last =>
    if atMs ≤ first.ms then some (frameOf first.position first.ms 0 true)
    else if last.ms ≤ atMs then some (frameOf last.position last.ms (dated.length - 1) true)
    else
      let (lo, hi) := search dated atMs 0 (dated.length - 1)
      match dated[lo]?, dated[hi]? with
      | some a, some b =>
        if trailGapMs < b.ms - a.ms then some (frameOf a.position atMs lo false)
        else some (frameBetween a b atMs lo)
      | _, _ => none
  | _, _ => none

/-! ## What a frame is to show -/

section shows

variable (path : List Position) (t : ℚ)

/-- The point `i` has the greatest timestamp that is not after `t`. -/
def Latest (i : ℕ) (s : ℤ) : Prop :=
  msAt dateParse path i = some s ∧ s ≤ t ∧
    ∀ (j : ℕ) (ms : ℤ), msAt dateParse path j = some ms → ms ≤ t → ms ≤ s

/-- Timestamps of the path, with none between them. -/
structure Consecutive (s e : ℤ) : Prop where
  first : ∃ i, msAt dateParse path i = some s
  last : ∃ i, msAt dateParse path i = some e
  lt : s < e
  none : ∀ (i : ℕ) (ms : ℤ), msAt dateParse path i = some ms → ms ≤ s ∨ e ≤ ms

/-- The first point of the path with a timestamp. -/
def FirstAt (j : ℕ) (e : ℤ) : Prop :=
  msAt dateParse path j = some e ∧ ∀ j', msAt dateParse path j' = some e → j ≤ j'

/-- **What a frame is to show**: the last point heard, or a place on the way to the next, and whether
that is a guess. -/
structure Shows (f : PlaybackFrame) : Prop where
  latest : ∃ s, Latest dateParse path t f.index s
  moving : ∀ p (s e : ℤ) j q, path[f.index]? = some p → pointMs dateParse p = some s →
    Consecutive dateParse path s e → e - s ≤ trailGapMs → FirstAt dateParse path j e →
      path[j]? = some q → f.lat = lerp p.lat q.lat ((t - s) / (e - s)) ∧
        f.lon = lerp p.lon q.lon ((t - s) / (e - s))
  held : ∀ p (s : ℤ), path[f.index]? = some p → pointMs dateParse p = some s →
    (∀ e, Consecutive dateParse path s e → trailGapMs < e - s) → f.lat = p.lat ∧ f.lon = p.lon
  heard : f.heard = false ↔
    ∃ s e : ℤ, Consecutive dateParse path s e ∧ trailGapMs < e - s ∧ s < t ∧ t < e

/-- The instant is among those of the path. -/
def Within : Prop := (∃ (i : ℕ) (s : ℤ), msAt dateParse path i = some s ∧ s ≤ t) ∧
  ∃ (i : ℕ) (e : ℤ), msAt dateParse path i = some e ∧ t ≤ e

/-- There is a point before `t`. -/
def started : Bool := path.any fun p ↦ (pointMs dateParse p).any fun ms : ℤ ↦ ms < t

/-- The points that are not after `t`. -/
def countUpTo : ℕ := path.countP fun p ↦ (pointMs dateParse p).any fun ms : ℤ ↦ ms ≤ t

/-- How many points come before the one to show at `t`, in the order of time. -/
def rank : ℕ := if started dateParse path t then countUpTo dateParse path t - 1 else 0

/-- Of the points with the greatest timestamp that is not after `t`, the last in the path; the first,
where none is before `t`. -/
def Fix (i : ℕ) (s : ℤ) : Prop := Latest dateParse path t i s ∧
  (started dateParse path t → ∀ j, Latest dateParse path t j s → j ≤ i) ∧
  (¬started dateParse path t → ∀ j, Latest dateParse path t j s → i ≤ j)

/-- The point at `t` has as many before it in the path as in the order of time, or there is one like
it in that place. -/
def InPlace : Prop := ∃ (i : ℕ) (s : ℤ) (p q : Position), Fix dateParse path t i s ∧
  path[i]? = some p ∧ path[rank dateParse path t]? = some q ∧ pointMs dateParse q = some s ∧
    q.lat = p.lat ∧ q.lon = p.lon

/-- A silence starts at `t`, and `t` is not the start. -/
def SilenceStarts : Prop := started dateParse path t ∧
  ∃ s e : ℤ, Consecutive dateParse path s e ∧ trailGapMs < e - s ∧ t = s

end shows

/-! ## The points in the order of time -/

section dated

variable {dateParse} {path : List Position} {t : ℚ} {d : Dated} {i k : ℕ} {s : ℤ}

theorem toDated_eq_some_iff {p : Position} : toDated dateParse p = some d ↔
    p = d.position ∧ pointMs dateParse p = some d.ms := by
  rw [toDated, Option.map_eq_some_iff]
  constructor
  · rintro ⟨ms, hms, rfl⟩
    exact ⟨rfl, hms⟩
  · rintro ⟨rfl, hms⟩
    exact ⟨d.ms, hms, rfl⟩

theorem msAt_eq_some_iff : msAt dateParse path i = some s ↔
    ∃ p, path[i]? = some p ∧ pointMs dateParse p = some s := Option.bind_eq_some_iff

theorem started_iff : started dateParse path t ↔
    ∃ (i : ℕ) (s : ℤ), msAt dateParse path i = some s ∧ s < t := by
  simp only [started, List.any_eq_true, Option.any_eq_true, decide_eq_true_eq, msAt_eq_some_iff]
  constructor
  · rintro ⟨p, hp, s, hs, hlt⟩
    obtain ⟨i, hi⟩ := List.mem_iff_getElem?.mp hp
    exact ⟨i, s, ⟨p, hi, hs⟩, hlt⟩
  · rintro ⟨i, s, ⟨p, hi, hs⟩, hlt⟩
    exact ⟨p, List.mem_of_getElem? hi, s, hs, hlt⟩

/-- Every timestamp has its place. -/
theorem exists_getElem?_datedPoints (h : msAt dateParse path i = some s) :
    ∃ (k : ℕ) (d : Dated), (datedPoints dateParse path)[k]? = some d ∧ d.ms = s := by
  obtain ⟨p, hp, hs⟩ := msAt_eq_some_iff.mp h
  have hmem : (⟨p, s⟩ : Dated) ∈ datedPoints dateParse path :=
    mem_sortOn.mpr (List.mem_filterMap.mpr
      ⟨p, List.mem_of_getElem? hp, toDated_eq_some_iff.mpr ⟨rfl, hs⟩⟩)
  obtain ⟨k, hk⟩ := List.mem_iff_getElem?.mp hmem
  exact ⟨k, _, hk, rfl⟩

theorem first_of_dated (hk : (datedPoints dateParse path)[k]? = some d)
    (hbefore : ∀ i < k, ∀ b, (datedPoints dateParse path)[i]? = some b → b.ms < d.ms) :
    ∃ i, path[i]? = some d.position ∧ FirstAt dateParse path i d.ms := by
  obtain ⟨i, p, hi, hp, -, hfirst⟩ :=
    head?_filter_filterMap (getElem?_sortOn_first hk hbefore)
  obtain ⟨rfl, hms⟩ := toDated_eq_some_iff.mp hp
  refine ⟨i, hi, msAt_eq_some_iff.mpr ⟨_, hi, hms⟩, fun j hj ↦ ?_⟩
  obtain ⟨q, hq, hqms⟩ := msAt_eq_some_iff.mp hj
  exact hfirst j q ⟨q, d.ms⟩ hq (toDated_eq_some_iff.mpr ⟨rfl, hqms⟩) rfl

theorem last_of_dated (hk : (datedPoints dateParse path)[k]? = some d)
    (hafter : ∀ i, k < i → ∀ b, (datedPoints dateParse path)[i]? = some b → d.ms < b.ms) :
    ∃ i, path[i]? = some d.position ∧ msAt dateParse path i = some d.ms ∧
      ∀ j, msAt dateParse path j = some d.ms → j ≤ i := by
  obtain ⟨i, p, hi, hp, -, hlast⟩ :=
    getLast?_filter_filterMap (getElem?_sortOn_last hk hafter)
  obtain ⟨rfl, hms⟩ := toDated_eq_some_iff.mp hp
  refine ⟨i, hi, msAt_eq_some_iff.mpr ⟨_, hi, hms⟩, fun j hj ↦ ?_⟩
  obtain ⟨q, hq, hqms⟩ := msAt_eq_some_iff.mp hj
  exact hlast j q ⟨q, d.ms⟩ hq (toDated_eq_some_iff.mpr ⟨rfl, hqms⟩) rfl

theorem countUpTo_eq (hk : (datedPoints dateParse path)[k]? = some d) (hd : d.ms ≤ t)
    (hafter : ∀ i, k < i → ∀ b, (datedPoints dateParse path)[i]? = some b → t < b.ms) :
    countUpTo dateParse path t = k + 1 := by
  rw [← countP_sortOn (p := fun d ↦ decide ((d.ms : ℚ) ≤ t)) hk (fun i hi b hb ↦ ?_)
    fun i hi b hb ↦ ?_, List.countP_filterMap]
  · refine List.countP_congr fun p _ ↦ ?_
    cases hp : pointMs dateParse p <;> simp [toDated, hp]
  · have hle : (b.ms : ℚ) ≤ d.ms := by exact_mod_cast key_getElem_le hb hk hi
    exact decide_eq_true (hle.trans hd)
  · simpa using hafter i hi b hb

/-- **The search ends at two points next to each other**, one not after the instant and one after
it. -/
theorem search_spec {dated : List Dated} {lo hi : ℕ} {a b : Dated} (hlt : lo < hi)
    (hlo : dated[lo]? = some a) (ha : a.ms ≤ t) (hhi : dated[hi]? = some b) (hb : t < b.ms) :
    ∃ l a b, search dated t lo hi = (l, l + 1) ∧ dated[l]? = some a ∧ a.ms ≤ t ∧
      dated[l + 1]? = some b ∧ t < b.ms := by
  induction lo, hi using search.induct dated t generalizing a b with
  | case1 lo hi hspan hmid =>
    have hhilen := (List.getElem?_eq_some_iff.mp hhi).1
    have hmidlen := List.getElem?_eq_none_iff.mp hmid
    omega
  | case2 lo hi hspan entry hmid hentry ih =>
    rw [search, if_pos hspan, hmid]
    dsimp only
    rw [if_pos hentry]
    exact ih (by omega) hmid hentry hhi hb
  | case3 lo hi hspan entry hmid hentry ih =>
    rw [search, if_pos hspan, hmid]
    dsimp only
    rw [if_neg hentry]
    exact ih (by omega) hlo ha hmid (not_le.mp hentry)
  | case4 lo hi hspan =>
    obtain rfl : hi = lo + 1 := by omega
    rw [search, if_neg hspan]
    exact ⟨lo, a, b, rfl, hlo, ha, hhi, hb⟩

end dated

/-! ## What the frame shows -/

section reading

variable {dateParse} {path : List Position} {t : ℚ} {f : PlaybackFrame} {i j k : ℕ} {s s' e e' : ℤ}
  {p : Position} {a b d : Dated}

/-- What the frame at `t` shows, in terms of the path: the point `i`, or a place on the way from it to
the next. -/
structure Reading (dateParse : String → Option ℤ) (path : List Position) (t : ℚ) (f : PlaybackFrame)
    (i : ℕ) (s : ℤ) (p : Position) : Prop where
  fix : Fix dateParse path t i s
  point : path[i]? = some p
  index : f.index = rank dateParse path t
  moving : ∀ (e : ℤ) j q, Consecutive dateParse path s e → e - s ≤ trailGapMs →
    FirstAt dateParse path j e → path[j]? = some q →
      f.lat = lerp p.lat q.lat ((t - s) / (e - s)) ∧ f.lon = lerp p.lon q.lon ((t - s) / (e - s))
  held : (∀ e, Consecutive dateParse path s e → trailGapMs < e - s) → f.lat = p.lat ∧ f.lon = p.lon
  heard : f.heard = false ↔
    started dateParse path t ∧ ∃ e, Consecutive dateParse path s e ∧ trailGapMs < e - s

theorem lerp_zero (x y : ℚ) : lerp x y 0 = x := by
  rw [lerp, mul_zero, add_zero]

theorem Latest.unique (h : Latest dateParse path t i s) (h' : Latest dateParse path t j s') :
    s = s' := (h'.2.2 i s h.1 h.2.1).antisymm (h.2.2 j s' h'.1 h'.2.1)

theorem Consecutive.unique (h : Consecutive dateParse path s e)
    (h' : Consecutive dateParse path s e') : e = e' := by
  obtain ⟨i, hi⟩ := h.last
  obtain ⟨j, hj⟩ := h'.last
  exact ((h.none j e' hj).resolve_left h'.lt.not_ge).antisymm
    ((h'.none i e hi).resolve_left h.lt.not_ge)

/-- At the first instant, the first point. -/
theorem reading_first (hd : (datedPoints dateParse path)[0]? = some d) (ht : d.ms = t) :
    ∃ i, Reading dateParse path t (frameOf d.position d.ms 0 true) i d.ms d.position := by
  obtain ⟨i, hi, hfirst⟩ := first_of_dated hd fun i hi ↦ absurd hi (Nat.not_lt_zero i)
  have hstarted : ¬started dateParse path t := by
    rw [started_iff]
    rintro ⟨j, s, hs, hlt⟩
    obtain ⟨k, b, hk, rfl⟩ := exists_getElem?_datedPoints hs
    rw [← ht, Int.cast_lt] at hlt
    exact hlt.not_ge (key_getElem_le hd hk (Nat.zero_le k))
  refine ⟨i, ⟨⟨hfirst.1, ht.le, fun j ms _ hms ↦ ?_⟩, fun h ↦ absurd h hstarted,
    fun _ j hj ↦ hfirst.2 j hj.1⟩, hi, ?_, fun e j q _ _ _ _ ↦ ?_, fun _ ↦ ⟨rfl, rfl⟩, ?_⟩
  · rwa [← ht, Int.cast_le] at hms
  · rw [rank, if_neg hstarted]
    rfl
  · rw [ht, sub_self, zero_div, lerp_zero, lerp_zero]
    exact ⟨rfl, rfl⟩
  · exact iff_of_false (by simp [frameOf]) fun h ↦ hstarted h.1

/-- At the last, the last. -/
theorem reading_last (hd : (datedPoints dateParse path)[k]? = some d)
    (hk : k = (datedPoints dateParse path).length - 1) (hstarted : started dateParse path t)
    (ht : d.ms ≤ t) :
    ∃ i, Reading dateParse path t (frameOf d.position d.ms k true) i d.ms d.position := by
  have hafter (i : ℕ) (hi : k < i) : (datedPoints dateParse path)[i]? = none :=
    List.getElem?_eq_none (by omega)
  have hle {i : ℕ} {ms : ℤ} (h : msAt dateParse path i = some ms) : ms ≤ d.ms := by
    obtain ⟨j, b, hj, rfl⟩ := exists_getElem?_datedPoints h
    refine key_getElem_le hj hd (not_lt.mp fun hlt ↦ ?_)
    rw [hafter j hlt] at hj
    cases hj
  obtain ⟨i, hi, hms, hlast⟩ := last_of_dated hd fun i hi b hb ↦ by
    rw [hafter i hi] at hb
    cases hb
  refine ⟨i, ⟨⟨hms, ht, fun j ms hj _ ↦ hle hj⟩, fun _ j hj ↦ hlast j hj.1,
    fun h ↦ absurd hstarted h⟩, hi, ?_, fun e j q hce _ _ _ ↦ ?_, fun _ ↦ ⟨rfl, rfl⟩, ?_⟩
  · rw [rank, if_pos hstarted, countUpTo_eq hd ht fun i hi b hb ↦ by
      rw [hafter i hi] at hb
      cases hb]
    rfl
  · obtain ⟨j', hj'⟩ := hce.last
    exact absurd (hle hj') hce.lt.not_ge
  · refine iff_of_false (by simp [frameOf]) fun ⟨_, e, hce, _⟩ ↦ ?_
    obtain ⟨j', hj'⟩ := hce.last
    exact absurd (hle hj') hce.lt.not_ge

/-- Between two points, the first of them or the way to the second. -/
theorem reading_between (ha : (datedPoints dateParse path)[k]? = some a)
    (hb : (datedPoints dateParse path)[k + 1]? = some b) (hat : a.ms ≤ t) (htb : t < b.ms)
    (hstarted : started dateParse path t) : ∃ i, Reading dateParse path t
      (if trailGapMs < b.ms - a.ms then frameOf a.position t k false else frameBetween a b t k)
      i a.ms a.position := by
  have hlt : a.ms < b.ms := by exact_mod_cast hat.trans_lt htb
  have hafter (i : ℕ) (hi : k < i) (c : Dated) (hc : (datedPoints dateParse path)[i]? = some c) :
      b.ms ≤ c.ms := key_getElem_le hb hc hi
  have hbefore (i : ℕ) (hi : i < k + 1) (c : Dated)
      (hc : (datedPoints dateParse path)[i]? = some c) : c.ms ≤ a.ms :=
    key_getElem_le hc ha (Nat.le_of_lt_succ hi)
  have hapart (i : ℕ) (ms : ℤ) (h : msAt dateParse path i = some ms) : ms ≤ a.ms ∨ b.ms ≤ ms := by
    obtain ⟨j, c, hj, rfl⟩ := exists_getElem?_datedPoints h
    exact (Nat.lt_or_ge j (k + 1)).imp (hbefore j · c hj) (hafter j · c hj)
  obtain ⟨i, hi, hims, hlast⟩ := last_of_dated ha fun i hi c hc ↦ hlt.trans_le (hafter i hi c hc)
  obtain ⟨j, hj, hfirst⟩ := first_of_dated hb fun i hi c hc ↦ (hbefore i hi c hc).trans_lt hlt
  have hab : Consecutive dateParse path a.ms b.ms := ⟨⟨i, hims⟩, ⟨j, hfirst.1⟩, hlt, hapart⟩
  have hfix : Fix dateParse path t i a.ms := by
    refine ⟨⟨hims, hat, fun j ms hms hle ↦ ?_⟩, fun _ j hj ↦ hlast j hj.1,
      fun h ↦ absurd hstarted h⟩
    refine (hapart j ms hms).resolve_right fun hge ↦ ?_
    exact (hle.trans_lt htb).not_ge (by exact_mod_cast hge)
  have hrank : rank dateParse path t = k := by
    rw [rank, if_pos hstarted, countUpTo_eq ha hat fun i hi c hc ↦
      htb.trans_le (by exact_mod_cast hafter i hi c hc)]
    rfl
  refine ⟨i, ?_⟩
  split
  · rename_i hgap
    refine ⟨hfix, hi, hrank.symm, fun e j q hce hle _ _ ↦ ?_, fun _ ↦ ⟨rfl, rfl⟩,
      iff_of_true rfl ⟨hstarted, b.ms, hab, hgap⟩⟩
    rw [hce.unique hab] at hle
    exact absurd hgap hle.not_gt
  · rename_i hgap
    refine ⟨hfix, hi, hrank.symm, fun e j' q hce _ hj' hq ↦ ?_, fun h ↦ absurd (h b.ms hab) hgap,
      iff_of_false (by simp [frameBetween]) fun ⟨_, e, hce, hge⟩ ↦ hgap (hce.unique hab ▸ hge)⟩
    obtain rfl := hce.unique hab
    obtain rfl : j' = j := (hj'.2 j hfirst.1).antisymm (hfirst.2 j' hj'.1)
    cases hq.symm.trans hj
    have hspan : ((b.ms - a.ms : ℤ) : ℚ) = b.ms - a.ms := Int.cast_sub _ _
    simp only [frameBetween, if_pos (sub_pos.mpr hlt), hspan, and_self]

/-- **Within the path there is a frame**, and what it shows. -/
theorem frameAt_reading (h : Within dateParse path t) : ∃ f i s p,
    frameAt dateParse path t = some f ∧ Reading dateParse path t f i s p := by
  obtain ⟨⟨i, s, hs, hst⟩, j, e, he, hte⟩ := h
  obtain ⟨k, c, hk, rfl⟩ := exists_getElem?_datedPoints hs
  obtain ⟨m, d, hm, rfl⟩ := exists_getElem?_datedPoints he
  have hklen := (List.getElem?_eq_some_iff.mp hk).1
  obtain ⟨first, hfirst⟩ : ∃ first, (datedPoints dateParse path)[0]? = some first :=
    ⟨_, List.getElem?_eq_getElem (by omega)⟩
  obtain ⟨last, hlast⟩ : ∃ last,
      (datedPoints dateParse path)[(datedPoints dateParse path).length - 1]? = some last :=
    ⟨_, List.getElem?_eq_getElem (by omega)⟩
  rw [frameAt]
  dsimp only
  rw [hfirst, hlast]
  dsimp only
  have hfirstc : (first.ms : ℚ) ≤ t :=
    le_trans (by exact_mod_cast key_getElem_le hfirst hk (Nat.zero_le k)) hst
  split
  · rename_i hle
    obtain ⟨i, hi⟩ := reading_first hfirst (hfirstc.antisymm hle)
    exact ⟨_, i, _, _, rfl, hi⟩
  rename_i hgt
  have hstarted : started dateParse path t := by
    obtain ⟨i, hi, hms⟩ := first_of_dated hfirst fun i hi ↦ absurd hi (Nat.not_lt_zero i)
    exact started_iff.mpr ⟨i, first.ms, hms.1, not_le.mp hgt⟩
  split
  · rename_i hle
    obtain ⟨i, hi⟩ := reading_last hlast rfl hstarted hle
    exact ⟨_, i, _, _, rfl, hi⟩
  · rename_i hlt
    have hpos : 0 < (datedPoints dateParse path).length - 1 := by
      refine Nat.pos_of_ne_zero fun h0 ↦ ?_
      rw [h0] at hlast
      cases hfirst.symm.trans hlast
      exact hlt hfirstc
    obtain ⟨l, a, b, hsearch, ha, hat, hb, htb⟩ :=
      search_spec hpos hfirst hfirstc hlast (not_le.mp hlt)
    rw [hsearch]
    dsimp only
    rw [ha, hb]
    dsimp only
    obtain ⟨i, hi⟩ := reading_between ha hb hat htb hstarted
    refine ⟨_, i, _, _, ?_, hi⟩
    split <;> rfl

/-! ## When it is what was heard -/

theorem lerp_left_inj {x x' y r : ℚ} (hr : r < 1) : lerp x y r = lerp x' y r ↔ x = x' := by
  refine ⟨fun h ↦ ?_, fun h ↦ h ▸ rfl⟩
  have hzero : (x - x') * (1 - r) = 0 := by
    rw [lerp, lerp] at h
    linear_combination h
  exact sub_eq_zero.mp ((mul_eq_zero.mp hzero).resolve_right (sub_pos.mpr hr).ne')

theorem exists_firstAt (h : ∃ j, msAt dateParse path j = some e) : ∃ j q,
    FirstAt dateParse path j e ∧ path[j]? = some q := by
  obtain ⟨q, hq, -⟩ := msAt_eq_some_iff.mp (Nat.find_spec h)
  exact ⟨Nat.find h, q, ⟨Nat.find_spec h, fun j' hj' ↦ Nat.find_min' h hj'⟩, hq⟩

theorem Latest.lt_of_consecutive (h : Latest dateParse path t i s)
    (hce : Consecutive dateParse path s e) : t < e := by
  obtain ⟨j, hj⟩ := hce.last
  exact not_le.mp fun hle ↦ hce.lt.not_ge (h.2.2 j e hj hle)

/-- Between timestamps of the path, the last heard is the first of them. -/
theorem Latest.eq_of_consecutive (h : Latest dateParse path t i s)
    (hce : Consecutive dateParse path s' e) (hs : s' ≤ t) (he : t < e) : s = s' := by
  obtain ⟨j, hj⟩ := hce.first
  refine ((hce.none i s h.1).resolve_right fun hge ↦ ?_).antisymm (h.2.2 j s' hj hs)
  exact (h.2.1.trans_lt he).not_ge (by exact_mod_cast hge)

theorem Fix.unique (h : Fix dateParse path t i s) (h' : Fix dateParse path t j s') : i = j := by
  obtain rfl := h.1.unique h'.1
  by_cases hstarted : started dateParse path t
  · exact (h'.2.1 hstarted i h.1).antisymm (h.2.1 hstarted j h'.1)
  · exact (h.2.2 hstarted j h'.1).antisymm (h'.2.2 hstarted i h.1)

/-- What the point in its place is like. -/
theorem Reading.inPlace (h : Reading dateParse path t f i s p) (hf : Shows dateParse path t f) :
    InPlace dateParse path t := by
  obtain ⟨s', hlatest⟩ := hf.latest
  obtain rfl := h.fix.1.unique hlatest
  obtain ⟨q, hq, hqs⟩ := msAt_eq_some_iff.mp hlatest.1
  refine ⟨i, s, p, q, h.fix, h.point, h.index ▸ hq, hqs, ?_⟩
  by_cases hnext : ∃ e, Consecutive dateParse path s e ∧ e - s ≤ trailGapMs
  · obtain ⟨e, hce, hgap⟩ := hnext
    obtain ⟨j, r, hj, hr⟩ := exists_firstAt hce.last
    have hmoving := hf.moving q s e j r hq hqs hce hgap hj hr
    have hmoving' := h.moving e j r hce hgap hj hr
    have hlt : (t - s) / (e - s : ℚ) < 1 := by
      have hpos : (0 : ℚ) < e - s := sub_pos.mpr (by exact_mod_cast hce.lt)
      rw [div_lt_one hpos]
      exact sub_lt_sub_right (h.fix.1.lt_of_consecutive hce) _
    exact ⟨(lerp_left_inj hlt).mp (hmoving.1.symm.trans hmoving'.1),
      (lerp_left_inj hlt).mp (hmoving.2.symm.trans hmoving'.2)⟩
  · have hgap (e : ℤ) (hce : Consecutive dateParse path s e) : trailGapMs < e - s :=
      not_le.mp fun hle ↦ hnext ⟨e, hce, hle⟩
    have hheld := hf.held q s hq hqs hgap
    have hheld' := h.held hgap
    exact ⟨hheld.1.symm.trans hheld'.1, hheld.2.symm.trans hheld'.2⟩

/-- A silence that starts at the instant is taken for one that it is in. -/
theorem Reading.not_silenceStarts (h : Reading dateParse path t f i s p)
    (hf : Shows dateParse path t f) : ¬SilenceStarts dateParse path t := by
  rintro ⟨hstarted, s', e, hce, hgap, ht⟩
  have hte : t < e := ht ▸ by exact_mod_cast hce.lt
  obtain rfl := h.fix.1.eq_of_consecutive hce ht.ge hte
  obtain ⟨s₁, e₁, hce₁, -, hlt₁, hlt₁'⟩ := hf.heard.mp (h.heard.mpr ⟨hstarted, e, hce, hgap⟩)
  obtain rfl := h.fix.1.eq_of_consecutive hce₁ hlt₁.le hlt₁'
  exact hlt₁.ne' ht

theorem Reading.shows (h : Reading dateParse path t f i s p) (hplace : InPlace dateParse path t)
    (hstarts : ¬SilenceStarts dateParse path t) : Shows dateParse path t f := by
  obtain ⟨i', s', p', q, hfix, hp', hq, hqs, hlat, hlon⟩ := hplace
  obtain rfl := hfix.unique h.fix
  obtain rfl := hfix.1.unique h.fix.1
  cases hp'.symm.trans h.point
  rw [← h.index] at hq
  refine ⟨⟨s', msAt_eq_some_iff.mpr ⟨q, hq, hqs⟩, hfix.1.2⟩,
    fun q' s e j r hq' hqs' hce hgap hj hr ↦ ?_, fun q' s hq' hqs' hgap ↦ ?_,
    h.heard.trans ⟨fun ⟨hstarted, e, hce, hgap⟩ ↦ ?_, fun ⟨s, e, hce, hgap, hst, hte⟩ ↦ ?_⟩⟩
  · cases hq'.symm.trans hq
    cases hqs'.symm.trans hqs
    rw [hlat, hlon]
    exact h.moving e j r hce hgap hj hr
  · cases hq'.symm.trans hq
    cases hqs'.symm.trans hqs
    rw [hlat, hlon]
    exact h.held hgap
  · refine ⟨s', e, hce, hgap, hfix.1.2.1.lt_of_ne fun heq ↦ ?_, hfix.1.lt_of_consecutive hce⟩
    exact hstarts ⟨hstarted, s', e, hce, hgap, heq.symm⟩
  · obtain rfl := hfix.1.eq_of_consecutive hce hst.le hte
    exact ⟨started_iff.mpr ⟨_, _, hfix.1.1, hst⟩, e, hce, hgap⟩

/-- Where all points are dated and in the order of time, each has its place. -/
theorem inPlace_of_pairwise (hdated : ∀ i < path.length, (msAt dateParse path i).isSome)
    (horder : ∀ i j s e, i ≤ j → msAt dateParse path i = some s → msAt dateParse path j = some e →
      s ≤ e) (h : Within dateParse path t) : InPlace dateParse path t := by
  obtain ⟨f, i, s, p, -, hr⟩ := frameAt_reading h
  obtain ⟨hlatest, hlast, hfirst⟩ := hr.fix
  have hilt := (List.getElem?_eq_some_iff.mp hr.point).1
  have hrank : rank dateParse path t = i := by
    rw [rank]
    split
    · rename_i hstarted
      rw [countUpTo, countP_eq_succ hr.point (fun j hj q hq ↦ ?_) fun j hj q hq ↦ ?_]
      · rfl
      · obtain ⟨ms, hms⟩ := Option.isSome_iff_exists.mp (hdated j (by omega))
        have hle : (ms : ℚ) ≤ s := by exact_mod_cast horder j i ms s hj hms hlatest.1
        rw [msAt, hq, Option.bind_some] at hms
        rw [hms]
        simpa using hle.trans hlatest.2.1
      · intro hle
        rw [Option.any_eq_true] at hle
        obtain ⟨ms, hms, hle⟩ := hle
        have hj' : msAt dateParse path j = some ms := msAt_eq_some_iff.mpr ⟨q, hq, hms⟩
        obtain rfl := (hlatest.2.2 j ms hj' (of_decide_eq_true hle)).antisymm
          (horder i j s ms hj.le hlatest.1 hj')
        exact (hlast hstarted j ⟨hj', hlatest.2⟩).not_gt hj
    · rename_i hstarted
      obtain ⟨s₀, hs₀⟩ := Option.isSome_iff_exists.mp (hdated 0 (by omega))
      have hle := horder 0 i s₀ s (Nat.zero_le i) hs₀ hlatest.1
      have hle' : (s : ℚ) ≤ s₀ := hlatest.2.1.trans
        (not_lt.mp fun hlt ↦ hstarted (started_iff.mpr ⟨0, s₀, hs₀, hlt⟩))
      obtain rfl := hle.antisymm (by exact_mod_cast hle')
      exact (Nat.le_zero.mp (hfirst hstarted 0 ⟨hs₀, hlatest.2⟩)).symm
  obtain ⟨q, hq, hqs⟩ := msAt_eq_some_iff.mp hlatest.1
  cases hq.symm.trans hr.point
  exact ⟨i, s, p, p, hr.fix, hr.point, hrank.symm ▸ hr.point, hqs, rfl, rfl⟩

end reading

/-- **Playback shows what was heard** exactly if the point has its place in the path, and no silence
starts at the instant. -/
theorem frameAt_shows_iff (path : List Position) (t : ℚ) (h : Within dateParse path t) :
    (∃ f, frameAt dateParse path t = some f ∧ Shows dateParse path t f) ↔
      InPlace dateParse path t ∧ ¬SilenceStarts dateParse path t := by
  obtain ⟨f, i, s, p, hf, hreading⟩ := frameAt_reading h
  rw [hf]
  constructor
  · rintro ⟨_, ⟨⟩, hshows⟩
    exact ⟨hreading.inPlace hshows, hreading.not_silenceStarts hshows⟩
  · rintro ⟨hplace, hstarts⟩
    exact ⟨f, rfl, hreading.shows hplace hstarts⟩

section paths

theorem lt_length_of_msAt {path : List Position} {i : ℕ} {s : ℤ}
    (h : msAt dateParse path i = some s) : i < path.length := by
  obtain ⟨p, hp, -⟩ := msAt_eq_some_iff.mp h
  exact (List.getElem?_eq_some_iff.mp hp).1

def steadyPath : List Position :=
  [{ lat := 51, lon := -1, atText := some "2026-09-14T23:16:58.000Z" },
   { lat := 51, lon := -9/10, atText := some "2026-09-14T23:16:59.000Z" },
   { lat := 511/10, lon := -9/10, atText := some "2026-09-14T23:17:07.000Z" }]

theorem msAt_steadyPath {i : ℕ} {s : ℤ} (h : msAt someDates steadyPath i = some s) :
    i = 0 ∧ s = 1789427818000 ∨ i = 1 ∧ s = 1789427819000 ∨ i = 2 ∧ s = 1789427827000 := by
  have hi : i < 3 := lt_length_of_msAt someDates h
  obtain rfl | rfl | rfl : i = 0 ∨ i = 1 ∨ i = 2 := by omega
  · exact .inl ⟨rfl, Option.some.inj (h.symm.trans (by decide))⟩
  · exact .inr (.inl ⟨rfl, Option.some.inj (h.symm.trans (by decide))⟩)
  · exact .inr (.inr ⟨rfl, Option.some.inj (h.symm.trans (by decide))⟩)

/-- Half-way between two points. -/
theorem frameAt_shows_steadyPath : ∃ f, frameAt someDates steadyPath 1789427823000 = some f ∧
    Shows someDates steadyPath 1789427823000 f := by
  have hwithin : Within someDates steadyPath 1789427823000 :=
    ⟨⟨0, 1789427818000, by decide, by decide⟩, 2, 1789427827000, by decide, by decide⟩
  refine (frameAt_shows_iff someDates steadyPath _ hwithin).mpr
    ⟨inPlace_of_pairwise (fun i hi ↦ ?_) (fun i j s e hij hs he ↦ ?_) hwithin, ?_⟩
  · have hi' : i < 3 := hi
    obtain rfl | rfl | rfl : i = 0 ∨ i = 1 ∨ i = 2 := by omega
    all_goals decide
  · have := msAt_steadyPath hs
    have := msAt_steadyPath he
    omega
  · rintro ⟨-, s, e, hse, -, ht⟩
    obtain ⟨i, hi⟩ := hse.first
    have hs : s = 1789427823000 := by exact_mod_cast ht.symm
    have := msAt_steadyPath hi
    omega

/-! An undated point before the one shown, and a silence that starts at the instant. -/

def undatedPath : List Position :=
  [{ lat := 51, lon := -1, atText := some "2026-09-14T23:16:58.000Z" },
   { lat := 0, lon := 0 },
   { lat := 51, lon := -9/10, atText := some "2026-09-14T23:16:59.000Z" },
   { lat := 511/10, lon := -9/10, atText := some "2026-09-14T23:17:07.000Z" }]

def silencedPath : List Position :=
  [{ lat := 51, lon := -1, atText := some "2026-09-14T23:16:58.000Z" },
   { lat := 51, lon := -9/10, atText := some "2026-09-14T23:16:59.000Z" },
   { lat := 52, lon := -2, atText := some "2026-09-14T23:26:58.000Z" }]

theorem frameAt_not_shows :
    (∃ f, frameAt someDates undatedPath 1789427823000 = some f ∧
      f.index = 1 ∧ ¬Shows someDates undatedPath 1789427823000 f) ∧
    ∃ f, frameAt someDates silencedPath 1789427819000 = some f ∧
      f.heard = false ∧ ¬Shows someDates silencedPath 1789427819000 f := by
  constructor
  · have hwithin : Within someDates undatedPath 1789427823000 :=
      ⟨⟨0, 1789427818000, by decide, by decide⟩, 3, 1789427827000, by decide,
        by decide⟩
    obtain ⟨f, i, s, p, hf, hr⟩ := frameAt_reading hwithin
    have hindex : f.index = 1 := hr.index.trans (by decide)
    refine ⟨f, hf, hindex, fun h ↦ ?_⟩
    obtain ⟨s', hs', -⟩ := h.latest
    rw [hindex] at hs'
    cases hs'
  · have hms {i : ℕ} {s : ℤ} (h : msAt someDates silencedPath i = some s) :
        s ≤ 1789427819000 ∨ 1789428418000 ≤ s := by
      have hi : i < 3 := lt_length_of_msAt someDates h
      obtain rfl | rfl | rfl : i = 0 ∨ i = 1 ∨ i = 2 := by omega
      · have hs : s = 1789427818000 := Option.some.inj (h.symm.trans (by decide))
        omega
      · exact .inl (Option.some.inj (h.symm.trans (by decide))).le
      · exact .inr (Option.some.inj (h.symm.trans (by decide))).ge
    have hse : Consecutive someDates silencedPath 1789427819000 1789428418000 :=
      ⟨⟨1, by decide⟩, ⟨2, by decide⟩, by decide, fun i s h ↦ hms h⟩
    have hstarted : started someDates silencedPath 1789427819000 := by decide
    have hwithin : Within someDates silencedPath 1789427819000 :=
      ⟨⟨0, 1789427818000, by decide, by decide⟩, 2, 1789428418000, by decide,
        by decide⟩
    obtain ⟨f, i, s, p, hf, hr⟩ := frameAt_reading hwithin
    obtain rfl := hr.fix.1.eq_of_consecutive hse (by norm_num) (by norm_num)
    refine ⟨f, hf, hr.heard.mpr ⟨hstarted, _, hse, by decide⟩, fun h ↦ ?_⟩
    exact hr.not_silenceStarts h ⟨hstarted, _, _, hse, by decide, by norm_num⟩

end paths

end ClassG.Ui
