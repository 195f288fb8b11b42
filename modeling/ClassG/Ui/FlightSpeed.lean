import Mathlib.Algebra.Order.Field.Basic
import Mathlib.Algebra.Order.Ring.Rat
import Mathlib.Tactic.Linarith
import Mathlib.Tactic.Ring

/-!
# Speeds along a flight

`pointSpeeds` of `features/tracks/flight-speed.ts`: a speed for each point of a path, as it was
reported or interpolated between two that were.  Numbers are rationals.

Nothing is to be interpolated across a silence, and `isGap` looks at neighbours in the path that both
have a timestamp.  `pointSpeeds_honest_iff` says when that is enough.

What `Date.parse` makes of a text is given, with `none` for `NaN`.
-/

set_option autoImplicit false

namespace ClassG.Ui

/-! ## Positions -/

/-- A `number`. -/
inductive JsNumber
  | finite (q : ℚ)
  /-- `NaN`, or infinite. -/
  | other
  deriving DecidableEq

/-- `Position`. -/
structure Position where
  lat : ℚ
  lon : ℚ
  heightAglM : Option JsNumber := none
  speedMps : Option JsNumber := none
  trackDeg : Option JsNumber := none
  /-- `at`. -/
  atText : Option String := none
  deriving DecidableEq

/-- `TRAIL_GAP_MS`. -/
def trailGapMs : ℤ := 30000

variable (dateParse : String → Option ℤ)

/-- `pointMs`. -/
def pointMs (p : Position) : Option ℤ :=
  match p.atText with
  | none => none
  | some s => if s = "" then none else dateParse s

/-- `reportedSpeed`. -/
def reportedSpeed (p : Position) : Option ℚ :=
  match p.speedMps with
  | some (.finite speed) => if 0 ≤ speed then some speed else none
  | _ => none

/-- `isGap`. -/
def isGap (p q : Position) : Bool :=
  match pointMs dateParse p, pointMs dateParse q with
  | some pMs, some qMs => trailGapMs < qMs - pMs
  | _, _ => false

/-! ## pointSpeeds -/

/-- A gap between the points `i` and `i + 1`. -/
def gapAt (path : List Position) (i : ℕ) : Bool :=
  match path[i]?, path[i + 1]? with
  | some p, some q => isGap dateParse p q
  | _, _ => false

/-- The weight of a point between two others. -/
def weight (path : List Position) (startMs : Option ℤ) (spanMs : ℤ) (startIndex endIndex i : ℕ) :
    ℚ :=
  let t := ((i : ℚ) - startIndex) / ((endIndex : ℚ) - startIndex)
  match startMs, path[i]? with
  | some s, some point =>
    if 0 < spanMs then
      match pointMs dateParse point with
      | some ms => ((ms : ℚ) - s) / spanMs
      | none => t
    else t
  | _, _ => t

/-- A gap anywhere from one point to another. -/
def gapBetween (path : List Position) (startIndex endIndex : ℕ) : Bool :=
  (List.range' startIndex (endIndex - startIndex)).any (gapAt dateParse path)

/-- `fillBetween`. -/
def fillBetween (path : List Position) (out : List (Option ℚ)) (startIndex endIndex : ℕ) :
    List (Option ℚ) :=
  if gapBetween dateParse path startIndex endIndex then out
  else
    match out[startIndex]?.join, out[endIndex]?.join, path[startIndex]?, path[endIndex]? with
    | some startValue, some endValue, some startPoint, some endPoint =>
      let startMs := pointMs dateParse startPoint
      let endMs := pointMs dateParse endPoint
      let spanMs := match startMs, endMs with
        | some s, some e => e - s
        | _, _ => 0
      (List.range' (startIndex + 1) (endIndex - startIndex - 1)).foldl (fun out i ↦
        let t := weight dateParse path startMs spanMs startIndex endIndex i
        out.set i (some (startValue + (endValue - startValue) * t))) out
    | _, _, _, _ => out

/-- A turn of the loop of `pointSpeeds`: `out` and `previousKnown`, which is `none` for `-1`. -/
def fillTurn (path : List Position) (reported : List (Option ℚ))
    (st : List (Option ℚ) × Option ℕ) (i : ℕ) : List (Option ℚ) × Option ℕ :=
  if reported[i]?.join = none then st
  else
    match st.2 with
    | some previousKnown =>
      (if 1 < i - previousKnown then fillBetween dateParse path st.1 previousKnown i else st.1,
        some i)
    | none => (st.1, some i)

/-- `pointSpeeds`. -/
def pointSpeeds (path : List Position) : List (Option ℚ) :=
  let reported := path.map reportedSpeed
  ((List.range path.length).foldl (fillTurn dateParse path reported) (reported, none)).1

/-! ## What is to hold of the speeds -/

section honest

variable (path : List Position)

/-- The speed that the point `i` reports. -/
def speedAt (i : ℕ) : Option ℚ := path[i]?.bind reportedSpeed

/-- The timestamp of the point `i`. -/
def msAt (i : ℕ) : Option ℤ := path[i]?.bind (pointMs dateParse)

/-- The points `a` and `b` report speeds, and those between them do not. -/
structure Neighbours (a b : ℕ) : Prop where
  lt : a < b
  first : (speedAt path a).isSome
  last : (speedAt path b).isSome
  none : ∀ i, a < i → i < b → speedAt path i = none

/-- The dated points from `a` to `b` leave a silence. -/
def Silence (a b : ℕ) : Prop :=
  ∃ i j s e, a ≤ i ∧ i ≤ b ∧ a ≤ j ∧ j ≤ b ∧ msAt dateParse path i = some s ∧
    msAt dateParse path j = some e ∧ trailGapMs < e - s ∧
      ∀ k ms, a ≤ k → k ≤ b → msAt dateParse path k = some ms → ms ≤ s ∨ e ≤ ms

/-- The speeds are honest: reported where there is one, and otherwise between the nearest that are,
if these are on both sides and there is no silence between them. -/
structure Honest (out : List (Option ℚ)) : Prop where
  length : out.length = path.length
  reported : ∀ i v, speedAt path i = some v → out[i]? = some (some v)
  before : ∀ i < path.length, (∀ j ≤ i, speedAt path j = none) → out[i]? = some none
  after : ∀ i < path.length, (∀ j, i ≤ j → speedAt path j = none) → out[i]? = some none
  between : ∀ a b i v va vb, Neighbours path a b → a < i → i < b → out[i]? = some (some v) →
    speedAt path a = some va → speedAt path b = some vb → min va vb ≤ v ∧ v ≤ max va vb
  silent : ∀ a b i, Neighbours path a b → a < i → i < b → Silence dateParse path a b →
    out[i]? = some none

/-- The timestamps between `a` and `b` are between theirs, if they have some and in order. -/
def Ordered (a b : ℕ) : Prop :=
  ∀ s e, msAt dateParse path a = some s → msAt dateParse path b = some e → s < e → ∀ i ms,
    a < i → i < b → msAt dateParse path i = some ms → s ≤ ms ∧ ms ≤ e

/-- What is there between two neighbours can be told from the points one after the other: a silence
shows between two of them, or there is none, and time goes on if the speed changes. -/
def Plain (a b : ℕ) : Prop :=
  (∃ i, a ≤ i ∧ i < b ∧ gapAt dateParse path i) ∨
    ¬Silence dateParse path a b ∧ (speedAt path a = speedAt path b ∨ Ordered dateParse path a b)

end honest

/-! ## What the loop makes -/

section loop

variable {dateParse} {path : List Position} {out : List (Option ℚ)} {a b i n : ℕ} {va vb : ℚ}

/-- The value of a point between two neighbours. -/
def fillValue (dateParse : String → Option ℤ) (path : List Position) (a b i : ℕ) (va vb : ℚ) : ℚ :=
  let spanMs := match msAt dateParse path a, msAt dateParse path b with
    | some s, some e => e - s
    | _, _ => 0
  va + (vb - va) * weight dateParse path (msAt dateParse path a) spanMs a b i

theorem lt_length_of_speedAt {v : ℚ} (h : speedAt path i = some v) : i < path.length := by
  by_contra hge
  rw [speedAt, List.getElem?_eq_none (not_lt.mp hge)] at h
  cases h

theorem gapBetween_iff : gapBetween dateParse path a b ↔
    ∃ i, a ≤ i ∧ i < b ∧ gapAt dateParse path i := by
  rw [gapBetween, List.any_eq_true]
  refine exists_congr fun i ↦ ?_
  rw [List.mem_range'_1, ← and_assoc]
  refine and_congr_left fun _ ↦ ⟨fun h ↦ ⟨h.1, by omega⟩, fun h ↦ ⟨h.1, by omega⟩⟩

theorem length_foldl_set (f : ℕ → ℚ) (is : List ℕ) (out : List (Option ℚ)) :
    (is.foldl (fun out i ↦ out.set i (some (f i))) out).length = out.length := by
  induction is generalizing out with
  | nil => rfl
  | cons i is ih => rw [List.foldl_cons, ih, List.length_set]

/-- The values are put in their places. -/
theorem getElem?_foldl_set (f : ℕ → ℚ) (m : ℕ) (out : List (Option ℚ)) (j : ℕ) :
    ((List.range' a m).foldl (fun out i ↦ out.set i (some (f i))) out)[j]? =
      if a ≤ j ∧ j < a + m ∧ j < out.length then some (some (f j)) else out[j]? := by
  induction m with
  | zero => rw [List.range'_zero, List.foldl_nil, if_neg (by omega)]
  | succ m ih =>
    rw [List.range'_1_concat, List.foldl_append, List.foldl_cons, List.foldl_nil, List.getElem?_set,
      length_foldl_set, ih]
    by_cases hj : a + m = j
    · subst hj
      by_cases hlen : a + m < out.length
      · rw [if_pos rfl, if_pos hlen, if_pos (by omega)]
      · rw [if_pos rfl, if_neg hlen, if_neg (by omega), List.getElem?_eq_none (by omega)]
    · rw [if_neg hj]
      refine ite_congr (propext ?_) (fun _ ↦ rfl) fun _ ↦ rfl
      omega

/-- **What is filled in between two neighbours.** -/
theorem getElem?_fillBetween (ha : out[a]? = some (some va)) (hb : out[b]? = some (some vb))
    (hpath : out.length = path.length) (j : ℕ) :
    (fillBetween dateParse path out a b)[j]? =
      if a < j ∧ j < b ∧ gapBetween dateParse path a b = false then
        some (some (fillValue dateParse path a b j va vb)) else out[j]? := by
  have halen := (List.getElem?_eq_some_iff.mp ha).1
  have hblen := (List.getElem?_eq_some_iff.mp hb).1
  rw [fillBetween]
  cases hgap : gapBetween dateParse path a b with
  | true => rw [if_pos rfl, if_neg fun h ↦ by cases h.2.2]
  | false =>
    have hpa := List.getElem?_eq_getElem (hpath ▸ halen)
    have hpb := List.getElem?_eq_getElem (hpath ▸ hblen)
    rw [if_neg (by simp), ha, hb, hpa, hpb]
    simp only [Option.join_some]
    rw [getElem?_foldl_set]
    refine ite_congr (propext ?_) (fun _ ↦ ?_) fun _ ↦ rfl
    · simp only [and_true]
      omega
    · simp only [fillValue, msAt, hpa, hpb, Option.bind_some]

theorem length_fillBetween : (fillBetween dateParse path out a b).length = out.length := by
  rw [fillBetween]
  split
  · rfl
  · split
    · exact length_foldl_set _ _ _
    · rfl

/-- What the loop has made when it comes to the point `n`. -/
structure Filled (dateParse : String → Option ℤ) (path : List Position) (n : ℕ)
    (st : List (Option ℚ) × Option ℕ) : Prop where
  length : st.1.length = path.length
  unknown : st.2 = none → ∀ j < n, speedAt path j = none
  known : ∀ k, st.2 = some k →
    k < n ∧ (speedAt path k).isSome ∧ ∀ j, k < j → j < n → speedAt path j = none
  reported : ∀ i v, speedAt path i = some v → st.1[i]? = some (some v)
  filled : ∀ a b i va vb, Neighbours path a b → b < n → a < i → i < b →
    speedAt path a = some va → speedAt path b = some vb → st.1[i]? =
      some (if gapBetween dateParse path a b then none
        else some (fillValue dateParse path a b i va vb))
  rest : ∀ i < path.length, speedAt path i = none →
    (∀ a b, Neighbours path a b → a < i → i < b → n ≤ b) → st.1[i]? = some none

theorem filled_zero : Filled dateParse path 0 (path.map reportedSpeed, none) := by
  have hmap (i : ℕ) (hi : i < path.length) :
      (path.map reportedSpeed)[i]? = some (speedAt path i) := by
    rw [List.getElem?_map, speedAt, List.getElem?_eq_getElem hi]
    rfl
  refine ⟨List.length_map _, fun _ j hj ↦ absurd hj (Nat.not_lt_zero j), ?_, fun i v hv ↦ ?_,
    fun a b i va vb _ hb ↦ absurd hb (Nat.not_lt_zero b), fun i hi hnone _ ↦ ?_⟩
  · rintro k ⟨⟩
  · rw [hmap i (lt_length_of_speedAt hv), hv]
  · rw [hmap i hi, hnone]

section turn

variable {st : List (Option ℚ) × Option ℕ} {v : ℚ}

theorem Filled.rest_succ (h : Filled dateParse path n st) (hi : i < path.length)
    (hnone : speedAt path i = none)
    (hall : ∀ a b, Neighbours path a b → a < i → i < b → n + 1 ≤ b) : st.1[i]? = some none :=
  h.rest i hi hnone fun a b hab ha hb ↦ (Nat.lt_of_succ_le (hall a b hab ha hb)).le

/-- A point that reports no speed is passed over. -/
theorem Filled.skip (h : Filled dateParse path n st) (hn : speedAt path n = none) :
    Filled dateParse path (n + 1) st := by
  have hlt {j : ℕ} (hj : j < n + 1) (hne : j ≠ n) : j < n := by omega
  have hne {j : ℕ} (hj : (speedAt path j).isSome) : j ≠ n := by
    rintro rfl
    rw [hn] at hj
    cases hj
  refine ⟨h.length, fun hst j hj ↦ ?_, fun k hk ↦ ?_, h.reported, fun a b i va vb hab hb ↦ ?_,
    fun i hi hnone hall ↦ h.rest_succ hi hnone hall⟩
  · by_cases hjn : j = n
    · rw [hjn, hn]
    · exact h.unknown hst j (hlt hj hjn)
  · obtain ⟨hkn, hk', hafter⟩ := h.known k hk
    refine ⟨by omega, hk', fun j hkj hj ↦ ?_⟩
    by_cases hjn : j = n
    · rw [hjn, hn]
    · exact hafter j hkj (hlt hj hjn)
  · exact h.filled a b i va vb hab (hlt hb (hne hab.last))

theorem known_succ (hn : speedAt path n = some v) (k : ℕ) (hk : some n = some k) :
    k < n + 1 ∧ (speedAt path k).isSome ∧ ∀ j, k < j → j < n + 1 → speedAt path j = none := by
  cases hk
  exact ⟨Nat.lt_succ_self n, by rw [hn]; rfl, fun j hnj hj ↦ by omega⟩

/-- The first point that reports a speed has none before it to fill in from. -/
theorem Filled.start (h : Filled dateParse path n st) (hn : speedAt path n = some v)
    (hst : st.2 = none) : Filled dateParse path (n + 1) (st.1, some n) := by
  refine ⟨h.length, fun hst' ↦ (by cases hst'), known_succ hn, h.reported,
    fun a b i va vb hab hb ↦ ?_, fun i hi hnone hall ↦ h.rest_succ hi hnone hall⟩
  have ha := hab.first
  rw [h.unknown hst a (by have := hab.lt; omega)] at ha
  cases ha

/-- A later one has: the last before it. -/
theorem Filled.fill {k : ℕ} (h : Filled dateParse path n st) (hn : speedAt path n = some v)
    (hst : st.2 = some k) : Filled dateParse path (n + 1)
      (if 1 < n - k then fillBetween dateParse path st.1 k n else st.1, some n) := by
  obtain ⟨hkn, hk, hafter⟩ := h.known k hst
  obtain ⟨vk, hvk⟩ := Option.isSome_iff_exists.mp hk
  have hneighbours : Neighbours path k n := ⟨hkn, hk, by rw [hn]; rfl, hafter⟩
  -- What is reported before the point `n` is not reported after `k`.
  have hle {j : ℕ} (hj : (speedAt path j).isSome) (hjn : j < n) : j ≤ k := by
    by_contra hkj
    rw [hafter j (not_le.mp hkj) hjn] at hj
    cases hj
  have hlength : (if 1 < n - k then fillBetween dateParse path st.1 k n else st.1).length =
      path.length := by
    split
    · rw [length_fillBetween, h.length]
    · exact h.length
  have hout (j : ℕ) : (if 1 < n - k then fillBetween dateParse path st.1 k n else st.1)[j]? =
      if k < j ∧ j < n ∧ gapBetween dateParse path k n = false then
        some (some (fillValue dateParse path k n j vk v)) else st.1[j]? := by
    split
    · exact getElem?_fillBetween (h.reported k vk hvk) (h.reported n v hn) h.length j
    · rw [if_neg (by omega)]
  generalize (if 1 < n - k then fillBetween dateParse path st.1 k n else st.1) = out at hlength hout
  refine ⟨hlength, fun hst' ↦ (by cases hst'), known_succ hn, fun i w hw ↦ ?_,
    fun a b i va vb hab hb hai hib hva hvb ↦ ?_, fun i hi hnone hall ↦ ?_⟩ <;> dsimp only
  · rw [hout, if_neg, h.reported i w hw]
    rintro ⟨hki, hin, -⟩
    exact absurd (hle (by rw [hw]; rfl) hin) hki.not_ge
  · rw [hout]
    rcases (Nat.le_of_lt_succ hb).eq_or_lt with rfl | hbn
    · have hak : a = k := by
        refine (hle hab.first hab.lt).antisymm (not_lt.mp fun hlt ↦ ?_)
        rw [hab.none k hlt hkn] at hk
        cases hk
      subst hak
      cases hva.symm.trans hvk
      cases hvb.symm.trans hn
      cases hgap : gapBetween dateParse path a b with
      | true =>
        rw [if_neg (by simp), if_pos rfl]
        refine h.rest i (by have := lt_length_of_speedAt hn; omega) (hab.none i hai hib)
          fun a' b' hab' ha' hb' ↦ not_lt.mp fun hlt ↦ ?_
        have := hle hab'.last hlt
        omega
      | false => rw [if_pos ⟨hai, hib, rfl⟩, if_neg (by simp)]
    · have hbk := hle hab.last hbn
      rw [if_neg (by omega)]
      exact h.filled a b i va vb hab hbn hai hib hva hvb
  · rw [hout, if_neg]
    · exact h.rest_succ hi hnone hall
    · rintro ⟨hki, hin, -⟩
      exact absurd (hall k n hneighbours hki hin) (Nat.not_succ_le_self n)

/-- **A turn of the loop** fills in between the last point that reported a speed and the next. -/
theorem Filled.turn (h : Filled dateParse path n st) :
    Filled dateParse path (n + 1) (fillTurn dateParse path (path.map reportedSpeed) st n) := by
  have hreported : (path.map reportedSpeed)[n]?.join = speedAt path n := by
    rw [List.getElem?_map, speedAt]
    cases path[n]? <;> rfl
  rw [fillTurn, hreported]
  cases hn : speedAt path n with
  | none =>
    rw [if_pos rfl]
    exact h.skip hn
  | some v =>
    rw [if_neg (by simp)]
    cases hst : st.2 with
    | none => exact h.start hn hst
    | some k => exact h.fill hn hst

end turn

theorem filled_foldl (n : ℕ) : Filled dateParse path n
    ((List.range n).foldl (fillTurn dateParse path (path.map reportedSpeed))
      (path.map reportedSpeed, none)) := by
  induction n with
  | zero => exact filled_zero
  | succ n ih =>
    rw [List.range_succ, List.foldl_append, List.foldl_cons, List.foldl_nil]
    exact ih.turn

end loop

/-! ## When the speeds are honest -/

theorem lerp_mem_iff {va vb : ℚ} (h : va < vb) (t : ℚ) :
    va ≤ va + (vb - va) * t ∧ va + (vb - va) * t ≤ vb ↔ 0 ≤ t ∧ t ≤ 1 := by
  have hpos : 0 < vb - va := sub_pos.mpr h
  rw [le_add_iff_nonneg_right, mul_nonneg_iff_of_pos_left hpos, ← le_sub_iff_add_le',
    mul_le_iff_le_one_right hpos]

/-- A value on the line through two others is between them exactly as its place is. -/
theorem lerp_between_iff (va vb t : ℚ) :
    min va vb ≤ va + (vb - va) * t ∧ va + (vb - va) * t ≤ max va vb ↔
      va = vb ∨ 0 ≤ t ∧ t ≤ 1 := by
  rcases lt_trichotomy va vb with h | rfl | h
  · rw [min_eq_left h.le, max_eq_right h.le, or_iff_right h.ne, lerp_mem_iff h]
  · simp
  · have hturned : va + (vb - va) * t = vb + (va - vb) * (1 - t) := by ring
    rw [min_eq_right h.le, max_eq_left h.le, or_iff_right h.ne', hturned, lerp_mem_iff h]
    exact ⟨fun ⟨h0, h1⟩ ↦ ⟨by linarith, by linarith⟩, fun ⟨h0, h1⟩ ↦ ⟨by linarith, by linarith⟩⟩

section honest

variable {dateParse} {path : List Position} {a b i : ℕ}

/-- The weight, from the timestamps of the point and of a first one. -/
theorem weight_some (s spanMs : ℤ) : weight dateParse path (some s) spanMs a b i =
    if 0 < spanMs then
      match msAt dateParse path i with
      | some ms => ((ms : ℚ) - s) / spanMs
      | none => ((i : ℚ) - a) / ((b : ℚ) - a)
    else ((i : ℚ) - a) / ((b : ℚ) - a) := by
  unfold weight msAt
  cases path[i]? with
  | none => simp
  | some point => rfl

/-- The weight is in its place unless time is out of order. -/
theorem weight_between_iff (hai : a < i) (hib : i < b) :
    let spanMs := match msAt dateParse path a, msAt dateParse path b with
      | some s, some e => e - s
      | _, _ => 0
    (0 ≤ weight dateParse path (msAt dateParse path a) spanMs a b i ∧
      weight dateParse path (msAt dateParse path a) spanMs a b i ≤ 1) ↔
        ∀ s e ms, msAt dateParse path a = some s → msAt dateParse path b = some e → s < e →
          msAt dateParse path i = some ms → s ≤ ms ∧ ms ≤ e := by
  have hindex : 0 ≤ ((i : ℚ) - a) / ((b : ℚ) - a) ∧ ((i : ℚ) - a) / ((b : ℚ) - a) ≤ 1 := by
    have hai' : (a : ℚ) < i := by exact_mod_cast hai
    have hib' : (i : ℚ) < b := by exact_mod_cast hib
    refine ⟨div_nonneg (by linarith) (by linarith), (div_le_one (by linarith)).mpr (by linarith)⟩
  dsimp only
  cases hs : msAt dateParse path a with
  | none => exact iff_of_true hindex (by rintro s e ms ⟨⟩)
  | some s =>
    simp only [weight_some]
    cases he : msAt dateParse path b with
    | none => exact iff_of_true hindex (by rintro s e ms - ⟨⟩)
    | some e =>
      dsimp only
      cases hms : msAt dateParse path i with
      | none => exact iff_of_true (by split <;> exact hindex) (by rintro s e ms - - - ⟨⟩)
      | some ms =>
        dsimp only
        split
        · rename_i hspan
          have hspan' : (0 : ℚ) < ((e - s : ℤ) : ℚ) := by exact_mod_cast hspan
          rw [div_le_one hspan', le_div_iff₀ hspan', zero_mul, sub_nonneg, Int.cast_sub,
            sub_le_sub_iff_right, Int.cast_le, Int.cast_le]
          refine ⟨?_, fun h ↦ h s e ms rfl rfl (sub_pos.mp hspan) rfl⟩
          rintro h s' e' ms' ⟨⟩ ⟨⟩ - ⟨⟩
          exact h
        · rename_i hspan
          refine iff_of_true hindex ?_
          rintro s' e' ms' ⟨⟩ ⟨⟩ hlt
          exact absurd (sub_pos.mpr hlt) hspan

theorem fillValue_between_iff {va vb : ℚ} (hai : a < i) (hib : i < b) :
    min va vb ≤ fillValue dateParse path a b i va vb ∧
      fillValue dateParse path a b i va vb ≤ max va vb ↔
        va = vb ∨ ∀ s e ms, msAt dateParse path a = some s → msAt dateParse path b = some e →
          s < e → msAt dateParse path i = some ms → s ≤ ms ∧ ms ≤ e := by
  rw [fillValue, lerp_between_iff]
  exact or_congr_right (weight_between_iff hai hib)

/-- What `pointSpeeds` makes between two points that report speeds. -/
theorem getElem?_pointSpeeds {va vb : ℚ} (hab : Neighbours path a b) (hai : a < i) (hib : i < b)
    (hva : speedAt path a = some va) (hvb : speedAt path b = some vb) :
    (pointSpeeds dateParse path)[i]? = some (if gapBetween dateParse path a b then none
      else some (fillValue dateParse path a b i va vb)) :=
  (filled_foldl path.length).filled a b i va vb hab (lt_length_of_speedAt hvb) hai hib hva hvb

/-- **The speeds are honest** exactly if what lies between two points that report one can be told
from the points one after the other. -/
theorem pointSpeeds_honest_iff (dateParse : String → Option ℤ) (path : List Position) :
    Honest dateParse path (pointSpeeds dateParse path) ↔
      ∀ a b, Neighbours path a b → a + 1 < b → Plain dateParse path a b := by
  have hfilled : Filled dateParse path path.length (_, _) := filled_foldl path.length
  constructor
  · intro h a b hab hlt
    obtain ⟨va, hva⟩ := Option.isSome_iff_exists.mp hab.first
    obtain ⟨vb, hvb⟩ := Option.isSome_iff_exists.mp hab.last
    by_cases hgap : gapBetween dateParse path a b
    · exact .inl (gapBetween_iff.mp hgap)
    have hvalue {i : ℕ} (hai : a < i) (hib : i < b) : (pointSpeeds dateParse path)[i]? =
        some (some (fillValue dateParse path a b i va vb)) := by
      rw [getElem?_pointSpeeds hab hai hib hva hvb, if_neg hgap]
    refine .inr ⟨fun hsilence ↦ ?_, ?_⟩
    · have hsilent := h.silent a b (a + 1) hab (Nat.lt_succ_self a) hlt hsilence
      rw [hvalue (Nat.lt_succ_self a) hlt] at hsilent
      cases hsilent
    · by_cases heq : va = vb
      · exact .inl (by rw [hva, hvb, heq])
      · refine .inr fun s e hs he hse i ms hai hib hms ↦ ?_
        have hbetween := h.between a b i _ va vb hab hai hib (hvalue hai hib) hva hvb
        exact ((fillValue_between_iff hai hib).mp hbetween).resolve_left heq s e ms hs he hse hms
  · intro h
    have hplain {a b i : ℕ} (hab : Neighbours path a b) (hai : a < i) (hib : i < b) :=
      h a b hab (by omega)
    refine ⟨hfilled.length, hfilled.reported, fun i hi hnone ↦ ?_, fun i hi hnone ↦ ?_,
      fun a b i v va vb hab hai hib hv hva hvb ↦ ?_, fun a b i hab hai hib hsilence ↦ ?_⟩
    · refine hfilled.rest i hi (hnone i le_rfl) fun a b hab hai _ ↦ ?_
      have ha := hab.first
      rw [hnone a hai.le] at ha
      cases ha
    · refine hfilled.rest i hi (hnone i le_rfl) fun a b hab _ hib ↦ ?_
      have hb := hab.last
      rw [hnone b hib.le] at hb
      cases hb
    · rw [getElem?_pointSpeeds hab hai hib hva hvb] at hv
      split at hv
      · cases hv
      · rename_i hgap
        cases hv
        rcases hplain hab hai hib with hg | ⟨-, horder⟩
        · exact absurd (gapBetween_iff.mpr hg) hgap
        · refine (fillValue_between_iff hai hib).mpr (horder.imp (fun heq ↦ ?_) fun ho ↦ ?_)
          · rw [hva, hvb] at heq
            exact Option.some.inj heq
          · exact fun s e ms hs he hse hms ↦ ho s e hs he hse i ms hai hib hms
    · obtain ⟨va, hva⟩ := Option.isSome_iff_exists.mp hab.first
      obtain ⟨vb, hvb⟩ := Option.isSome_iff_exists.mp hab.last
      rcases hplain hab hai hib with hg | ⟨hno, -⟩
      · rw [getElem?_pointSpeeds hab hai hib hva hvb, if_pos (gapBetween_iff.mpr hg)]
      · exact absurd hsilence hno

/-! A silence that an undated point hides, and a point later than the two around it. -/

/-- `Date.parse`, at some texts. -/
def someDates (text : String) : Option ℤ :=
  if text = "2026-09-14T23:16:58.000Z" then some 1789427818000
  else if text = "2026-09-14T23:16:59.000Z" then some 1789427819000
  else if text = "2026-09-14T23:17:07.000Z" then some 1789427827000
  else if text = "2026-09-14T23:26:58.000Z" then some 1789428418000
  else none

def quietPath : List Position :=
  [{ lat := 51, lon := -1, speedMps := some (.finite 1), atText := some "2026-09-14T23:16:58.000Z" },
   { lat := 51, lon := -1 },
   { lat := 51, lon := -1, speedMps := some (.finite 9), atText := some "2026-09-14T23:26:58.000Z" }]

def disorderedPath : List Position :=
  [{ lat := 51, lon := -1, speedMps := some (.finite 0), atText := some "2026-09-14T23:16:58.000Z" },
   { lat := 51, lon := -1, atText := some "2026-09-14T23:17:07.000Z" },
   { lat := 51, lon := -1, speedMps := some (.finite 8), atText := some "2026-09-14T23:16:59.000Z" }]

theorem pointSpeeds_not_honest :
    (pointSpeeds someDates quietPath = [some 1, some 5, some 9] ∧
      ¬Honest someDates quietPath (pointSpeeds someDates quietPath)) ∧
    pointSpeeds someDates disorderedPath = [some 0, some 72, some 8] ∧
      ¬Honest someDates disorderedPath (pointSpeeds someDates disorderedPath) := by
  have hquiet : pointSpeeds someDates quietPath = [some 1, some 5, some 9] := by decide +kernel
  have hdisordered : pointSpeeds someDates disorderedPath = [some 0, some 72, some 8] := by
    decide +kernel
  have hnext (path : List Position) (h0 : (speedAt path 0).isSome) (h1 : speedAt path 1 = none)
      (h2 : (speedAt path 2).isSome) : Neighbours path 0 2 :=
    ⟨by decide, h0, h2, fun i hi hi' ↦ by rwa [show i = 1 by omega]⟩
  refine ⟨⟨hquiet, fun h ↦ ?_⟩, hdisordered, fun h ↦ ?_⟩
  · have hsilence : Silence someDates quietPath 0 2 := by
      refine ⟨0, 2, 1789427818000, 1789428418000, by decide, by decide, by decide, by decide,
        by decide, by decide, by decide, fun k ms _ hk hms ↦ ?_⟩
      obtain rfl | rfl | rfl : k = 0 ∨ k = 1 ∨ k = 2 := by omega
      · exact .inl (Option.some.inj (hms.symm.trans (by decide))).le
      · cases hms
      · exact .inr (Option.some.inj ((by decide : _ = some _).symm.trans hms)).le
    have := h.silent 0 2 1 (hnext _ (by decide) (by decide) (by decide))
      (by decide) (by decide) hsilence
    rw [hquiet] at this
    cases this
  · have := (h.between 0 2 1 72 0 8
      (hnext _ (by decide) (by decide) (by decide)) (by decide) (by decide)
      (by rw [hdisordered]; rfl) (by decide) (by decide)).2
    exact absurd this (by decide)

end honest

end ClassG.Ui
