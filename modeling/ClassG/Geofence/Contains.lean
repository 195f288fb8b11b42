import Mathlib.Algebra.Order.Field.Basic
import Mathlib.Algebra.Order.Ring.Rat
import Mathlib.Tactic.FieldSimp
import Mathlib.Tactic.Linarith
import Mathlib.Tactic.Ring
import ClassG.ClosedWalk

/-!
# Inside a boundary

`Boundary.Contains` of `api/internal/geofence`: a point is inside a polygon if a ray from it crosses
the polygon an odd number of times.  The coordinates are rational numbers, and a division by zero has
no result.

* `contains_eq` — the answer is the parity of the edges that the ray crosses.
* `contains_encoding` — it depends on the polygon, and not on how its vertices are listed.
-/

set_option autoImplicit false

namespace ClassG.Geofence

open ClosedWalk

structure LatLon where
  lat : ℚ
  lon : ℚ
  deriving DecidableEq, Repr

/-- `x / y`. -/
def divide (x y : ℚ) : Option ℚ := if y = 0 then none else some (x / y)

/-- Whether the edge straddles the ray's latitude. -/
def straddles (lat : ℚ) (pi pj : LatLon) : Bool := decide (pi.lat > lat) != decide (pj.lat > lat)

/-- `crossLon`, the longitude where the edge crosses the ray's latitude. -/
def crossLon (lat : ℚ) (pi pj : LatLon) : Option ℚ := do
  let part ← divide (lat - pj.lat) (pi.lat - pj.lat)
  return pj.lon + part * (pi.lon - pj.lon)

/-- The loop of `Contains`, from the vertex that comes after `pj` on. -/
def containsLoop (lat lon : ℚ) : LatLon → List LatLon → Bool → Option Bool
  | _, [], inside => some inside
  | pj, pi :: rest, inside =>
    if straddles lat pi pj then do
      let cross ← crossLon lat pi pj
      containsLoop lat lon pi rest (if lon < cross then !inside else inside)
    else containsLoop lat lon pi rest inside

/-- `Contains`. -/
def contains (points : List LatLon) (lat lon : ℚ) : Option Bool :=
  match points.getLast? with
  | none => some false
  | some last => containsLoop lat lon last points false

/-! ## Edges -/

section edges

variable (lat lon : ℚ)

/-- Where the line through two vertices crosses a latitude. -/
def crossing (pj pi : LatLon) : ℚ :=
  pj.lon + (lat - pj.lat) / (pi.lat - pj.lat) * (pi.lon - pj.lon)

/-- The ray crosses the edge. -/
def crosses (e : LatLon × LatLon) : Bool :=
  straddles lat e.2 e.1 && decide (lon < crossing lat e.1 e.2)

variable {lat lon}

/-- The ends of an edge that straddles a latitude are on its two sides. -/
theorem straddles_iff {pi pj : LatLon} :
    straddles lat pi pj = true ↔
      pj.lat ≤ lat ∧ lat < pi.lat ∨ pi.lat ≤ lat ∧ lat < pj.lat := by
  rw [straddles, bne_iff_ne, ne_eq, decide_eq_decide, gt_iff_lt, gt_iff_lt, ← not_lt, ← not_lt]
  tauto

theorem lat_ne {pi pj : LatLon} (h : straddles lat pi pj = true) : pi.lat - pj.lat ≠ 0 := by
  rw [sub_ne_zero]
  intro heq
  rw [straddles_iff, heq] at h
  rcases h with h | h <;> exact absurd h.2 h.1.not_gt

/-- **The divisor is not zero.** -/
theorem crossLon_eq {pi pj : LatLon} (h : straddles lat pi pj = true) :
    crossLon lat pi pj = some (crossing lat pj pi) := by
  rw [crossLon, divide, if_neg (lat_ne h)]
  rfl

/-- An edge may be followed either way. -/
theorem crosses_swap (q p : LatLon) : crosses lat lon (q, p) = crosses lat lon (p, q) := by
  have hswap : straddles lat p q = straddles lat q p := by
    rw [Bool.eq_iff_iff, straddles_iff, straddles_iff]
    exact or_comm
  unfold crosses
  dsimp only
  cases h : straddles lat p q with
  | false => rw [← hswap, h, Bool.false_and, Bool.false_and]
  | true =>
    have hne := lat_ne h
    have hcross : crossing lat q p = crossing lat p q := by
      rw [crossing, crossing, ← neg_sub p.lat q.lat, div_neg]
      field_simp
      ring
    rw [hcross, ← hswap, h]

/-- An edge without a length is not crossed. -/
theorem crosses_self (p : LatLon) : crosses lat lon (p, p) = false := by
  simp [crosses, straddles]

/-- Where an edge crosses a latitude is between the longitudes of its ends. -/
theorem crossing_mem {pi pj : LatLon} (h : straddles lat pi pj = true) {a b : ℚ}
    (hi : a ≤ pi.lon ∧ pi.lon ≤ b) (hj : a ≤ pj.lon ∧ pj.lon ≤ b) :
    a ≤ crossing lat pj pi ∧ crossing lat pj pi ≤ b := by
  have hne := lat_ne h
  obtain ⟨hw0, hw1⟩ : 0 ≤ (lat - pj.lat) / (pi.lat - pj.lat) ∧
      (lat - pj.lat) / (pi.lat - pj.lat) ≤ 1 := by
    rcases straddles_iff.mp h with ⟨hl, hr⟩ | ⟨hl, hr⟩
    · have hpos : 0 < pi.lat - pj.lat := by linarith
      exact ⟨div_nonneg (by linarith) hpos.le, (div_le_one hpos).mpr (by linarith)⟩
    · have hneg : pi.lat - pj.lat < 0 := by linarith
      exact ⟨div_nonneg_of_nonpos (by linarith) hneg.le, (div_le_one_of_neg hneg).mpr (by linarith)⟩
  rw [crossing]
  generalize (lat - pj.lat) / (pi.lat - pj.lat) = w at *
  constructor <;> nlinarith

end edges

/-! ## The answer -/

variable (lat lon : ℚ)

/-- The loop turns the flag for each edge that is crossed. -/
theorem containsLoop_eq (pj : LatLon) (points : List LatLon) (inside : Bool) :
    containsLoop lat lon pj points inside =
      some (inside ^^ decide (Odd ((stepsFrom pj points).countP (crosses lat lon)))) := by
  induction points generalizing pj inside with
  | nil => simp [containsLoop, stepsFrom]
  | cons pi rest ih =>
    rw [containsLoop, stepsFrom, List.countP_cons]
    have hcrosses : crosses lat lon (pj, pi) =
        (straddles lat pi pj && decide (lon < crossing lat pj pi)) := rfl
    cases h : straddles lat pi pj with
    | false =>
      rw [if_neg (by simp), ih, hcrosses, h]
      simp
    | true =>
      rw [if_pos rfl, crossLon_eq h, hcrosses, h]
      simp only [Option.bind_eq_bind, Option.bind_some, ih]
      by_cases hlt : lon < crossing lat pj pi
      · by_cases hodd : Odd ((stepsFrom pi rest).countP (crosses lat lon)) <;>
          simp [hlt, Nat.odd_add_one, hodd]
      · simp [hlt]

/-- **The answer is whether the ray crosses an odd number of edges.** -/
theorem contains_eq (points : List LatLon) :
    contains points lat lon = some (decide (Odd ((steps points).countP (crosses lat lon)))) := by
  rw [contains, steps]
  cases points.getLast? with
  | none => simp
  | some last =>
    dsimp only
    rw [containsLoop_eq, Bool.false_xor]

variable {lat lon}

/-- A point is outside of the smallest box around the vertices. -/
def OutsideBox (points : List LatLon) (lat lon : ℚ) : Prop :=
  (∀ p ∈ points, lat < p.lat) ∨ (∀ p ∈ points, p.lat < lat) ∨
    (∀ p ∈ points, lon < p.lon) ∨ ∀ p ∈ points, p.lon < lon

theorem contains_of_outside {points : List LatLon} (h : OutsideBox points lat lon) :
    contains points lat lon = some false := by
  rw [contains_eq]
  congr 1
  rw [decide_eq_false_iff_not, Nat.not_odd_iff_even]
  have hnone (hn : ∀ e ∈ steps points, crosses lat lon e = false) :
      Even ((steps points).countP (crosses lat lon)) := by
    rw [List.countP_eq_zero.mpr fun e he ↦ by simp [hn e he]]
    exact Even.zero
  have hflat (e : LatLon × LatLon) (hn : ¬ straddles lat e.2 e.1 = true) :
      crosses lat lon e = false := by
    simp [crosses, hn]
  rcases h with hbelow | habove | hwest | heast
  · refine hnone fun e he ↦ hflat e ?_
    have h1 := hbelow _ (mem_steps he).1
    have h2 := hbelow _ (mem_steps he).2
    rw [straddles_iff]
    rintro (⟨h, -⟩ | ⟨h, -⟩)
    · exact h.not_gt h1
    · exact h.not_gt h2
  · refine hnone fun e he ↦ hflat e ?_
    have h1 := habove _ (mem_steps he).1
    have h2 := habove _ (mem_steps he).2
    rw [straddles_iff]
    rintro (⟨-, h⟩ | ⟨-, h⟩)
    · exact h.not_gt h2
    · exact h.not_gt h1
  · -- From the west the ray meets every edge that straddles it, and these are even in number.
    have heven := even_changes (fun p : LatLon ↦ decide (p.lat > lat)) points
    rwa [List.countP_congr fun e he ↦ ?_]
    have h1 := hwest _ (mem_steps he).1
    have h2 := hwest _ (mem_steps he).2
    have hcross (h : straddles lat e.2 e.1 = true) : lon < crossing lat e.1 e.2 :=
      (lt_min h1 h2).trans_le (crossing_mem h ⟨min_le_right _ _, le_max_right _ _⟩
        ⟨min_le_left _ _, le_max_left _ _⟩).1
    have hstraddles : straddles lat e.2 e.1 =
        (decide (e.1.lat > lat) != decide (e.2.lat > lat)) := bne_comm
    rw [← hstraddles, crosses, Bool.and_eq_true, decide_eq_true_eq]
    exact ⟨fun h ↦ h.1, fun h ↦ ⟨h, hcross h⟩⟩
  · refine hnone fun e he ↦ ?_
    have h1 := heast _ (mem_steps he).1
    have h2 := heast _ (mem_steps he).2
    rw [crosses, Bool.and_eq_false_iff, decide_eq_false_iff_not, not_lt]
    cases h : straddles lat e.2 e.1 with
    | false => exact .inl rfl
    | true =>
      exact .inr ((crossing_mem h ⟨min_le_right _ _, le_max_right _ _⟩
        ⟨min_le_left _ _, le_max_left _ _⟩).2.trans (max_lt h1 h2).le)

/-- **The answer is about the polygon.**  There always is one, it is the same wherever the list of
the vertices begins, whichever way it goes and however often a vertex is repeated in it, and it is
negative outside of the box around them. -/
theorem contains_encoding (points : List LatLon) (lat lon : ℚ) :
    (∃ inside, contains points lat lon = some inside) ∧
      (∀ n, contains (points.rotate n) lat lon = contains points lat lon) ∧
      contains points.reverse lat lon = contains points lat lon ∧
      (∀ l p t n, points = l ++ p :: t →
        contains (l ++ List.replicate (n + 1) p ++ t) lat lon = contains points lat lon) ∧
      contains (points ++ points.head?.toList) lat lon = contains points lat lon ∧
      (OutsideBox points lat lon → contains points lat lon = some false) := by
  refine ⟨⟨_, contains_eq lat lon points⟩, fun n ↦ ?_, ?_, ?_, ?_, contains_of_outside⟩
  · rw [contains_eq, contains_eq, countP_rotate]
  · rw [contains_eq, contains_eq, countP_reverse crosses_swap]
  · rintro l p t n rfl
    rw [contains_eq, contains_eq, countP_repeat crosses_self]
  · rw [contains_eq, contains_eq, countP_close crosses_self]

end ClassG.Geofence
