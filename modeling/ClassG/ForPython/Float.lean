import ClassG.Binary64

/-!
# Python floats

What the parsers of `sensor-wifi` do with `math` and with `%`.  The functions that the C library
computes are a parameter, `Libm`: which of the doubles near the exact value they return depends on
the platform, and `Libm.Sound` is what every one of them grants.
-/

set_option autoImplicit false

namespace PyFloat

open Double

/-- `math.pi`. -/
def pi : ℚ := 884279719003555 / 2 ^ 48

/-- `180.0 / math.pi`. -/
def radToDeg : ℚ := nearest (180 / pi)

/-- `math.degrees`. -/
def degrees (x : ℚ) : ℚ := nearest (x * radToDeg)

/-- `fmod`, which is exact. -/
def fmod (x m : ℚ) : ℚ := if 0 ≤ x then x - m * ⌊x / m⌋ else x - m * ⌈x / m⌉

/-- `x % m`, of a positive `m`. -/
def mod (x m : ℚ) : ℚ :=
  let r := fmod x m
  if r < 0 then nearest (r + m) else r

/-- The functions of the C library. -/
structure Libm where
  hypot : ℚ → ℚ → ℚ
  atan2 : ℚ → ℚ → ℚ

/-- What the C library grants: a length is not negative, and an angle is no more than half a turn,
on the side of the axis that the point is on.  It is no less than its sine, which is half of what
the last condition asks for, where that is not too small for a double. -/
structure Libm.Sound (m : Libm) : Prop where
  hypot_nonneg (x y : ℚ) : 0 ≤ m.hypot x y
  atan2_mem (y x : ℚ) : -pi ≤ m.atan2 y x ∧ m.atan2 y x ≤ pi
  atan2_nonneg {y : ℚ} (x : ℚ) : 0 ≤ y → 0 ≤ m.atan2 y x
  atan2_le {y : ℚ} (x : ℚ) : y < 0 → 1 / 2 ^ 900 ≤ -y / (|x| + |y|) →
    m.atan2 y x ≤ y / (2 * (|x| + |y|))

/-! ## Remainders -/

theorem fmod_of_lt {x m : ℚ} (hm : 0 < m) (h : -m < x) (hlt : x < m) : fmod x m = x := by
  rw [fmod]
  split
  · rename_i h0
    have hfloor : ⌊x / m⌋ = 0 :=
      Int.floor_eq_zero_iff.mpr ⟨div_nonneg h0 hm.le, (div_lt_one hm).mpr hlt⟩
    rw [hfloor]
    simp
  · rename_i h0
    have hceil : ⌈x / m⌉ = 0 := by
      rw [Int.ceil_eq_zero_iff]
      refine ⟨?_, div_nonpos_of_nonpos_of_nonneg (not_le.mp h0).le hm.le⟩
      rw [lt_div_iff₀ hm]
      linarith
    rw [hceil]
    simp

theorem mod_of_nonneg {x m : ℚ} (h : 0 ≤ x) (hlt : x < m) : mod x m = x := by
  rw [mod, fmod_of_lt (by linarith) (by linarith) hlt]
  exact if_neg (not_lt.mpr h)

theorem mod_of_neg {x m : ℚ} (h : -m < x) (hneg : x < 0) : mod x m = nearest (x + m) := by
  rw [mod, fmod_of_lt (by linarith) h (by linarith)]
  exact if_pos hneg

/-! ## Degrees -/

theorem pi_mem : 3 ≤ pi ∧ pi ≤ 22 / 7 := by
  rw [pi]
  norm_num

theorem radToDeg_mem : 57 ≤ radToDeg ∧ radToDeg ≤ 58 := by
  have hpi : 57 ≤ 180 / pi ∧ 180 / pi ≤ 58 := by
    rw [pi]
    norm_num
  exact ⟨by exact_mod_cast le_nearest (representable_natCast (n := 57) (by norm_num)) hpi.1,
    by exact_mod_cast nearest_le (representable_natCast (n := 58) (by norm_num)) hpi.2⟩

/-- **An angle in degrees is brought onto the circle**, unless it is just below zero. -/
theorem degrees_mod_mem {x : ℚ} (h : -pi ≤ x ∧ x ≤ pi) (hx : 0 ≤ x ∨ x ≤ -(1 / 2 ^ 18)) :
    0 ≤ mod (degrees x) 360 ∧ mod (degrees x) 360 < 360 := by
  obtain ⟨hlow, hhigh⟩ := radToDeg_mem
  obtain ⟨-, hpi⟩ := pi_mem
  have h183 : Representable 183 := by
    exact_mod_cast representable_natCast (n := 183) (by norm_num)
  rcases hx with h0 | hneg
  · have hdeg : 0 ≤ degrees x := nearest_nonneg (by positivity)
    have hle : degrees x ≤ 183 := by
      refine nearest_le h183 ?_
      calc x * radToDeg ≤ 22 / 7 * 58 :=
            mul_le_mul (h.2.trans hpi) hhigh (by linarith) (by norm_num)
        _ ≤ 183 := by norm_num
    rw [mod_of_nonneg hdeg (by linarith)]
    constructor <;> linarith
  · have hsmall : Representable (-(1 / 2 ^ 13)) := ⟨-1, -13, by norm_num, by norm_num, by norm_num⟩
    have hle : degrees x ≤ -(1 / 2 ^ 13) := by
      refine nearest_le hsmall ?_
      have hmul : x * radToDeg ≤ -(1 / 2 ^ 18) * radToDeg :=
        mul_le_mul_of_nonneg_right hneg (by linarith)
      refine hmul.trans ?_
      norm_num
      linarith
    have hge : -183 ≤ degrees x := by
      refine le_nearest h183.neg ?_
      have hmul : -(22 / 7) * radToDeg ≤ x * radToDeg :=
        mul_le_mul_of_nonneg_right (by linarith) (by linarith)
      linarith
    have htop : Representable (360 - 1 / 2 ^ 13) :=
      ⟨360 * 2 ^ 13 - 1, -13, by norm_num, by norm_num, by norm_num⟩
    have h0 : degrees x < 0 := hle.trans_lt (by norm_num)
    rw [mod_of_neg (by linarith) h0]
    refine ⟨nearest_nonneg (by linarith), ?_⟩
    have hlt : nearest (degrees x + 360) ≤ 360 - 1 / 2 ^ 13 := nearest_le htop (by linarith)
    refine hlt.trans_lt ?_
    norm_num

end PyFloat
