import Mathlib.Algebra.Order.Field.Power
import Mathlib.Data.Int.Log
import Mathlib.Data.Rat.Floor
import Mathlib.Tactic.Common
import Mathlib.Tactic.FieldSimp
import Mathlib.Tactic.Linarith
import Mathlib.Tactic.NormNum
import Mathlib.Tactic.Positivity
import Mathlib.Tactic.Ring

/-!
# Double precision

The numbers of `float64`, `f64` and Python's `float`, as the rationals they are, with the infinities
and what is not a number.  The two zeros are not told apart: they are equal as numbers, and are
written as the same number.

An operation returns the double nearest to its exact result, `nearest`, and of two that are equally
near the even one.  What a development needs of this is mostly that rounding never leaves an
interval whose ends are doubles: `nearest_le` and `le_nearest`.
-/

set_option autoImplicit false

/-- A double. -/
inductive Double
  | nan
  | inf (negative : Bool)
  | fin (q : ℚ)
  deriving DecidableEq

namespace Double

/-! ## Rounding -/

/-- The integer nearest to a number, and of two the even one. -/
def roundEven (x : ℚ) : ℤ :=
  if x - ⌊x⌋ < 1 / 2 then ⌊x⌋
  else if 1 / 2 < x - ⌊x⌋ then ⌊x⌋ + 1
  else if ⌊x⌋ % 2 = 0 then ⌊x⌋ else ⌊x⌋ + 1

/-- The exponent of the last place of the doubles around `x`: 53 bits are kept, unless the number is
so small that there are fewer. -/
def exponent (x : ℚ) : ℤ := max (Int.log 2 |x| - 52) (-1074)

/-- The distance between the doubles around `x`. -/
def ulp (x : ℚ) : ℚ := 2 ^ exponent x

/-- The double nearest to `x`, if exponents had no upper bound. -/
def nearest (x : ℚ) : ℚ := roundEven (x / ulp x) * ulp x

/-- The double nearest to `x`. -/
def round (x : ℚ) : Double :=
  if 2 ^ 1024 ≤ |nearest x| then .inf (x < 0) else .fin (nearest x)

/-! ## Operations -/

/-- Adding one finite number. -/
def add : Double → Double → Double
  | fin p, fin q => round (p + q)
  | inf s, inf t => if s = t then inf s else nan
  | inf s, fin _ => inf s
  | fin _, inf t => inf t
  | nan, _ => nan
  | _, nan => nan

/-- Multiplication by a finite number that is positive. -/
def scale (x : Double) (q : ℚ) : Double :=
  match x with
  | fin p => round (p * q)
  | inf s => inf s
  | nan => nan

/-- `x < y`. -/
def lt : Double → Double → Bool
  | fin p, fin q => p < q
  | inf s, inf t => s && !t
  | inf s, fin _ => s
  | fin _, inf t => !t
  | nan, _ => false
  | _, nan => false

/-- `x ≤ y`. -/
def le : Double → Double → Bool
  | fin p, fin q => p ≤ q
  | inf s, inf t => s || !t
  | inf s, fin _ => s
  | fin _, inf t => !t
  | nan, _ => false
  | _, nan => false

/-- The remainder of `x` after division by `m`, with the sign of `x`: it is exact. -/
def mod (x : Double) (m : ℚ) : Double :=
  match x with
  | fin p => fin (if 0 ≤ p then p - m * ⌊p / m⌋ else p - m * ⌈p / m⌉)
  | _ => nan

/-- The number, if it is one and finite. -/
def toRat? : Double → Option ℚ
  | fin q => some q
  | _ => none

/-! ## Rounding to an integer -/

theorem roundEven_le {x : ℚ} {n : ℤ} (h : x ≤ n) : roundEven x ≤ n := by
  have hfloor : ⌊x⌋ ≤ n := Int.floor_le_iff.mpr (h.trans_lt (by linarith))
  have hup : ¬x - ⌊x⌋ < 1 / 2 → ⌊x⌋ + 1 ≤ n := by
    intro hhalf
    by_contra hlt
    have heq : (⌊x⌋ : ℚ) = n := by
      rw [show ⌊x⌋ = n by omega]
    linarith
  rw [roundEven]
  split
  · exact hfloor
  · rename_i hhalf
    split
    · exact hup hhalf
    · split
      · exact hfloor
      · exact hup hhalf

theorem le_roundEven {x : ℚ} {n : ℤ} (h : (n : ℚ) ≤ x) : n ≤ roundEven x := by
  have hfloor : n ≤ ⌊x⌋ := Int.le_floor.mpr h
  rw [roundEven]
  split
  · exact hfloor
  · split
    · omega
    · split <;> omega

@[simp] theorem roundEven_intCast (n : ℤ) : roundEven n = n :=
  le_antisymm (roundEven_le le_rfl) (le_roundEven le_rfl)

theorem roundEven_lt {x : ℚ} {n : ℤ} (h : x < n - 1 / 2) : roundEven x < n := by
  have hfloor : ⌊x⌋ < n := Int.floor_lt.mpr (by linarith)
  have hup : ¬x - ⌊x⌋ < 1 / 2 → ⌊x⌋ + 1 < n := by
    intro hhalf
    have hcast : ((⌊x⌋ + 1 : ℤ) : ℚ) < n := by
      push_cast
      linarith
    exact_mod_cast hcast
  rw [roundEven]
  split
  · exact hfloor
  · rename_i hhalf
    split
    · exact hup hhalf
    · split
      · exact hfloor
      · exact hup hhalf

theorem roundEven_mono {x y : ℚ} (h : x ≤ y) : roundEven x ≤ roundEven y := by
  rcases (Int.floor_le_floor h).lt_or_eq with hlt | heq
  · have hx : roundEven x ≤ ⌊x⌋ + 1 :=
      roundEven_le (by push_cast; exact (Int.lt_floor_add_one x).le)
    have hy : ⌊y⌋ ≤ roundEven y := le_roundEven (Int.floor_le y)
    omega
  · have hfract : x - ⌊x⌋ ≤ y - ⌊x⌋ := by linarith
    rw [roundEven, roundEven, ← heq]
    split_ifs <;> first | omega | linarith

/-- Half way below an even integer is rounded up. -/
theorem le_roundEven_of_even {x : ℚ} {n : ℤ} (hn : n % 2 = 0) (h : n - 1 / 2 ≤ x) :
    n ≤ roundEven x := by
  by_cases hle : (n : ℚ) ≤ x
  · exact le_roundEven hle
  · have hfloor : ⌊x⌋ = n - 1 := by
      rw [Int.floor_eq_iff]
      push_cast
      constructor <;> linarith
    have hcast : (⌊x⌋ : ℚ) = n - 1 := by rw [hfloor]; push_cast; ring
    rw [roundEven, if_neg (by linarith)]
    split
    · omega
    · rw [if_neg (by omega)]
      omega

/-! ## Rounding to a double -/

theorem ulp_pos (x : ℚ) : 0 < ulp x := by
  rw [ulp]
  positivity

/-- A number is a double, but for the size of its exponent. -/
def Representable (q : ℚ) : Prop := ∃ (m e : ℤ), |m| < 2 ^ 53 ∧ -1074 ≤ e ∧ q = m * 2 ^ e

/-- Integers of no more than 53 bits are doubles. -/
theorem representable_intCast {n : ℤ} (h : |n| < 2 ^ 53) : Representable n :=
  ⟨n, 0, h, by norm_num, by simp⟩

theorem representable_natCast {n : ℕ} (h : n < 2 ^ 53) : Representable n := by
  have hn := representable_intCast (n := n) (by rw [Nat.abs_cast]; exact_mod_cast h)
  rwa [Int.cast_natCast] at hn

theorem Representable.neg {q : ℚ} (h : Representable q) : Representable (-q) := by
  obtain ⟨m, e, hm, he, rfl⟩ := h
  exact ⟨-m, e, by rwa [abs_neg], he, by push_cast; ring⟩

/-- A power of two that is no smaller than a last place is a number of last places. -/
theorem pow_eq_mul_pow {d e : ℤ} (h : e ≤ d) (m : ℤ) :
    ∃ n : ℤ, (m : ℚ) * 2 ^ d = n * 2 ^ e := by
  obtain ⟨k, hk⟩ := Int.le.dest h
  refine ⟨m * 2 ^ k, ?_⟩
  rw [← hk, zpow_add₀ (by norm_num), zpow_natCast]
  push_cast
  ring

/-- A double is a number of last places of `x`, or it is smaller than the power of two just below
`x`, which is. -/
theorem Representable.cases {q : ℚ} (h : Representable q) (x : ℚ) :
    (∃ n : ℤ, q = n * ulp x) ∨
      ∃ (n : ℤ) (p : ℚ), p = n * ulp x ∧ |q| < p ∧ (x ≠ 0 → p ≤ |x|) := by
  obtain ⟨m, e, hm, he, rfl⟩ := h
  by_cases hexp : exponent x ≤ e
  · exact .inl (pow_eq_mul_pow hexp m)
  · have hlog : exponent x = Int.log 2 |x| - 52 := by
      rw [exponent] at hexp ⊢
      omega
    obtain ⟨n, hn⟩ := pow_eq_mul_pow (show exponent x ≤ Int.log 2 |x| by omega) 1
    refine .inr ⟨n, 2 ^ Int.log 2 |x|, by rw [ulp, ← hn]; simp, ?_, fun hx ↦ ?_⟩
    · have hm' : |(m : ℚ)| < 2 ^ (53 : ℤ) := by exact_mod_cast hm
      calc |(m : ℚ) * 2 ^ e| = |(m : ℚ)| * 2 ^ e := by
            rw [abs_mul, abs_of_pos (show (0 : ℚ) < 2 ^ e by positivity)]
        _ < 2 ^ (53 : ℤ) * 2 ^ e := mul_lt_mul_of_pos_right hm' (by positivity)
        _ = 2 ^ (53 + e) := by rw [zpow_add₀ (by norm_num)]
        _ ≤ 2 ^ Int.log 2 |x| := zpow_le_zpow_right₀ (by norm_num) (by omega)
    · exact_mod_cast Int.zpow_log_le_self (b := 2) one_lt_two (abs_pos.mpr hx)

theorem nearest_le_mul {x : ℚ} {n : ℤ} (h : x ≤ n * ulp x) : nearest x ≤ n * ulp x := by
  have hn : x / ulp x ≤ n := (div_le_iff₀ (ulp_pos x)).mpr h
  exact mul_le_mul_of_nonneg_right (by exact_mod_cast roundEven_le hn) (ulp_pos x).le

theorem mul_le_nearest {x : ℚ} {n : ℤ} (h : n * ulp x ≤ x) : n * ulp x ≤ nearest x := by
  have hn : (n : ℚ) ≤ x / ulp x := (le_div_iff₀ (ulp_pos x)).mpr h
  exact mul_le_mul_of_nonneg_right (by exact_mod_cast le_roundEven hn) (ulp_pos x).le

/-- **Rounding does not go past a double**, upwards. -/
theorem nearest_le {x b : ℚ} (hb : Representable b) (h : x ≤ b) : nearest x ≤ b := by
  rcases hb.cases x with ⟨n, rfl⟩ | ⟨n, p, hp, hlt, hle⟩
  · exact nearest_le_mul h
  · rcases eq_or_ne x 0 with rfl | hx
    · have h0 : nearest 0 ≤ (0 : ℤ) * ulp 0 := nearest_le_mul (by simp)
      rw [Int.cast_zero, zero_mul] at h0
      exact h0.trans h
    · have hneg : x ≤ -p := by
        rcases abs_cases x with ⟨habs, -⟩ | ⟨habs, -⟩
        · exact absurd (hle hx) (by linarith [le_abs_self b])
        · linarith [hle hx]
      have hnear : nearest x ≤ ((-n : ℤ) : ℚ) * ulp x := by
        refine nearest_le_mul ?_
        push_cast
        linarith
      push_cast at hnear
      linarith [neg_abs_le b]

/-- **Rounding does not go past a double**, downwards. -/
theorem le_nearest {x b : ℚ} (hb : Representable b) (h : b ≤ x) : b ≤ nearest x := by
  rcases hb.cases x with ⟨n, rfl⟩ | ⟨n, p, hp, hlt, hle⟩
  · exact mul_le_nearest h
  · rcases eq_or_ne x 0 with rfl | hx
    · have h0 : (0 : ℤ) * ulp 0 ≤ nearest 0 := mul_le_nearest (by simp)
      rw [Int.cast_zero, zero_mul] at h0
      exact h.trans h0
    · have hpos : p ≤ x := by
        rcases abs_cases x with ⟨habs, -⟩ | ⟨habs, -⟩
        · linarith [hle hx]
        · exact absurd (hle hx) (by linarith [neg_abs_le b])
      have hnear : (n : ℚ) * ulp x ≤ nearest x := mul_le_nearest (by linarith)
      linarith [le_abs_self b]

/-- A double is rounded to itself. -/
theorem nearest_of_representable {q : ℚ} (h : Representable q) : nearest q = q :=
  le_antisymm (nearest_le h le_rfl) (le_nearest h le_rfl)

theorem representable_zero : Representable 0 := by
  simpa using representable_intCast (n := 0) (by norm_num)

theorem nearest_nonneg {x : ℚ} (h : 0 ≤ x) : 0 ≤ nearest x := le_nearest representable_zero h

/-- Between two positive numbers whose last places differ there is a double. -/
theorem representable_between {x y : ℚ} (hx : 0 < x) (h : x ≤ y) (hne : ulp x ≠ ulp y) :
    ∃ b, Representable b ∧ x ≤ b ∧ b ≤ y := by
  have hy : 0 < y := hx.trans_le h
  have hlog : Int.log 2 x ≤ Int.log 2 y := Int.log_mono_right hx h
  have hexp : exponent x ≠ exponent y := fun he ↦ hne (by rw [ulp, ulp, he])
  rw [exponent, exponent, abs_of_pos hx, abs_of_pos hy] at hexp
  refine ⟨2 ^ Int.log 2 y, ⟨1, Int.log 2 y, by norm_num, by omega, by simp⟩, ?_, ?_⟩
  · have := (Int.lt_zpow_iff_log_lt (b := 2) one_lt_two hx).mpr
      (show Int.log 2 x < Int.log 2 y by omega)
    exact_mod_cast this.le
  · exact_mod_cast Int.zpow_log_le_self (b := 2) one_lt_two hy

/-- **Rounding keeps the order.** -/
theorem nearest_mono {x y : ℚ} (h : x ≤ y) : nearest x ≤ nearest y := by
  by_cases hulp : ulp x = ulp y
  · rw [nearest, nearest, hulp]
    have hdiv : x / ulp y ≤ y / ulp y := div_le_div_of_nonneg_right h (ulp_pos y).le
    exact mul_le_mul_of_nonneg_right (by exact_mod_cast roundEven_mono hdiv) (ulp_pos y).le
  obtain ⟨b, hb, hxb, hby⟩ : ∃ b, Representable b ∧ x ≤ b ∧ b ≤ y := by
    rcases le_or_gt x 0 with hx | hx
    · rcases le_or_gt 0 y with hy | hy
      · exact ⟨0, representable_zero, hx, hy⟩
      · have hneg (z : ℚ) : ulp (-z) = ulp z := by rw [ulp, ulp, exponent, exponent, abs_neg]
        obtain ⟨b, hb, hyb, hbx⟩ := representable_between (x := -y) (y := -x) (by linarith)
          (by linarith) (by rw [hneg, hneg]; exact Ne.symm hulp)
        exact ⟨-b, hb.neg, by linarith, by linarith⟩
    · exact representable_between hx h hulp
  exact (nearest_le hb hxb).trans (le_nearest hb hby)

/-- A number between two doubles is rounded to a finite one. -/
theorem round_of_mem {x a b : ℚ} (ha : Representable a) (hb : Representable b)
    (ha' : -2 ^ 1024 < a) (hb' : b < 2 ^ 1024) (hax : a ≤ x) (hxb : x ≤ b) :
    round x = fin (nearest x) := by
  rw [round, if_neg]
  rw [not_le, abs_lt]
  exact ⟨ha'.trans_le (le_nearest ha hax), (nearest_le hb hxb).trans_lt hb'⟩

/-- The largest doubles are larger than any number that a service writes. -/
theorem lt_pow_of_lt {q : ℚ} (h : q < 2 ^ 64) : q < 2 ^ 1024 :=
  h.trans (pow_lt_pow_right₀ (by norm_num) (by norm_num))

/-- Rounding keeps the sign. -/
theorem nonneg_of_round {x y : ℚ} (h : round x = fin y) (hx : 0 ≤ x) : 0 ≤ y := by
  rw [round] at h
  split at h
  · cases h
  · exact Double.fin.inj h ▸ nearest_nonneg hx

theorem ulp_eq {x : ℚ} {e : ℤ} (he : -1022 ≤ e) (h : 2 ^ e ≤ x) (hlt : x < 2 ^ (e + 1)) :
    ulp x = 2 ^ (e - 52) := by
  have hx : 0 < x := lt_of_lt_of_le (by positivity) h
  have hlog : Int.log 2 x = e := by
    refine le_antisymm ?_ ((Int.zpow_le_iff_le_log one_lt_two hx).mp (by exact_mod_cast h))
    have := (Int.lt_zpow_iff_log_lt one_lt_two hx).mp (by exact_mod_cast hlt)
    omega
  rw [ulp, exponent, abs_of_pos hx, hlog, max_eq_left (by omega)]

/-- **When a number is rounded up to an even one.**  It is, unless it is more than half a last place
below. -/
theorem nearest_lt_iff {x : ℚ} {e n : ℤ} (he : -1022 ≤ e) (h : 2 ^ e ≤ x) (hlt : x < 2 ^ (e + 1))
    (hn : n % 2 = 0) :
    nearest x < n * 2 ^ (e - 52) ↔ x < (n - 1 / 2) * 2 ^ (e - 52) := by
  have hulp := ulp_eq he h hlt
  have hpos := ulp_pos x
  rw [nearest, ← hulp, mul_lt_mul_iff_left₀ hpos, Int.cast_lt, ← div_lt_iff₀ hpos]
  exact ⟨fun hx ↦ not_le.mp fun hge ↦ not_lt.mpr (le_roundEven_of_even hn hge) hx, roundEven_lt⟩

/-! ## Remainders -/

theorem mod_fin {p m : ℚ} (hm : 0 < m) : ∃ r, mod (fin p) m = fin r ∧ |r| < m ∧
    (0 ≤ p → 0 ≤ r) ∧ (p ≤ 0 → r ≤ 0) := by
  by_cases h : 0 ≤ p
  · have hle : m * ⌊p / m⌋ ≤ p := by
      have := mul_le_mul_of_nonneg_left (Int.floor_le (p / m)) hm.le
      rwa [mul_div_cancel₀ _ hm.ne'] at this
    have hlt : p < m * ⌊p / m⌋ + m := by
      have := mul_lt_mul_of_pos_left (Int.lt_floor_add_one (p / m)) hm
      rwa [mul_div_cancel₀ _ hm.ne', mul_add, mul_one] at this
    refine ⟨_, by rw [mod, if_pos h], ?_, fun _ ↦ by linarith, fun h0 ↦ ?_⟩
    · rw [abs_lt]
      constructor <;> linarith
    · have hp : p = 0 := le_antisymm h0 h
      simp [hp]
  · have hle : p ≤ m * ⌈p / m⌉ := by
      have := mul_le_mul_of_nonneg_left (Int.le_ceil (p / m)) hm.le
      rwa [mul_div_cancel₀ _ hm.ne'] at this
    have hlt : m * ⌈p / m⌉ < p + m := by
      have := mul_lt_mul_of_pos_left (Int.ceil_lt_add_one (p / m)) hm
      rwa [mul_add, mul_div_cancel₀ _ hm.ne', mul_one] at this
    refine ⟨_, by rw [mod, if_neg h], ?_, fun h0 ↦ absurd h0 h, fun _ ↦ by linarith⟩
    rw [abs_lt]
    constructor <;> linarith

/-- The remainder of a negative number is the number and some multiple. -/
theorem mod_of_neg {p m : ℚ} (hm : 0 < m) (hp : p < 0) : ∃ n : ℕ,
    mod (fin p) m = fin (p + m * n) ∧ -m < p + m * n ∧ p + m * n ≤ 0 := by
  have hceil : ⌈p / m⌉ ≤ 0 := Int.ceil_le.mpr (by
    rw [Int.cast_zero]
    exact div_nonpos_of_nonpos_of_nonneg hp.le hm.le)
  obtain ⟨n, hn⟩ := Int.eq_ofNat_of_zero_le (show 0 ≤ -⌈p / m⌉ by omega)
  have hcast : (n : ℚ) = -⌈p / m⌉ := by
    rw [← Int.cast_neg, hn, Int.cast_natCast]
  have hmod : mod (fin p) m = fin (p + m * n) := by
    rw [mod, if_neg (not_le.mpr hp), hcast, mul_neg, sub_eq_add_neg]
  obtain ⟨r, hr, habs, -, hneg⟩ := mod_fin (p := p) hm
  obtain rfl : p + m * n = r := Double.fin.inj (hmod.symm.trans hr)
  exact ⟨n, hmod, (abs_lt.mp habs).1, hneg hp.le⟩

end Double
