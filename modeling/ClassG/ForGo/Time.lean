import Mathlib.Order.Lattice
import Mathlib.Algebra.Order.Ring.Int
import Mathlib.Tactic.Common

/-!
# Go times and durations

A `time.Time` without its monotonic reading and its location is a number of nanoseconds, counted
here from the zero `Time`; a `time.Duration` is a 64-bit number of nanoseconds.  `After` and
`Before` are `<` on the one count.  `Sub` is not quite subtraction: it saturates at the ends of
the range of a `Duration`, and the only facts about it that comparisons with a threshold need are
that it is monotone in its first argument and antitone in its second.
-/

set_option autoImplicit false

/-- A `time.Time`: nanoseconds since the zero `Time`. -/
abbrev GoTime := ℤ

/-- A `time.Duration`: nanoseconds. -/
abbrev GoDuration := ℤ

namespace GoDuration

/-- The longest `Duration`, `math.MaxInt64`. -/
def maxDuration : GoDuration := 9223372036854775807

/-- The shortest `Duration`, `math.MinInt64`. -/
def minDuration : GoDuration := -9223372036854775808

/-- `time.Second`. -/
def second : GoDuration := 1000000000

/-- `time.Minute`. -/
def minute : GoDuration := 60 * second

/-- `d.Abs()`; the shortest `Duration` has no negation and goes to the longest. -/
def abs (d : GoDuration) : GoDuration :=
  if 0 ≤ d then d else if d = minDuration then maxDuration else -d

/-- `-d` in 64 bits: the shortest `Duration` is its own negation. -/
def neg (d : GoDuration) : GoDuration := if d = minDuration then minDuration else -d

/-- What a product of durations comes to in 64 bits. -/
def wrap (d : ℤ) : GoDuration := Int.bmod d (2 ^ 64)

theorem wrap_of_le {d : ℤ} (h0 : 0 ≤ d) (h : d ≤ maxDuration) : wrap d = d := by
  unfold maxDuration at h
  refine Int.bmod_eq_of_le ?_ ?_ <;> omega

end GoDuration

namespace GoTime

/-- `t.Sub(u)`, saturating. -/
def sub (t u : GoTime) : GoDuration :=
  max GoDuration.minDuration (min (t - u) GoDuration.maxDuration)

theorem sub_le_sub_left {u v : GoTime} (h : u ≤ v) (t : GoTime) : sub t v ≤ sub t u :=
  max_le_max_left _ (min_le_min_right _ (Int.sub_le_sub_left h t))

theorem sub_le_sub_right {t u : GoTime} (h : t ≤ u) (v : GoTime) : sub t v ≤ sub u v :=
  max_le_max_left _ (min_le_min_right _ (Int.sub_le_sub_right h v))

/-- Up to the longest `Duration`, `t.Sub(u).Abs()` is compared as the distance of the times. -/
theorem abs_sub_lt_iff {t u : GoTime} {i : GoDuration} (hi : i ≤ GoDuration.maxDuration) :
    (sub t u).abs < i ↔ |t - u| < i := by
  have hclamped : ∀ x y i : ℤ, y = max (-9223372036854775808) (min x 9223372036854775807) →
      i ≤ 9223372036854775807 →
      ((if 0 ≤ y then y else if y = -9223372036854775808 then 9223372036854775807 else -y) < i ↔
        -i < x ∧ x < i) := by
    intro x y i hy hi
    split
    · omega
    · split <;> omega
  rw [abs_lt]
  exact hclamped (t - u) _ i rfl hi

end GoTime
