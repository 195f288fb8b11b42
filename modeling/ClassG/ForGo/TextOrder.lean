import Mathlib.Data.List.Infix
import ClassG.ForGo.Timestamp

/-!
# The order of the texts of instants

A text of RFC 3339 leaves out the zeros at the end of the fraction, and the whole fraction of a full
second.  So two texts are not always in the order of their instants: within one second, a fraction
that goes on where the other one ends comes first, as a digit or a full stop comes before `Z`.

* `GoTime.Tellable` — no such pair.
* `GoTime.formatRFC3339Nano_lt_iff` — the texts of other pairs are in order.

The layout with all nine digits has texts of one width, but for a year of more than four digits.

* `GoTime.YearsInOrder` — two years compare as their texts do.
* `GoTime.formatFixed_lt_iff_iff` — and then instants of these years do.
-/

set_option autoImplicit false

namespace GoTime

open GoBytes Calendar

/-! ## What decides between two texts -/

/-- Where neither text goes on from the other, what follows them does not count. -/
theorem append_lt_append_iff_of_apart : ∀ {a b : GoBytes}, ¬a <+: b → ¬b <+: a →
    ∀ x y : GoBytes, a ++ x < b ++ y ↔ a < b
  | [], _, h, _, _, _ => absurd List.nil_prefix h
  | _ :: _, [], _, h, _, _ => absurd List.nil_prefix h
  | c :: a, d :: b, hab, hba, x, y => by
    by_cases hcd : c = d
    · subst hcd
      rw [List.cons_append, List.cons_append, cons_lt_cons, cons_lt_cons]
      rw [List.prefix_cons_inj] at hab hba
      exact append_lt_append_iff_of_apart hab hba x y
    · rw [List.cons_append, List.cons_append, List.cons_lt_cons_iff, List.cons_lt_cons_iff]
      simp [hcd]

theorem append_lt_append_left (s : GoBytes) {x y : GoBytes} : s ++ x < s ++ y ↔ x < y := by
  induction s with
  | nil => rfl
  | cons c s ih => rw [List.cons_append, List.cons_append, cons_lt_cons, ih]

/-! ## Seconds -/

/-- Instants of one second have one text up to the second. -/
theorem formatSeconds_congr {t u : ℤ} (h : t / 1000000000 = u / 1000000000) :
    formatSeconds (stamp t) = formatSeconds (stamp u) := by
  have hday : t / day = u / day := by
    unfold day
    omega
  have hhour : (stamp t).hour = (stamp u).hour := by
    simp only [stamp]
    unfold day
    omega
  have hminute : (stamp t).minute = (stamp u).minute := by
    simp only [stamp]
    unfold day
    omega
  have hsecond : (stamp t).second = (stamp u).second := by
    simp only [stamp]
    unfold day
    omega
  have hdate : (stamp t).date = (stamp u).date := by
    simp only [stamp]
    rw [hday]
  rw [formatSeconds, formatSeconds, hdate, hhour, hminute, hsecond]

/-! ## Fractions -/

/-- The digits of the fraction, without the zeros at their end. -/
def fractionDigits (t : ℤ) : GoBytes :=
  ((decimals 9 (stamp t).nanos.toNat).reverse.dropWhile (· = 48)).reverse

/-- If the instants are of one second, neither's digits go on where the other's end. -/
def Tellable (t u : ℤ) : Prop :=
  t / 1000000000 = u / 1000000000 → fractionDigits t ≠ fractionDigits u →
    ¬fractionDigits t <+: fractionDigits u ∧ ¬fractionDigits u <+: fractionDigits t

instance (t u : ℤ) : Decidable (Tellable t u) :=
  inferInstanceAs (Decidable (_ → _ → _ ∧ _))

theorem Tellable.symm {t u : ℤ} (h : Tellable t u) : Tellable u t := fun hsecond hne ↦
  (h hsecond.symm hne.symm).symm

theorem formatRFC3339Nano_eq (t : ℤ) : formatRFC3339Nano t = formatSeconds (stamp t) ++
    ((if fractionDigits t = [] then [] else 46 :: fractionDigits t) ++ [90]) := by
  rw [← List.append_assoc]
  rfl

theorem formatRFC3339Nano_inj {t u : ℤ} (ht : InRange t) (hu : InRange u) :
    formatRFC3339Nano t = formatRFC3339Nano u ↔ t = u := by
  refine ⟨fun h ↦ ?_, fun h ↦ h ▸ rfl⟩
  have hparse := parseRFC3339Nano_formatRFC3339Nano ht
  rw [h, parseRFC3339Nano_formatRFC3339Nano hu] at hparse
  exact (Option.some.inj hparse).symm

/-- Fractions that can be told apart are in the order of their nanoseconds. -/
theorem fractionDigits_lt_iff {t u : ℤ} (ht : ¬fractionDigits t <+: fractionDigits u)
    (hu : ¬fractionDigits u <+: fractionDigits t) :
    fractionDigits t < fractionDigits u ↔ (stamp t).nanos < (stamp u).nanos := by
  have htrim (v : ℤ) := trim_append_zeros (decimals 9 (stamp v).nanos.toNat)
  have hbt := stamp_bounds t
  have hbu := stamp_bounds u
  rw [← append_lt_append_iff_of_apart ht hu
    (List.replicate ((decimals 9 (stamp t).nanos.toNat).reverse.takeWhile (· = 48)).length 48)
    (List.replicate ((decimals 9 (stamp u).nanos.toNat).reverse.takeWhile (· = 48)).length 48)]
  unfold fractionDigits
  rw [← htrim t, ← htrim u, ← List.append_nil (decimals 9 (stamp t).nanos.toNat),
    ← List.append_nil (decimals 9 (stamp u).nanos.toNat),
    decimals_toNat_append_lt (by omega) (by omega)]
  simp

/-- **The texts of instants that can be told apart are in their order.** -/
theorem formatRFC3339Nano_lt_iff {t u : ℤ} (ht : InRange t) (hu : InRange u)
    (h : Tellable t u) : formatRFC3339Nano t < formatRFC3339Nano u ↔ t < u := by
  rcases lt_trichotomy (t / 1000000000) (u / 1000000000) with hlt | hsecond | hgt
  · have hformat : formatRFC3339Nano t < formatRFC3339Nano u := by
      rw [formatRFC3339Nano_eq, formatRFC3339Nano_eq]
      exact formatSeconds_append_lt ht hu (by omega) fun hsecond ↦ absurd hsecond hlt.ne
    exact iff_of_true hformat (by omega)
  · by_cases heq : fractionDigits t = fractionDigits u
    · have hformat : formatRFC3339Nano t = formatRFC3339Nano u := by
        rw [formatRFC3339Nano_eq, formatRFC3339Nano_eq, heq, formatSeconds_congr hsecond]
      rw [(formatRFC3339Nano_inj ht hu).mp hformat]
      exact iff_of_false (lt_irrefl _) (lt_irrefl _)
    · obtain ⟨htu, hut⟩ := h hsecond heq
      have htne : fractionDigits t ≠ [] := fun hnil ↦ htu (hnil ▸ List.nil_prefix)
      have hune : fractionDigits u ≠ [] := fun hnil ↦ hut (hnil ▸ List.nil_prefix)
      rw [formatRFC3339Nano_eq, formatRFC3339Nano_eq, formatSeconds_congr hsecond,
        append_lt_append_left, if_neg htne, if_neg hune, List.cons_append, List.cons_append,
        cons_lt_cons, append_lt_append_iff_of_apart htu hut, fractionDigits_lt_iff htu hut,
        stamp_nanos, stamp_nanos]
      omega
  · have hformat : formatRFC3339Nano u < formatRFC3339Nano t := by
      rw [formatRFC3339Nano_eq, formatRFC3339Nano_eq]
      exact formatSeconds_append_lt hu ht (by omega) fun hsecond ↦ absurd hsecond hgt.ne
    exact iff_of_false hformat.not_gt (by omega)

/-! ## Years

The layout of a fixed width has room for four digits of a year.  A longer one is written out, and
what follows is no longer in its column. -/

/-- The year as it stands before the month. -/
def yearText (y : ℤ) : GoBytes := appendInt 4 y ++ [45]

/-- The years are in the order of their texts. -/
def YearsInOrder (y z : ℤ) : Prop := yearText y < yearText z ↔ y < z

instance (y z : ℤ) : Decidable (YearsInOrder y z) := inferInstanceAs (Decidable (_ ↔ _))

/-- What comes after the year. -/
def afterYear (t : ℤ) : GoBytes :=
  decimals 2 (stamp t).date.month.toNat ++ 45 :: (decimals 2 (stamp t).date.day.toNat ++
    84 :: (decimals 2 (stamp t).hour.toNat ++ 58 :: (decimals 2 (stamp t).minute.toNat ++
      58 :: (decimals 2 (stamp t).second.toNat ++ 46 :: (decimals 9 (stamp t).nanos.toNat ++
        [90])))))

theorem formatFixed_eq (t : ℤ) : formatFixed t = yearText (year t) ++ afterYear t := by
  simp [formatFixed, formatSeconds, fraction, yearText, afterYear, year]

/-- No year's text goes on from another's. -/
theorem yearText_apart {y z : ℤ} (h : y ≠ z) : ¬yearText y <+: yearText z := by
  rintro ⟨s, hs⟩
  rw [yearText, yearText, List.append_assoc] at hs
  exact h (appendInt_hyphen_inj hs).1

/-- Within a year the instants are in the order of their texts. -/
theorem afterYear_lt {t u : ℤ} (hyear : year t = year u) (h : t < u) :
    afterYear t < afterYear u := by
  have hct := stamp_bounds t
  have hcu := stamp_bounds u
  have hvt : (stamp t).date.Valid := Date.valid_ofDay _
  have hvu : (stamp u).date.Valid := Date.valid_ofDay _
  have hmt : 0 ≤ (stamp t).date.month ∧ (stamp t).date.month < 10 ^ 2 := by
    have := hvt.1; have := hvt.2.1; omega
  have hmu : 0 ≤ (stamp u).date.month ∧ (stamp u).date.month < 10 ^ 2 := by
    have := hvu.1; have := hvu.2.1; omega
  have hdt : 0 ≤ (stamp t).date.day ∧ (stamp t).date.day < 10 ^ 2 := by
    have := hvt.2.2.1; have := hvt.day_le_31; omega
  have hdu : 0 ≤ (stamp u).date.day ∧ (stamp u).date.day < 10 ^ 2 := by
    have := hvu.2.2.1; have := hvu.day_le_31; omega
  have hlt := stamp_lt h
  simp only [Date.Before, Date.ext_iff] at hlt
  rw [year, year] at hyear
  simp only [afterYear]
  generalize stamp t = a at *
  generalize stamp u = b at *
  rw [decimals_toNat_append_lt hmt hmu, cons_lt_cons, decimals_toNat_append_lt hdt hdu,
    cons_lt_cons, decimals_toNat_append_lt (by omega) (by omega), cons_lt_cons,
    decimals_toNat_append_lt (by omega) (by omega), cons_lt_cons,
    decimals_toNat_append_lt (by omega) (by omega), cons_lt_cons,
    decimals_toNat_append_lt (by omega) (by omega)]
  omega

/-- **Texts of one layout are in the order of their instants as far as their years are.** -/
theorem formatFixed_lt_iff_iff (t u : ℤ) :
    (formatFixed t < formatFixed u ↔ t < u) ↔ YearsInOrder (year t) (year u) := by
  rw [formatFixed_eq, formatFixed_eq, YearsInOrder]
  by_cases hyear : year t = year u
  · rw [hyear, append_lt_append_left]
    refine iff_of_true ⟨fun h ↦ ?_, afterYear_lt hyear⟩ (iff_of_false (lt_irrefl _) (lt_irrefl _))
    rcases lt_trichotomy t u with hlt | heq | hgt
    · exact hlt
    · subst heq
      exact absurd h (lt_irrefl _)
    · exact absurd h (afterYear_lt hyear.symm hgt).not_gt
  · rw [append_lt_append_iff_of_apart (yearText_apart hyear) (yearText_apart (Ne.symm hyear))]
    have hlt : t < u ↔ year t < year u := by
      refine ⟨fun h ↦ (year_mono h.le).lt_of_ne hyear, fun h ↦ ?_⟩
      by_contra hge
      exact h.not_ge (year_mono (not_lt.mp hge))
    rw [hlt]

/-- The last digits come last. -/
theorem decimals_add (w k n : ℕ) : decimals (w + k) n = decimals w (n / 10 ^ k) ++ decimals k n := by
  induction w with
  | zero => rw [Nat.zero_add, decimals, List.nil_append]
  | succ w ih =>
    rw [Nat.succ_add, decimals, decimals, ih, List.cons_append, Nat.div_div_eq_div_mul, ← pow_add,
      Nat.add_comm k w]

/-- A digit comes after a hyphen. -/
theorem hyphen_lt_decimals {w : ℕ} (hw : 0 < w) (n : ℕ) (s t : GoBytes) :
    (45 :: s : GoBytes) < decimals w n ++ t := by
  obtain ⟨v, rfl⟩ : ∃ v, w = v + 1 := ⟨w - 1, by omega⟩
  rw [decimals, List.cons_append]
  refine List.cons_lt_cons_iff.mpr (.inl ?_)
  rw [Fin.lt_def, digit_val]
  exact (show (45 : ℕ) < 48 by decide).trans_le (Nat.le_add_right ..)

/-- The first four digits of a year. -/
def leadingFour (y : ℤ) : ℤ := (y.toNat / 10 ^ (Nat.log 10 y.toNat - 3) : ℕ)

/-- **A year is in order with one of four digits** unless it has more, and they begin with less. -/
theorem yearsInOrder_iff {y z : ℤ} (h0 : 0 ≤ z) (hz : z ≤ 9999) :
    YearsInOrder y z ↔ y ≤ 9999 ∨ z ≤ leadingFour y := by
  rw [YearsInOrder, yearText, yearText, appendInt_of_range h0 hz]
  rcases lt_or_ge y 0 with hneg | hnonneg
  · rw [appendInt, if_pos hneg]
    exact iff_of_true (iff_of_true (hyphen_lt_decimals (by norm_num) ..) (by omega)) (by omega)
  rcases le_or_gt y 9999 with hy | hy
  · rw [appendInt_of_range hnonneg hy, decimals_toNat_append_lt (by omega) (by omega)]
    simp [hy]
  · obtain ⟨n, rfl⟩ := Int.eq_ofNat_of_zero_le hnonneg
    have hlog : 4 ≤ Nat.log 10 n := Nat.le_log_of_pow_le (by norm_num) (by omega)
    obtain ⟨k, hk⟩ : ∃ k, Nat.log 10 n = k + 4 := ⟨Nat.log 10 n - 4, by omega⟩
    have hfour : n / 10 ^ (k + 1) < 10 ^ 4 := by
      rw [Nat.div_lt_iff_lt_mul (by positivity), ← pow_add]
      exact (Nat.lt_pow_succ_log_self (by norm_num) n).trans_le
        (Nat.pow_le_pow_right (by norm_num) (by omega))
    have hlead : leadingFour (n : ℤ) = (n / 10 ^ (k + 1) : ℕ) := by
      rw [leadingFour, Int.toNat_natCast, hk, show k + 4 - 3 = k + 1 by omega]
    -- The longer year goes on with a digit where the other has its hyphen.
    have hend : ¬decimals (k + 1) n ++ [45] < [45] :=
      (hyphen_lt_decimals (Nat.succ_pos k) n [] [45]).not_gt
    rw [appendInt, if_neg hnonneg.not_gt, Int.toNat_natCast, padded, hk,
      show max 4 (k + 4 + 1) = 4 + (k + 1) by omega, decimals_add, List.append_assoc,
      decimals_append_lt, Nat.mod_eq_of_lt hfour, Nat.mod_eq_of_lt (show z.toNat < 10 ^ 4 by omega),
      hlead]
    simp only [hend, and_false, or_false]
    omega

end GoTime
