import Mathlib.Algebra.Order.Ring.Int
import Mathlib.Order.SuccPred.IntervalSucc
import Mathlib.Tactic.Common
import Mathlib.Tactic.IntervalCases

/-!
# The calendar

The proleptic Gregorian calendar of package `time`: a day is the number of days since 1 January of
year 1, and `Date.ofDay` and `Date.toDay` go between that number and a year, a month and a day.

`ofDay` cuts off cycles of 400, 100, 4 years and one, as the package does.  Nothing here looks at
how it does that again after `toDay_ofDay`: the two facts that everything else needs are that it
undoes `toDay`, and that `toDay` runs through the dates in order, `toDay_lt_toDay`.
-/

set_option autoImplicit false

namespace Calendar

/-- A date of the calendar. -/
@[ext]
structure Date where
  year : ℤ
  month : ℤ
  day : ℤ
  deriving DecidableEq, Repr

/-- `isLeap`. -/
def isLeap (year : ℤ) : Bool := year % 4 = 0 ∧ (year % 100 ≠ 0 ∨ year % 400 = 0)

/-- One if the year has a leap day. -/
def leapDay (year : ℤ) : ℤ := if isLeap year then 1 else 0

/-- The days before a year. -/
def daysBeforeYear (year : ℤ) : ℤ :=
  365 * (year - 1) + (year - 1) / 4 - (year - 1) / 100 + (year - 1) / 400

/-- The days of a year before one of its months. -/
def daysBeforeMonth (year : ℤ) (month : ℤ) : ℤ :=
  if month ≤ 1 then 0
  else if month = 2 then 31
  else leapDay year +
    if month = 3 then 59 else if month = 4 then 90 else if month = 5 then 120
    else if month = 6 then 151 else if month = 7 then 181 else if month = 8 then 212
    else if month = 9 then 243 else if month = 10 then 273 else if month = 11 then 304
    else if month = 12 then 334 else 365

/-- `daysIn`. -/
def daysIn (year month : ℤ) : ℤ := daysBeforeMonth year (month + 1) - daysBeforeMonth year month

/-- The date exists. -/
def Date.Valid (d : Date) : Prop :=
  1 ≤ d.month ∧ d.month ≤ 12 ∧ 1 ≤ d.day ∧ d.day ≤ daysIn d.year d.month

instance (d : Date) : Decidable d.Valid := inferInstanceAs (Decidable (_ ∧ _ ∧ _ ∧ _))

/-- The number of a date. -/
def Date.toDay (d : Date) : ℤ := daysBeforeYear d.year + daysBeforeMonth d.year d.month + d.day - 1

/-! ## The date of a day -/

/-- The year of a day, and the day within the year, counted from zero. -/
def yearDay (n : ℤ) : ℤ × ℤ :=
  let n400 := n / 146097
  let d := n % 146097
  -- the last cycle of 100 years has one more leap year than the others
  let n100 := d / 36524 - d / 36524 / 4
  let d := d - 36524 * n100
  let n4 := d / 1461
  let d := d % 1461
  let n1 := d / 365 - d / 365 / 4
  (400 * n400 + 100 * n100 + 4 * n4 + n1 + 1, d - 365 * n1)

/-- The first of the months from `m` on to end after a day of the year, looking at `k` of them. -/
def monthFrom (year yday : ℤ) : ℕ → ℤ → ℤ
  | 0, m => m
  | k + 1, m => if yday < daysBeforeMonth year (m + 1) then m else monthFrom year yday k (m + 1)

/-- The month of a day of the year. -/
def monthOf (year yday : ℤ) : ℤ := monthFrom year yday 11 1

/-- The date of a day. -/
def Date.ofDay (n : ℤ) : Date :=
  let y := yearDay n
  let month := monthOf y.1 y.2
  ⟨y.1, month, y.2 - daysBeforeMonth y.1 month + 1⟩

/-! ## Years and months in order -/

theorem leapDay_nonneg (year : ℤ) : 0 ≤ leapDay year := by
  unfold leapDay
  split <;> decide

theorem leapDay_le_one (year : ℤ) : leapDay year ≤ 1 := by
  unfold leapDay
  split <;> decide

/-- A year begins where the one before it ends. -/
theorem daysBeforeYear_succ (year : ℤ) :
    daysBeforeYear (year + 1) = daysBeforeYear year + 365 + leapDay year := by
  unfold daysBeforeYear leapDay isLeap
  simp only [decide_eq_true_eq]
  split <;> omega

theorem daysBeforeYear_mono {a b : ℤ} (h : a ≤ b) : daysBeforeYear a ≤ daysBeforeYear b := by
  unfold daysBeforeYear
  omega

theorem daysBeforeMonth_mono (year : ℤ) {m n : ℤ} (h : m ≤ n) :
    daysBeforeMonth year m ≤ daysBeforeMonth year n := by
  have h0 := leapDay_nonneg year
  refine monotone_int_of_le_succ (fun m ↦ ?_) h
  rcases lt_or_ge m 1 with hm | hm
  · have hzero : ∀ k : ℤ, k ≤ 1 → daysBeforeMonth year k = 0 := fun k hk ↦ if_pos hk
    rw [hzero m hm.le, hzero (m + 1) hm]
  rcases lt_or_ge 12 m with hm' | hm'
  · have hlast : ∀ k : ℤ, 12 < k → daysBeforeMonth year k = leapDay year + 365 := by
      intro k hk
      unfold daysBeforeMonth
      rw [if_neg (by omega), if_neg (by omega)]
      congr 1
      repeat rw [if_neg (by omega)]
    rw [hlast m hm', hlast (m + 1) (by omega)]
  · unfold daysBeforeMonth
    interval_cases m
    all_goals
      norm_num
      try omega

/-- The days of a valid date's year up to and with the date. -/
theorem Date.Valid.day_le {d : Date} (h : d.Valid) :
    1 ≤ daysBeforeMonth d.year d.month + d.day ∧
      daysBeforeMonth d.year d.month + d.day ≤ daysBeforeMonth d.year (d.month + 1) ∧
      daysBeforeMonth d.year (d.month + 1) ≤ 365 + leapDay d.year := by
  obtain ⟨h1, h12, hd, hle⟩ := h
  have h13 : daysBeforeMonth d.year (d.month + 1) ≤ daysBeforeMonth d.year 13 :=
    daysBeforeMonth_mono _ (by omega)
  have h0 : daysBeforeMonth d.year 1 ≤ daysBeforeMonth d.year d.month := daysBeforeMonth_mono _ h1
  have hfirst : daysBeforeMonth d.year 1 = 0 := rfl
  have hlast : daysBeforeMonth d.year 13 = leapDay d.year + 365 := rfl
  unfold daysIn at hle
  omega

theorem Date.Valid.day_le_31 {d : Date} (h : d.Valid) : d.day ≤ 31 := by
  obtain ⟨h1, h12, -, hle⟩ := h
  refine hle.trans ?_
  have h0 := leapDay_nonneg d.year
  have hleap := leapDay_le_one d.year
  generalize d.month = m at *
  unfold daysIn daysBeforeMonth
  interval_cases m
  all_goals
    norm_num
    try omega

/-- The dates in their order. -/
def Date.Before (d e : Date) : Prop :=
  d.year < e.year ∨ d.year = e.year ∧ (d.month < e.month ∨ d.month = e.month ∧ d.day < e.day)

/-- **The numbers run through the valid dates in order.** -/
theorem Date.toDay_lt_toDay {d e : Date} (hd : d.Valid) (he : e.Valid) (h : d.Before e) :
    d.toDay < e.toDay := by
  obtain ⟨-, hdm, hdy⟩ := hd.day_le
  obtain ⟨hem, -, -⟩ := he.day_le
  unfold toDay
  rcases h with hy | ⟨hy, hm | ⟨hm, hday⟩⟩
  · have hnext : daysBeforeYear (d.year + 1) ≤ daysBeforeYear e.year := daysBeforeYear_mono hy
    rw [daysBeforeYear_succ] at hnext
    omega
  · have hnext : daysBeforeMonth e.year (d.month + 1) ≤ daysBeforeMonth e.year e.month :=
      daysBeforeMonth_mono _ hm
    rw [hy] at hdm ⊢
    have hday : 1 ≤ e.day := he.2.2.1
    omega
  · rw [hy, hm]
    omega

/-! ## Back and forth -/

/-- **The year of a day** contains it. -/
theorem yearDay_spec (n : ℤ) :
    daysBeforeYear (yearDay n).1 + (yearDay n).2 = n ∧ 0 ≤ (yearDay n).2 ∧
      (yearDay n).2 < 365 + leapDay (yearDay n).1 := by
  unfold yearDay
  dsimp only
  have hn : n = 146097 * (n / 146097) + n % 146097 := by omega
  have hr0 : 0 ≤ n % 146097 := by omega
  have hr1 : n % 146097 < 146097 := by omega
  generalize n / 146097 = a at *
  generalize n % 146097 = r at *
  -- the century, the four years and the year: each remainder is too long only on a leap day
  have hb : 0 ≤ r / 36524 - r / 36524 / 4 ∧ r / 36524 - r / 36524 / 4 ≤ 3 ∧
      0 ≤ r - 36524 * (r / 36524 - r / 36524 / 4) ∧
      r - 36524 * (r / 36524 - r / 36524 / 4) < 36524 +
        (if r / 36524 - r / 36524 / 4 = 3 then 1 else 0) := by
    split <;> omega
  generalize r / 36524 - r / 36524 / 4 = b at *
  have hd : r = 36524 * b + (r - 36524 * b) := by omega
  generalize r - 36524 * b = d at *
  have hc : d = 1461 * (d / 1461) + d % 1461 ∧ 0 ≤ d % 1461 ∧ d % 1461 < 1461 ∧
      0 ≤ d / 1461 ∧ d / 1461 ≤ 24 := by
    split at hb <;> omega
  generalize d / 1461 = c at *
  generalize d % 1461 = f at *
  have he : 0 ≤ f / 365 - f / 365 / 4 ∧ f / 365 - f / 365 / 4 ≤ 3 ∧
      0 ≤ f - 365 * (f / 365 - f / 365 / 4) ∧ f - 365 * (f / 365 - f / 365 / 4) < 365 +
        (if f / 365 - f / 365 / 4 = 3 then 1 else 0) := by
    split <;> omega
  generalize f / 365 - f / 365 / 4 = e at *
  have hleap : leapDay (400 * a + 100 * b + 4 * c + e + 1) =
      if e = 3 ∧ (c ≠ 24 ∨ b = 3) then 1 else 0 := by
    unfold leapDay isLeap
    simp only [decide_eq_true_eq]
    split_ifs <;> omega
  have h4 : (400 * a + 100 * b + 4 * c + e + 1 - 1) / 4 = 100 * a + 25 * b + c := by omega
  have h100 : (400 * a + 100 * b + 4 * c + e + 1 - 1) / 100 = 4 * a + b := by omega
  have h400 : (400 * a + 100 * b + 4 * c + e + 1 - 1) / 400 = a := by omega
  rw [hleap, daysBeforeYear, h4, h100, h400]
  refine ⟨by omega, he.2.2.1, ?_⟩
  split_ifs at * <;> omega

theorem monthFrom_spec {year yday : ℤ} (k : ℕ) {m : ℤ} (h0 : daysBeforeMonth year m ≤ yday)
    (h : yday < daysBeforeMonth year (m + k + 1)) :
    m ≤ monthFrom year yday k m ∧ monthFrom year yday k m ≤ m + k ∧
      daysBeforeMonth year (monthFrom year yday k m) ≤ yday ∧
      yday < daysBeforeMonth year (monthFrom year yday k m + 1) := by
  induction k generalizing m with
  | zero => simpa [monthFrom] using And.intro h0 h
  | succ k ih =>
    rw [monthFrom]
    split
    · rename_i hm
      exact ⟨le_rfl, by omega, h0, hm⟩
    · rename_i hm
      have hend : m + (k + 1 : ℕ) + 1 = m + 1 + k + 1 := by omega
      obtain ⟨hle, hge, hin⟩ := ih (not_lt.mp hm) (hend ▸ h)
      exact ⟨by omega, by push_cast; omega, hin⟩

/-- The month of a day of a year contains it. -/
theorem monthOf_spec {year yday : ℤ} (h0 : 0 ≤ yday) (h : yday < 365 + leapDay year) :
    1 ≤ monthOf year yday ∧ monthOf year yday ≤ 12 ∧
      daysBeforeMonth year (monthOf year yday) ≤ yday ∧
      yday < daysBeforeMonth year (monthOf year yday + 1) := by
  have hlast : daysBeforeMonth year 13 = leapDay year + 365 := rfl
  exact monthFrom_spec 11 h0 (by change yday < daysBeforeMonth year 13; omega)

theorem Date.valid_ofDay (n : ℤ) : (ofDay n).Valid := by
  obtain ⟨-, h0, h1⟩ := yearDay_spec n
  obtain ⟨hm1, hm12, hle, hlt⟩ := monthOf_spec h0 h1
  refine ⟨hm1, hm12, ?_, ?_⟩
  · change 1 ≤ (yearDay n).2 - daysBeforeMonth (yearDay n).1 (monthOf _ _) + 1
    omega
  · change (yearDay n).2 - daysBeforeMonth (yearDay n).1 (monthOf _ _) + 1 ≤
      daysBeforeMonth (yearDay n).1 (monthOf (yearDay n).1 (yearDay n).2 + 1) -
        daysBeforeMonth (yearDay n).1 (monthOf _ _)
    omega

@[simp] theorem Date.toDay_ofDay (n : ℤ) : (ofDay n).toDay = n := by
  obtain ⟨h, -, -⟩ := yearDay_spec n
  change daysBeforeYear (yearDay n).1 + daysBeforeMonth (yearDay n).1 (monthOf _ _) +
    ((yearDay n).2 - daysBeforeMonth (yearDay n).1 (monthOf _ _) + 1) - 1 = n
  omega

/-- Two dates are one, or one of them comes before the other. -/
theorem Date.eq_or_before (d e : Date) : d = e ∨ d.Before e ∨ e.Before d := by
  obtain ⟨y, m, a⟩ := d
  obtain ⟨y', m', a'⟩ := e
  simp only [Date.Before, Date.mk.injEq]
  omega

/-- **The dates of the days are in order.** -/
theorem Date.ofDay_before {m n : ℤ} (h : m < n) : (ofDay m).Before (ofDay n) := by
  rcases eq_or_before (ofDay m) (ofDay n) with heq | hlt | hgt
  · have := congrArg toDay heq
    rw [toDay_ofDay, toDay_ofDay] at this
    omega
  · exact hlt
  · have := toDay_lt_toDay (valid_ofDay n) (valid_ofDay m) hgt
    rw [toDay_ofDay, toDay_ofDay] at this
    omega

/-- `ofDay` undoes `toDay`. -/
theorem Date.ofDay_toDay {d : Date} (h : d.Valid) : ofDay d.toDay = d := by
  rcases eq_or_before (ofDay d.toDay) d with heq | hlt | hgt
  · exact heq
  · have := toDay_lt_toDay (valid_ofDay _) h hlt
    rw [toDay_ofDay] at this
    omega
  · have := toDay_lt_toDay h (valid_ofDay _) hgt
    rw [toDay_ofDay] at this
    omega

example : Date.ofDay 0 = ⟨1, 1, 1⟩ ∧ Date.ofDay 719162 = ⟨1970, 1, 1⟩ := by decide

end Calendar
