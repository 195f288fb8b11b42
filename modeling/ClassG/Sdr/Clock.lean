import ClassG.ForGo.Timestamp
import ClassG.ForRust.Utf8
import ClassG.Sdr.Stream

/-!
# The clock of the SDR sensor

`sensor-sdr/src/clock.rs` writes an instant as RFC 3339 on its own.  `civil_from_days` counts years
from March, so that the leap day is the last day of a year, and cycles of 400 years from the first
of March of year 0.

* `civilFromDays_tdiv` — nothing negative is divided in it, so rounding towards zero is rounding down.
* `civilFromDays_spec` — the date is one of the calendar, and it is the date of that day.
* `textOf_eq` — the text is that of the calendar's own fields of the instant.
* `rfc3339_ms_correct` — so it denotes the instant, and texts are in the order of their instants.
-/

set_option autoImplicit false

namespace ClassG.Sdr

open GoBytes Calendar RustText

/-! ## The date of a day -/

/-- The day before 1 January 1970, counted from 1 January of year 1. -/
def epochDay : ℤ := 719162

example : (⟨1970, 1, 1⟩ : Date).toDay = epochDay := by decide

/-- A day of a cycle of 400 years is in a century, in a cycle of four years of it, and in a year of
that.  The last century and the last cycle of most centuries are a day longer or shorter. -/
theorem exists_cycles {doe : ℤ} (h0 : 0 ≤ doe) (h : doe < 146097) :
    ∃ c q k r : ℤ, doe = 36524 * c + 1461 * q + 365 * k + r ∧ 0 ≤ c ∧ c ≤ 3 ∧ 0 ≤ q ∧ q ≤ 24 ∧
      0 ≤ k ∧ k ≤ 3 ∧ 0 ≤ r ∧ r ≤ 365 ∧ (r = 365 → k = 3 ∧ (q = 24 → c = 3)) := by
  rcases eq_or_lt_of_le (show doe ≤ 146096 by omega) with rfl | hlt
  · exact ⟨3, 24, 3, 365, by norm_num⟩
  obtain ⟨c, s, rfl, hs0, hs⟩ : ∃ c s, doe = 36524 * c + s ∧ 0 ≤ s ∧ s < 36524 :=
    ⟨doe / 36524, doe % 36524, by omega, by omega, by omega⟩
  obtain ⟨q, t, rfl, ht0, ht⟩ : ∃ q t, s = 1461 * q + t ∧ 0 ≤ t ∧ t < 1461 :=
    ⟨s / 1461, s % 1461, by omega, by omega, by omega⟩
  rcases eq_or_lt_of_le (show t ≤ 1460 by omega) with rfl | hlt'
  · exact ⟨c, q, 3, 365, by ring, by omega, by omega, by omega, by omega, by omega, by omega,
      by omega, by omega, fun _ ↦ ⟨rfl, fun hq ↦ by omega⟩⟩
  · obtain ⟨k, r, rfl, hr0, hr⟩ : ∃ k r, t = 365 * k + r ∧ 0 ≤ r ∧ r < 365 :=
      ⟨t / 365, t % 365, by omega, by omega, by omega⟩
    exact ⟨c, q, k, r, by ring, by omega, by omega, by omega, by omega, by omega, by omega,
      by omega, by omega, fun hr' ↦ absurd hr' (by omega)⟩

/-- The year of a cycle of 400 years that a day of it is in, both counted from March. -/
theorem yearOfEra_spec {doe : ℤ} (h0 : 0 ≤ doe) (h : doe < 146097) :
    ∃ yoe, (doe - doe / 1460 + doe / 36524 - doe / 146096) / 365 = yoe ∧ 0 ≤ yoe ∧ yoe ≤ 399 ∧
      0 ≤ doe - (365 * yoe + yoe / 4 - yoe / 100) ∧
      doe - (365 * yoe + yoe / 4 - yoe / 100) ≤ 365 ∧
      (doe - (365 * yoe + yoe / 4 - yoe / 100) = 365 →
        (yoe + 1) % 4 = 0 ∧ ((yoe + 1) % 100 ≠ 0 ∨ (yoe + 1) % 400 = 0)) := by
  obtain ⟨c, q, k, r, hdoe, hc0, hc, hq0, hq, hk0, hk, hr0, hr, hlast⟩ := exists_cycles h0 h
  have hquarter : (100 * c + 4 * q + k) / 4 = 25 * c + q := by clear hdoe; omega
  have hcentury : (100 * c + 4 * q + k) / 100 = c := by clear hdoe; omega
  have hrest : doe - (365 * (100 * c + 4 * q + k) + (100 * c + 4 * q + k) / 4 -
      (100 * c + 4 * q + k) / 100) = r := by
    rw [hquarter, hcentury, hdoe]
    ring
  refine ⟨100 * c + 4 * q + k, ?_, by omega, by omega, ?_⟩
  · clear hrest hquarter hcentury
    rcases eq_or_lt_of_le (show doe ≤ 146096 by omega) with rfl | hlt
    · clear h
      obtain rfl : c = 3 := by omega
      omega
    have hcent : doe / 36524 = c := by
      rw [Int.ediv_eq_iff_of_pos (by norm_num)]
      omega
    have hera : doe / 146096 = 0 := Int.ediv_eq_zero_of_lt h0 hlt
    -- The quotient by 1460 is one ahead at the end of a cycle of four years, where the day is not
    -- the first of its year.
    obtain ⟨e, he, hday⟩ : ∃ e, doe / 1460 = 25 * c + q + e ∧ 0 ≤ r - e ∧ r - e < 365 := by
      by_cases hend : 24 * c + q + 365 * k + r < 1460
      · refine ⟨0, ?_, by omega, by omega⟩
        rw [Int.ediv_eq_iff_of_pos (by norm_num)]
        omega
      · refine ⟨1, ?_, by omega, by omega⟩
        rw [Int.ediv_eq_iff_of_pos (by norm_num)]
        omega
    have hsum : doe - doe / 1460 + c - 0 = 365 * (100 * c + 4 * q + k) + (r - e) := by
      rw [he, hdoe]
      ring
    rw [hcent, hera, hsum]
    omega
  · rw [hrest]
    refine ⟨hr0, hr, fun hleap ↦ ?_⟩
    obtain ⟨rfl, hq⟩ := hlast hleap
    clear hdoe hrest hquarter hcentury
    omega

/-- The month of a day of a year that begins in March, and the day within it: the months from March
on have the days that they have in every year, and only the last, February, is that of the next. -/
theorem march_spec {y doy mp : ℤ} (hmp : (5 * doy + 2) / 153 = mp) (h0 : 0 ≤ doy) (h : doy ≤ 365)
    (hleap : doy = 365 → isLeap (y + 1)) :
    let d := doy - (153 * mp + 2) / 5 + 1
    let date : Date := if mp < 10 then ⟨y, mp + 3, d⟩ else ⟨y + 1, mp - 9, d⟩
    date.Valid ∧ date.toDay = daysBeforeYear (y + 1) + doy - 306 := by
  have hyear := daysBeforeYear_succ y
  have hnext : leapDay (y + 1) = if doy = 365 then 1 else leapDay (y + 1) := by
    split
    · rename_i hlast
      rw [leapDay, if_pos (hleap hlast)]
    · rfl
  have hleap0 := leapDay_nonneg (y + 1)
  have hmp0 : 0 ≤ mp := by omega
  have hmp11 : mp ≤ 11 := by omega
  dsimp only
  interval_cases mp <;> simp [Date.Valid, Date.toDay, daysIn, daysBeforeMonth] <;> omega

/-- The days before the year that the March year `yoe` of a cycle ends in. -/
theorem daysBeforeYear_era {yoe : ℤ} (era : ℤ) (h0 : 0 ≤ yoe) (h : yoe ≤ 399) :
    daysBeforeYear (yoe + era * 400 + 1) = 146097 * era + (365 * yoe + yoe / 4 - yoe / 100) := by
  rw [daysBeforeYear]
  omega

/-- What `civil_from_days` computes on the way to a date: the cycle of 400 years, the day of it, the
year of it, the day of that year, and its month, all of them counted from March. -/
structure MarchDate (days era doe yoe doy mp : ℤ) : Prop where
  era_eq : (days + 719468) / 146097 = era
  doe_eq : (days + 719468) % 146097 = doe
  yoe_eq : (doe - doe / 1460 + doe / 36524 - doe / 146096) / 365 = yoe
  doy_eq : doe - (365 * yoe + yoe / 4 - yoe / 100) = doy
  mp_eq : (5 * doy + 2) / 153 = mp
  doe_nonneg : 0 ≤ doe
  /-- What the year is found from is not negative. -/
  days_nonneg : 0 ≤ doe - doe / 1460 + doe / 36524 - doe / 146096
  yoe_nonneg : 0 ≤ yoe
  yoe_le : yoe ≤ 399
  doy_nonneg : 0 ≤ doy
  doy_le : doy ≤ 365
  leap : doy = 365 → isLeap (yoe + era * 400 + 1)

theorem exists_marchDate (days : ℤ) : ∃ era doe yoe doy mp, MarchDate days era doe yoe doy mp := by
  obtain ⟨doe, hdoe⟩ : ∃ doe, (days + 719468) % 146097 = doe := ⟨_, rfl⟩
  have h0 : 0 ≤ doe := by omega
  obtain ⟨yoe, hyoe, hyoe0, hyoe', hdoy0, hdoy, hleap⟩ := yearOfEra_spec h0 (by omega)
  have hnum : 0 ≤ doe - doe / 1460 + doe / 36524 - doe / 146096 := by
    clear hyoe hleap hdoy hdoy0
    omega
  refine ⟨_, doe, yoe, _, _, rfl, hdoe, hyoe, rfl, rfl, h0, hnum, hyoe0, hyoe', hdoy0, hdoy,
    fun hlast ↦ ?_⟩
  have hcycle := hleap hlast
  rw [isLeap, decide_eq_true_eq]
  omega

/-- The divisions of `civil_from_days` may round towards zero, as they do in Rust. -/
theorem civilFromDays_tdiv (days : ℤ) :
    civilFromDays days =
      let z := days + 719468
      let era := z / 146097
      let doe := z % 146097
      let yoe := (doe - doe.tdiv 1460 + doe.tdiv 36524 - doe.tdiv 146096).tdiv 365
      let doy := doe - (365 * yoe + yoe.tdiv 4 - yoe.tdiv 100)
      let mp := (5 * doy + 2).tdiv 153
      let m := if mp < 10 then mp + 3 else mp - 9
      (if m ≤ 2 then yoe + era * 400 + 1 else yoe + era * 400, m,
        doy - (153 * mp + 2).tdiv 5 + 1) := by
  obtain ⟨era, doe, yoe, doy, mp, h⟩ := exists_marchDate days
  have hdoy := h.doy_nonneg
  have hmp := h.mp_eq
  simp only [civilFromDays, h.era_eq, h.doe_eq, Int.tdiv_eq_ediv_of_nonneg h.doe_nonneg,
    Int.tdiv_eq_ediv_of_nonneg h.days_nonneg, h.yoe_eq,
    Int.tdiv_eq_ediv_of_nonneg h.yoe_nonneg, h.doy_eq,
    Int.tdiv_eq_ediv_of_nonneg (show 0 ≤ 5 * doy + 2 by omega), hmp,
    Int.tdiv_eq_ediv_of_nonneg (show 0 ≤ 153 * mp + 2 by omega)]

/-- A year, a month and a day as a date. -/
def dateOf (civil : ℤ × ℤ × ℤ) : Date := ⟨civil.1, civil.2.1, civil.2.2⟩

/-- **The date of a day** is one of the calendar, and of no other day. -/
theorem civilFromDays_spec (days : ℤ) :
    (dateOf (civilFromDays days)).Valid ∧
      (dateOf (civilFromDays days)).toDay = days + epochDay := by
  obtain ⟨era, doe, yoe, doy, mp, h⟩ := exists_marchDate days
  have hdoy0 := h.doy_nonneg
  have hdoy := h.doy_le
  have hmp := h.mp_eq
  have hspec := march_spec (y := yoe + era * 400) hmp hdoy0 hdoy h.leap
  have hcivil : dateOf (civilFromDays days) =
      if mp < 10 then ⟨yoe + era * 400, mp + 3, doy - (153 * mp + 2) / 5 + 1⟩
      else ⟨yoe + era * 400 + 1, mp - 9, doy - (153 * mp + 2) / 5 + 1⟩ := by
    simp only [dateOf, civilFromDays, h.era_eq, h.doe_eq, h.yoe_eq, h.doy_eq, hmp]
    split <;> rename_i hlate
    · rw [if_neg (by omega)]
    · rw [if_pos (by omega)]
  have hdays : days + 719468 = 146097 * era + doe := by
    have hera := h.era_eq
    have hdoe := h.doe_eq
    omega
  rw [hcivil]
  refine ⟨hspec.1, hspec.2.trans ?_⟩
  rw [daysBeforeYear_era era h.yoe_nonneg h.yoe_le, epochDay, ← h.doy_eq]
  linarith only [hdays]

/-- The date of a day is that of the calendar. -/
theorem civilFromDays_eq (days : ℤ) :
    dateOf (civilFromDays days) = Date.ofDay (days + epochDay) := by
  obtain ⟨hvalid, hday⟩ := civilFromDays_spec days
  rw [← hday, Date.ofDay_toDay hvalid]

/-! ## The text of an instant -/

/-- The instant of a number of milliseconds since 1970, as nanoseconds since year 1. -/
def instant (epochMs : ℤ) : ℤ := (epochMs + epochDay * 86400000) * 1000000

/-- The year of the instant is one of the years 0 to 9999. -/
def InYears (epochMs : ℤ) : Prop := GoTime.InRange (instant epochMs)

instance (epochMs : ℤ) : Decidable (InYears epochMs) := inferInstanceAs (Decidable (_ ∧ _))

/-- The bytes of the text. -/
def textOf (epochMs : ℤ) : GoBytes := asBytes (rfc3339Ms epochMs).toList

theorem decimals_succ_div (w n : ℕ) : decimals (w + 1) n = decimals w (n / 10) ++ [digit n] := by
  induction w with
  | zero => rw [decimals, decimals, decimals, pow_zero, Nat.div_one, List.nil_append]
  | succ w ih =>
    rw [decimals, ih, decimals, List.cons_append, Nat.div_div_eq_div_mul, pow_succ']

theorem charBytes_digitChar : ∀ d < 10, charBytes (Nat.digitChar d) = [digit d] := by decide

theorem asBytes_zeros (w : ℕ) : asBytes (List.replicate w '0') = decimals w 0 := by
  induction w with
  | zero => rfl
  | succ w ih =>
    rw [List.replicate_succ, asBytes_cons, ih, decimals, Nat.zero_div]
    rfl

/-- Digits behind zeros, as many as are missing. -/
theorem asBytes_zeros_digits {w n : ℕ} (hw : 0 < w) (h : n < 10 ^ w) :
    asBytes (List.replicate (w - (Nat.toDigits 10 n).length) '0' ++ Nat.toDigits 10 n) =
      decimals w n := by
  induction w generalizing n with
  | zero => exact absurd hw (lt_irrefl 0)
  | succ w ih =>
    by_cases hn : n < 10
    · rw [Nat.toDigits_of_lt_base hn, asBytes_append, decimals_succ_div, Nat.div_eq_of_lt hn,
        ← asBytes_zeros, asBytes_cons, charBytes_digitChar n hn]
      rfl
    · have hw' : 0 < w := by
        rcases Nat.eq_zero_or_pos w with rfl | hpos
        · exact absurd h (by omega)
        · exact hpos
      have hdigit := charBytes_digitChar (n % 10) (Nat.mod_lt n (by norm_num))
      rw [Nat.toDigits_of_base_le (by norm_num) (by omega), List.length_append,
        List.length_singleton, Nat.add_sub_add_right, ← List.append_assoc, asBytes_append,
        ih hw' (by rw [pow_succ] at h; omega), decimals_succ_div, asBytes_cons, hdigit,
        digit_inj.2 (Nat.mod_mod n 10)]
      rfl

theorem toList_pad (w n : ℕ) :
    (pad w n).toList =
      List.replicate (w - (Nat.toDigits 10 n).length) '0' ++ Nat.toDigits 10 n := by
  have hnonneg : ¬(n : ℤ) < 0 := by omega
  have hdigits : (toString n).toList = Nat.toDigits 10 n := Nat.toList_repr
  simp only [pad, if_neg hnonneg, Int.natAbs_natCast, hdigits, String.toList_ofList,
    List.nil_append, List.length_nil, Nat.sub_zero]

theorem asBytes_pad {w : ℕ} {n : ℤ} (hw : 0 < w) (h0 : 0 ≤ n) (h : n < 10 ^ w) :
    asBytes (pad w n).toList = decimals w n.toNat := by
  obtain ⟨m, rfl⟩ := Int.eq_ofNat_of_zero_le h0
  rw [toList_pad, Int.toNat_natCast]
  exact asBytes_zeros_digits hw (by exact_mod_cast h)

theorem civilFromDays_instant (e : ℤ) :
    dateOf (civilFromDays (e / 86400000)) = (GoTime.stamp (instant e)).date := by
  have hday : instant e / GoTime.day = e / 86400000 + epochDay := by
    rw [instant, GoTime.day, epochDay]
    omega
  rw [civilFromDays_eq, ← hday]
  rfl

/-- **The text is that of the calendar's fields of the instant.** -/
theorem textOf_eq {e : ℤ} (h : InYears e) :
    textOf e = GoTime.formatSeconds (GoTime.stamp (instant e)) ++
      46 :: decimals 3 (e % 1000).toNat ++ [90] := by
  have hb := GoTime.date_bounds h
  have hrem : instant e % GoTime.day = e % 86400000 * 1000000 := by
    rw [instant, GoTime.day, epochDay]
    omega
  have hhour : e % 86400000 / 3600000 = (GoTime.stamp (instant e)).hour := by
    simp only [GoTime.stamp, hrem]
    omega
  have hminute : e % 86400000 / 60000 % 60 = (GoTime.stamp (instant e)).minute := by
    simp only [GoTime.stamp, hrem]
    omega
  have hsecond : e % 86400000 / 1000 % 60 = (GoTime.stamp (instant e)).second := by
    simp only [GoTime.stamp, hrem]
    omega
  have hmilli : e % 86400000 % 1000 = e % 1000 := by omega
  have hc := GoTime.stamp_bounds (instant e)
  have hdate := civilFromDays_instant e
  have hyear : (civilFromDays (e / 86400000)).1 = (GoTime.stamp (instant e)).date.year :=
    congrArg Date.year hdate
  have hmonth : (civilFromDays (e / 86400000)).2.1 = (GoTime.stamp (instant e)).date.month :=
    congrArg Date.month hdate
  have hday : (civilFromDays (e / 86400000)).2.2 = (GoTime.stamp (instant e)).date.day :=
    congrArg Date.day hdate
  rw [textOf, rfc3339Ms]
  simp only [hyear, hmonth, hday, hhour, hminute, hsecond, hmilli]
  generalize GoTime.stamp (instant e) = s at hb hc ⊢
  rw [GoTime.formatSeconds, GoTime.appendInt_of_range hb.1 hb.2.1]
  simp only [String.toList_append, asBytes_append]
  rw [asBytes_pad (w := 4) (by norm_num) (by omega) (by omega),
    asBytes_pad (w := 2) (by norm_num) (by omega) (by omega),
    asBytes_pad (w := 2) (by norm_num) (by omega) (by omega),
    asBytes_pad (w := 2) (by norm_num) (by omega) (by omega),
    asBytes_pad (w := 2) (by norm_num) (by omega) (by omega),
    asBytes_pad (w := 2) (by norm_num) (by omega) (by omega),
    asBytes_pad (w := 3) (by norm_num) (by omega) (by omega)]
  have hmark : asBytes "-".toList = [45] ∧ asBytes "T".toList = [84] ∧ asBytes ":".toList = [58] ∧
      asBytes ".".toList = [46] ∧ asBytes "Z".toList = [90] := by decide
  simp only [hmark, List.append_assoc, List.cons_append, List.nil_append]

/-- The text is an RFC 3339 date-time with milliseconds, and it denotes the instant. -/
def Denotes (text : GoBytes) (date : Date) (epochMs : ℤ) : Prop :=
  date.Valid ∧ 0 ≤ date.year ∧ date.year ≤ 9999 ∧
    ∃ hour minute second milli : ℕ, hour < 24 ∧ minute < 60 ∧ second < 60 ∧ milli < 1000 ∧
      text = decimals 4 date.year.toNat ++ 45 :: decimals 2 date.month.toNat ++
        45 :: decimals 2 date.day.toNat ++ 84 :: decimals 2 hour ++ 58 :: decimals 2 minute ++
        58 :: decimals 2 second ++ 46 :: decimals 3 milli ++ [90] ∧
      epochMs = (date.toDay - epochDay) * 86400000 + hour * 3600000 + minute * 60000 +
        second * 1000 + milli

theorem denotes_textOf {e : ℤ} (h : InYears e) :
    Denotes (textOf e) (dateOf (civilFromDays (e / 86400000))) e := by
  have hvalid := (civilFromDays_spec (e / 86400000)).1
  have hb := GoTime.date_bounds h
  have hc := GoTime.stamp_bounds (instant e)
  have hstamp := GoTime.ofStamp_stamp (instant e)
  have hnanos := GoTime.stamp_nanos (instant e)
  rw [civilFromDays_instant] at hvalid ⊢
  rw [textOf_eq h]
  generalize GoTime.stamp (instant e) = s at *
  refine ⟨hvalid, hb.1, hb.2.1, s.hour.toNat, s.minute.toNat, s.second.toNat, (e % 1000).toNat,
    by omega, by omega, by omega, by omega, ?_, ?_⟩
  · rw [GoTime.formatSeconds, GoTime.appendInt_of_range hb.1 hb.2.1]
  · rw [GoTime.ofStamp, instant, GoTime.day] at hstamp
    rw [instant] at hnanos
    omega

/-- The texts are in the order of the instants. -/
theorem textOf_lt {e e' : ℤ} (h : InYears e) (h' : InYears e') (hlt : e < e') :
    textOf e < textOf e' := by
  rw [textOf_eq h, textOf_eq h', List.append_assoc, List.append_assoc]
  refine GoTime.formatSeconds_append_lt h h' (by rw [instant, instant]; omega) fun hsecond ↦ ?_
  rw [instant, instant] at hsecond
  rw [List.cons_append, List.cons_append, cons_lt_cons,
    decimals_toNat_append_lt (by omega) (by omega)]
  omega

/-- **The clock is right for every instant of the years 0 to 9999.**  The text is a date-time of the
calendar and denotes the instant, so no two instants have one text; and texts compare as their
instants do. -/
theorem rfc3339_ms_correct :
    (∀ e, InYears e → Denotes (textOf e) (dateOf (civilFromDays (e / 86400000))) e) ∧
    (∀ e e', InYears e → InYears e' → rfc3339Ms e = rfc3339Ms e' → e = e') ∧
    ∀ e e', InYears e → InYears e' → e < e' → textOf e < textOf e' := by
  refine ⟨fun e h ↦ denotes_textOf h, fun e e' h h' heq ↦ ?_, fun e e' h h' ↦ textOf_lt h h'⟩
  have htext : textOf e = textOf e' := by rw [textOf, textOf, heq]
  rcases lt_trichotomy e e' with hlt | rfl | hlt
  · exact absurd htext (textOf_lt h h' hlt).ne
  · rfl
  · exact absurd htext (textOf_lt h' h hlt).ne'

example : rfc3339Ms 951782400000 = "2000-02-29T00:00:00.000Z" := by decide

theorem epoch_denoted : Denotes (textOf 0) (dateOf (civilFromDays 0)) 0 :=
  rfc3339_ms_correct.1 0 (by decide)

end ClassG.Sdr
