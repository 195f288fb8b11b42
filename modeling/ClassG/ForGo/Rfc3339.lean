import Mathlib.Data.Rat.Floor
import Mathlib.Tactic.Linarith
import Mathlib.Tactic.Positivity
import ClassG.ForGo.Timestamp

/-!
# The texts that are timestamps

`Parse` reads more than RFC 3339 has: an hour of one digit, and a comma before the fraction.
`Written` is a timestamp as it may be written, with the instant that it stands for, which need not
be a whole number of nanoseconds.

* `parseRFC3339Nano_eq_some_iff`: what is read is a written timestamp, and all of these are read, as
  the instant they stand for to the nanosecond.
* `isSome_parse_formatRFC3339Nano`: what `Format` writes is one only in the years 0 to 9999.

Each reader has its own equation, of what it reads and what it leaves.
-/

set_option autoImplicit false

namespace GoBytes

/-- The byte is a decimal digit. -/
def IsDigit (b : Byte) : Prop := (digitValue b).isSome

instance (b : Byte) : Decidable (IsDigit b) := inferInstanceAs (Decidable (_ = _))

theorem digitValue_eq_some {b : Byte} {d : ℕ} (h : digitValue b = some d) : d < 10 ∧ b = digit d := by
  unfold digitValue at h
  split at h
  · cases h
    refine ⟨by omega, Fin.ext ?_⟩
    rw [digit_val]
    omega
  · cases h

theorem isDigit_digit (n : ℕ) : IsDigit (digit n) := by simp [IsDigit]

/-- What is beyond the width of some decimals does not show in them. -/
theorem decimals_add_mul (w k n : ℕ) : decimals w (k * 10 ^ w + n) = decimals w n := by
  induction w generalizing k with
  | zero => rfl
  | succ w ih =>
    have hpow : k * 10 ^ (w + 1) = k * 10 * 10 ^ w := by rw [pow_succ]; ring
    rw [decimals, decimals, hpow, ih]
    congr 1
    rw [digit_inj, mul_comm (k * 10), Nat.mul_add_div (by positivity)]
    omega

/-- A text of digits is the decimals of its value. -/
theorem value_eq_some {s : GoBytes} {n : ℕ} (h : value s = some n) :
    n < 10 ^ s.length ∧ s = decimals s.length n := by
  induction s generalizing n with
  | nil =>
    cases h
    exact ⟨by simp, rfl⟩
  | cons b s ih =>
    simp only [value, Option.bind_eq_bind, Option.bind_eq_some_iff, Option.pure_def,
      Option.some.injEq] at h
    obtain ⟨d, hd, m, hm, rfl⟩ := h
    obtain ⟨hd10, rfl⟩ := digitValue_eq_some hd
    obtain ⟨hlt, hs⟩ := ih hm
    have hdiv : (d * 10 ^ s.length + m) / 10 ^ s.length = d := by
      rw [mul_comm, Nat.mul_add_div (by positivity), Nat.div_eq_of_lt hlt, Nat.add_zero]
    refine ⟨?_, ?_⟩
    · rw [List.length_cons, pow_succ]
      have : (d + 1) * 10 ^ s.length ≤ 10 * 10 ^ s.length := Nat.mul_le_mul_right _ hd10
      rw [Nat.add_mul] at this
      omega
    · rw [List.length_cons, decimals, hdiv, decimals_add_mul, ← hs]

/-- The value of digits and more digits. -/
theorem value_append {s t : GoBytes} {m n : ℕ} (hs : value s = some m) (ht : value t = some n) :
    value (s ++ t) = some (m * 10 ^ t.length + n) := by
  induction s generalizing m with
  | nil =>
    cases hs
    simpa using ht
  | cons b s ih =>
    simp only [value, Option.bind_eq_bind, Option.bind_eq_some_iff, Option.pure_def,
      Option.some.injEq] at hs
    obtain ⟨d, hd, k, hk, rfl⟩ := hs
    rw [List.cons_append, value, hd, ih hk]
    simp only [Option.bind_eq_bind, Option.bind_some, Option.pure_def, List.length_append, pow_add]
    congr 1
    ring

/-- Digits have a value. -/
theorem exists_value {s : GoBytes} (h : ∀ b ∈ s, IsDigit b) : ∃ n, value s = some n := by
  induction s with
  | nil => exact ⟨0, rfl⟩
  | cons b s ih =>
    obtain ⟨n, hn⟩ := ih fun b hb ↦ h b (List.mem_cons_of_mem _ hb)
    obtain ⟨d, hd⟩ := Option.isSome_iff_exists.mp (h b List.mem_cons_self)
    exact ⟨d * 10 ^ s.length + n, by simp [value, hd, hn]⟩

end GoBytes

namespace GoTime

open GoBytes Calendar

/-! ## The readers -/

theorem skip_eq_some {b : Byte} {s s' : GoBytes} : skip b s = some s' ↔ s = b :: s' := by
  cases s with
  | nil => simp [skip]
  | cons c s =>
    rw [skip]
    split
    · rename_i h
      simp [h, eq_comm]
    · rename_i h
      simp [h]

theorem takeYear_eq_some {s s' : GoBytes} {n : ℕ} :
    takeYear s = some (n, s') ↔ n < 10 ^ 4 ∧ s = decimals 4 n ++ s' := by
  constructor
  · intro h
    rw [takeYear] at h
    split at h
    · cases h
    · obtain ⟨m, hm, heq⟩ := Option.map_eq_some_iff.mp h
      cases heq
      obtain ⟨hlt, hs⟩ := value_eq_some hm
      rw [List.length_take_of_le (by omega)] at hlt hs
      exact ⟨hlt, by rw [← hs, List.take_append_drop]⟩
  · rintro ⟨hlt, rfl⟩
    exact takeYear_decimals hlt s'

theorem getnum_true_eq_some {s s' : GoBytes} {n : ℕ} :
    getnum true s = some (n, s') ↔ n < 100 ∧ s = decimals 2 n ++ s' := by
  constructor
  · intro h
    cases s with
    | nil => cases h
    | cons b s =>
      simp only [getnum, Option.bind_eq_bind, Option.bind_eq_some_iff] at h
      obtain ⟨d, hd, h⟩ := h
      obtain ⟨hd10, rfl⟩ := digitValue_eq_some hd
      cases s with
      | nil => simp at h
      | cons c s =>
        cases hc : digitValue c with
        | none => simp [hc] at h
        | some e =>
          obtain ⟨he10, rfl⟩ := digitValue_eq_some hc
          simp only [hc, Option.some.injEq, Prod.mk.injEq] at h
          obtain ⟨rfl, rfl⟩ := h
          refine ⟨by omega, ?_⟩
          rw [decimals_two]
          congr 1
          · rw [digit_inj]
            omega
          · congr 1
            rw [digit_inj]
            omega
  · rintro ⟨hlt, rfl⟩
    exact getnum_decimals true hlt s'

/-- An hour as it may be written, with what follows it. -/
theorem getnum_false_eq_some {s s' : GoBytes} {n : ℕ} (hs' : ∀ b ∈ s'.head?, ¬ IsDigit b) :
    getnum false s = some (n, s') ↔
      n < 100 ∧ s = decimals 2 n ++ s' ∨ n < 10 ∧ s = digit n :: s' := by
  constructor
  · intro h
    cases s with
    | nil => cases h
    | cons b s =>
      simp only [getnum, Option.bind_eq_bind, Option.bind_eq_some_iff] at h
      obtain ⟨d, hd, h⟩ := h
      obtain ⟨hd10, rfl⟩ := digitValue_eq_some hd
      cases s with
      | nil =>
        simp only [Bool.false_eq_true, if_false, Option.some.injEq, Prod.mk.injEq] at h
        obtain ⟨rfl, rfl⟩ := h
        exact .inr ⟨hd10, rfl⟩
      | cons c s =>
        cases hc : digitValue c with
        | none =>
          simp only [hc, Bool.false_eq_true, if_false, Option.some.injEq, Prod.mk.injEq] at h
          obtain ⟨rfl, rfl⟩ := h
          exact .inr ⟨hd10, rfl⟩
        | some e =>
          obtain ⟨he10, rfl⟩ := digitValue_eq_some hc
          simp only [hc, Option.some.injEq, Prod.mk.injEq] at h
          obtain ⟨rfl, rfl⟩ := h
          refine .inl ⟨by omega, ?_⟩
          rw [decimals_two]
          congr 1
          · rw [digit_inj]
            omega
          · congr 1
            rw [digit_inj]
            omega
  · rintro (⟨hlt, rfl⟩ | ⟨hlt, rfl⟩)
    · exact getnum_decimals false hlt s'
    · cases s' with
      | nil => simp [getnum, Nat.mod_eq_of_lt hlt]
      | cons c s =>
        have hc : digitValue c = none := by simpa [IsDigit] using hs' c rfl
        simp [getnum, hc, Nat.mod_eq_of_lt hlt]

/-! ## Fractions -/

/-- The fraction of a second, as it may be written. -/
structure Fraction where
  separator : Byte
  digits : GoBytes
  separates : commaOrPeriod separator
  nonempty : digits ≠ []
  isDigit : ∀ b ∈ digits, IsDigit b

namespace Fraction

/-- The text of a fraction, if there is one. -/
def text : Option Fraction → GoBytes
  | none => []
  | some f => f.separator :: f.digits

/-- How many nanoseconds it is. -/
def nanos : Option Fraction → ℚ
  | none => 0
  | some f => (value f.digits).getD 0 * 10 ^ 9 / 10 ^ f.digits.length

end Fraction

/-- The digits after the ninth do not count. -/
theorem nanosOf_eq {ds : GoBytes} (h : ∀ b ∈ ds, IsDigit b) :
    ∃ n : ℕ, nanosOf ds = some n ∧ (n : ℤ) = ⌊((value ds).getD 0 : ℚ) * 10 ^ 9 / 10 ^ ds.length⌋ := by
  obtain ⟨m, hm⟩ := exists_value fun b hb ↦ h b (List.mem_of_mem_take (i := 9) hb)
  obtain ⟨k, hk⟩ := exists_value fun b hb ↦ h b (List.mem_of_mem_drop (i := 9) hb)
  have hvalue : value ds = some (m * 10 ^ (ds.length - 9) + k) := by
    have := value_append hm hk
    rwa [List.take_append_drop, List.length_drop] at this
  have hlt : k < 10 ^ (ds.length - 9) := by
    have := (value_eq_some hk).1
    rwa [List.length_drop] at this
  refine ⟨m * 10 ^ (9 - min 9 ds.length), by rw [nanosOf, hm, Option.map_some], ?_⟩
  rw [hvalue, Option.getD_some]
  symm
  rw [Int.floor_eq_iff, le_div_iff₀ (by positivity), div_lt_iff₀ (by positivity)]
  rcases Nat.lt_or_ge 9 ds.length with hlong | hshort
  · obtain ⟨j, hj⟩ : ∃ j, ds.length = 9 + j := ⟨ds.length - 9, by omega⟩
    rw [hj, Nat.add_sub_cancel_left] at hlt ⊢
    have hk' : (k : ℚ) < 10 ^ j := by exact_mod_cast hlt
    have hk0 : (0 : ℚ) ≤ k := Nat.cast_nonneg k
    rw [min_eq_left (by omega), pow_add]
    push_cast
    constructor <;> nlinarith
  · obtain ⟨j, hj⟩ : ∃ j, 9 = ds.length + j := ⟨9 - ds.length, by omega⟩
    have hk0 : k = 0 := by
      rw [Nat.sub_eq_zero_of_le hshort, pow_zero] at hlt
      omega
    have hsub : 9 - min 9 ds.length = j := by omega
    rw [hsub, hk0, Nat.sub_eq_zero_of_le hshort]
    generalize ds.length = l at *
    have hpow : (10 : ℚ) ^ 9 = 10 ^ l * 10 ^ j := by rw [hj, pow_add]
    push_cast
    rw [hpow]
    constructor
    · exact le_of_eq (by ring)
    · have hpos : (0 : ℚ) < 10 ^ l := by positivity
      nlinarith

/-- What is read as a fraction. -/
theorem anyFraction_sound {s s' : GoBytes} {n : ℕ} (h : anyFraction s = some (n, s')) :
    ∃ f, s = Fraction.text f ++ s' ∧ (n : ℤ) = ⌊Fraction.nanos f⌋ := by
  match s with
  | [] | [_] =>
    cases h
    exact ⟨none, rfl, by simp [Fraction.nanos]⟩
  | b :: c :: s =>
    rw [anyFraction] at h
    split at h
    · rename_i hbc
      obtain ⟨m, hm, heq⟩ := Option.map_eq_some_iff.mp h
      cases heq
      have hc : IsDigit c := hbc.2
      have hdigits : ∀ d ∈ (c :: s).takeWhile fun d ↦ (digitValue d).isSome, IsDigit d :=
        fun d hd ↦ by simpa [IsDigit] using List.mem_takeWhile_imp hd
      obtain ⟨k, hk, hfloor⟩ := nanosOf_eq hdigits
      refine ⟨some ⟨b, _, hbc.1, ?_, hdigits⟩, ?_, ?_⟩
      · rw [List.takeWhile_cons_of_pos (by simpa [IsDigit] using hc)]
        exact List.cons_ne_nil _ _
      · rw [Fraction.text, List.cons_append, List.takeWhile_append_dropWhile]
      · rw [hk] at hm
        cases hm
        exact hfloor
    · cases h
      exact ⟨none, rfl, by simp [Fraction.nanos]⟩

/-- A fraction is read. -/
theorem anyFraction_text (f : Option Fraction) {s : GoBytes}
    (hs : ∀ b ∈ s.head?, ¬ IsDigit b ∧ ¬ commaOrPeriod b) :
    ∃ n : ℕ, anyFraction (Fraction.text f ++ s) = some (n, s) ∧ (n : ℤ) = ⌊Fraction.nanos f⌋ := by
  cases f with
  | none =>
    refine ⟨0, ?_, by simp [Fraction.nanos]⟩
    match s with
    | [] | [_] => rfl
    | b :: c :: s =>
      rw [Fraction.text, List.nil_append, anyFraction, if_neg fun h ↦ (hs b rfl).2 h.1]
  | some f =>
    obtain ⟨sep, ds, hsep, hne, hdigits⟩ := f
    obtain ⟨n, hn, hfloor⟩ := nanosOf_eq hdigits
    refine ⟨n, ?_, hfloor⟩
    cases ds with
    | nil => exact absurd rfl hne
    | cons c ds =>
      have hc : (digitValue c).isSome := hdigits c List.mem_cons_self
      have hstop : s.takeWhile (fun d ↦ (digitValue d).isSome) = [] ∧
          s.dropWhile (fun d ↦ (digitValue d).isSome) = s := by
        cases s with
        | nil => exact ⟨rfl, rfl⟩
        | cons b s =>
          have hb : (digitValue b).isSome = false := by simpa [IsDigit] using (hs b rfl).1
          simp [hb]
      rw [Fraction.text, List.cons_append, List.cons_append, anyFraction, if_pos ⟨hsep, hc⟩,
        ← List.cons_append]
      dsimp only
      rw [List.takeWhile_append_of_pos hdigits, List.dropWhile_append_of_pos hdigits, hstop.1,
        hstop.2, List.append_nil, hn, Option.map_some]

/-! ## Zones -/

/-- A distance from UTC, as it may be written. -/
structure Offset where
  negative : Bool
  hour : ℕ
  minute : ℕ
  hour_le : hour ≤ 24
  minute_le : minute ≤ 60

namespace Offset

/-- The text of an offset, or of UTC. -/
def text : Option Offset → GoBytes
  | none => [90]
  | some o => (if o.negative then 45 else 43) :: decimals 2 o.hour ++ 58 :: decimals 2 o.minute

/-- How many seconds it is. -/
def seconds : Option Offset → ℤ
  | none => 0
  | some o => if o.negative then -((o.hour * 60 + o.minute) * 60) else (o.hour * 60 + o.minute) * 60

end Offset

/-- What is read as a zone at the end of a text. -/
theorem parseZone_eq_some {s : GoBytes} {offset : ℤ} :
    parseZone s = some (offset, []) ↔ ∃ o, s = Offset.text o ∧ offset = Offset.seconds o := by
  constructor
  · intro h
    unfold parseZone at h
    split at h
    · cases h
      exact ⟨none, rfl, rfl⟩
    · rename_i sign a a' b b' rest hs
      simp only [Option.bind_eq_bind, Option.bind_eq_some_iff, Prod.exists] at h
      obtain ⟨hour, r, hhour, minute, r', hminute, u, hguard, h⟩ := h
      obtain ⟨hhour100, hhour⟩ := getnum_true_eq_some.mp hhour
      obtain ⟨hminute100, hminute⟩ := getnum_true_eq_some.mp hminute
      have hr : r = [] := by
        have := congrArg List.length hhour
        simpa using this
      have hr' : r' = [] := by
        have := congrArg List.length hminute
        simpa using this
      rw [hr, List.append_nil] at hhour
      rw [hr', List.append_nil] at hminute
      have hle : hour ≤ 24 ∧ minute ≤ 60 := by
        by_contra hnot
        simp [guard, hnot] at hguard
      split at h
      · rename_i hsign
        cases h
        refine ⟨some ⟨false, hour, minute, hle.1, hle.2⟩, ?_, rfl⟩
        rw [Offset.text, ← hhour, ← hminute, hsign]
        rfl
      · split at h
        · rename_i hsign
          cases h
          refine ⟨some ⟨true, hour, minute, hle.1, hle.2⟩, ?_, rfl⟩
          rw [Offset.text, ← hhour, ← hminute, hsign]
          rfl
        · cases h
    · cases h
  · rintro ⟨o, rfl, rfl⟩
    cases o with
    | none => rfl
    | some o =>
      obtain ⟨negative, hour, minute, hhour, hminute⟩ := o
      have h1 := getnum_decimals true (show hour < 100 by omega) []
      have h2 := getnum_decimals true (show minute < 100 by omega) []
      rw [decimals_two] at h1 h2
      simp only [Offset.text, decimals, Nat.pow_zero, Nat.div_one, Nat.pow_one, List.cons_append,
        List.nil_append]
      cases negative <;>
        simp [parseZone, h1, h2, guard, hhour, hminute, Offset.seconds]

/-! ## Timestamps -/

/-- A timestamp as it may be written. -/
structure Written where
  date : Date
  hour : ℕ
  minute : ℕ
  second : ℕ
  /-- The hour has one digit only. -/
  short : Bool := false
  fraction : Option Fraction := none
  zone : Option Offset := none
  year_range : 0 ≤ date.year ∧ date.year ≤ 9999
  valid : date.Valid
  hour_lt : hour < 24
  minute_lt : minute < 60
  second_lt : second < 60
  short_lt : short = true → hour < 10

namespace Written

variable (w : Written)

/-- The fields, without the fraction. -/
def stamp : Stamp := ⟨w.date, w.hour, w.minute, w.second, 0⟩

def hourText : GoBytes := if w.short then [digit w.hour] else decimals 2 w.hour

/-- The text up to the second. -/
def secondsText : GoBytes :=
  decimals 4 w.date.year.toNat ++ 45 :: decimals 2 w.date.month.toNat ++
    45 :: decimals 2 w.date.day.toNat ++ 84 :: w.hourText ++
    58 :: decimals 2 w.minute ++ 58 :: decimals 2 w.second

def text : GoBytes := w.secondsText ++ Fraction.text w.fraction ++ Offset.text w.zone

/-- The instant that it stands for, in nanoseconds. -/
def instant : ℚ :=
  ofStamp w.stamp - Offset.seconds w.zone * 1000000000 + Fraction.nanos w.fraction

end Written

theorem getnum_hourText (w : Written) (s : GoBytes) :
    getnum false (w.hourText ++ 58 :: s) = some (w.hour, 58 :: s) := by
  have hhour := w.hour_lt
  have hcolon : ∀ b ∈ (58 :: s : GoBytes).head?, ¬ IsDigit b := by
    rintro b ⟨⟩
    decide
  rw [getnum_false_eq_some hcolon, Written.hourText]
  split
  · rename_i hshort
    exact .inr ⟨w.short_lt hshort, rfl⟩
  · exact .inl ⟨by omega, rfl⟩

/-- What is read up to the second, and what is left. -/
theorem parseSeconds_text (w : Written) (s : GoBytes) :
    parseSeconds (w.secondsText ++ s) = some (w.stamp, s) := by
  have hy := w.year_range
  have hv := w.valid
  have hd := hv.day_le_31
  obtain ⟨hm1, hm12, hd1, -⟩ := hv
  rw [Written.secondsText, parseSeconds_decimals (by omega) (by omega) (by omega) w.hour_lt
    w.minute_lt w.second_lt (getnum_hourText w), Written.stamp, Int.toNat_of_nonneg hy.1,
    Int.toNat_of_nonneg (by omega), Int.toNat_of_nonneg (by omega)]

theorem guard_eq_some {p : Prop} [Decidable p] {u : Unit} :
    (guard p : Option Unit) = some u ↔ p := by
  by_cases h : p <;> simp [guard, h]

/-- What is read up to the second is written so, if the day exists. -/
theorem parseSeconds_sound {s s' : GoBytes} {st : Stamp} (h : parseSeconds s = some (st, s'))
    (hvalid : st.date.Valid) :
    ∃ w : Written, w.fraction = none ∧ w.zone = none ∧ s = w.secondsText ++ s' ∧ st = w.stamp := by
  simp only [parseSeconds, Option.bind_eq_bind, Option.bind_eq_some_iff, Prod.exists,
    guard_eq_some, skip_eq_some, takeYear_eq_some, getnum_true_eq_some, Option.pure_def,
    Option.some.injEq, Prod.mk.injEq] at h
  obtain ⟨year, s1, ⟨hyear, rfl⟩, s2, rfl, month, s3, ⟨hmonth, rfl⟩, -, hmonth', s4, rfl, day, s5,
    ⟨hday, rfl⟩, s6, rfl, hour, s7, hhour, -, hhour', s8, rfl, minute, s9, ⟨hminute, rfl⟩, -,
    hminute', s10, rfl, second, s11, ⟨hsecond, rfl⟩, -, hsecond', hst, rfl⟩ := h
  subst hst
  have hyear' : 0 ≤ (year : ℤ) ∧ (year : ℤ) ≤ 9999 := by omega
  rw [getnum_false_eq_some (by rintro b ⟨⟩; decide)] at hhour
  rcases hhour with ⟨-, rfl⟩ | ⟨hshort, rfl⟩
  · refine ⟨⟨⟨year, month, day⟩, hour, minute, second, false, none, none, hyear', hvalid, hhour',
      hminute', hsecond', by simp⟩, rfl, rfl, ?_, rfl⟩
    simp [Written.secondsText, Written.hourText]
  · refine ⟨⟨⟨year, month, day⟩, hour, minute, second, true, none, none, hyear', hvalid, hhour',
      hminute', hsecond', fun _ ↦ hshort⟩, rfl, rfl, ?_, rfl⟩
    simp [Written.secondsText, Written.hourText]

/-- What does not begin with a fraction. -/
theorem zone_head (o : Option Offset) :
    ∀ b ∈ (Offset.text o).head?, ¬ IsDigit b ∧ ¬ commaOrPeriod b := by
  cases o with
  | none =>
    rintro b ⟨⟩
    decide
  | some o =>
    rcases hneg : o.negative with _ | _ <;> rw [Offset.text, hneg] <;> rintro b ⟨⟩ <;> decide

/-- **What `Parse` accepts is a written timestamp, and it reads the instant that this stands for**,
to the nanosecond. -/
theorem parseRFC3339Nano_eq_some_iff {s : GoBytes} {t : GoTime} :
    parseRFC3339Nano s = some t ↔ ∃ w : Written, w.text = s ∧ ⌊w.instant⌋ = t := by
  have hinstant (w : Written) (n : ℕ) (hn : (n : ℤ) = ⌊Fraction.nanos w.fraction⌋) :
      ⌊w.instant⌋ =
        ofStamp { w.stamp with nanos := n } - Offset.seconds w.zone * 1000000000 := by
    have hcast : w.instant = ((ofStamp w.stamp - Offset.seconds w.zone * 1000000000 : ℤ) : ℚ) +
        Fraction.nanos w.fraction := by
      rw [Written.instant]
      push_cast
      ring
    rw [hcast, Int.floor_intCast_add, ← hn]
    simp only [ofStamp, Written.stamp]
    ring
  constructor
  · intro h
    simp only [parseRFC3339Nano, Option.bind_eq_bind, Option.bind_eq_some_iff, Prod.exists] at h
    obtain ⟨st, s1, hseconds, n, s2, hfraction, offset, s3, hzone, hfinish⟩ := h
    unfold finish at hfinish
    split at hfinish
    · rename_i hend
      obtain ⟨rfl, hvalid⟩ := hend
      cases hfinish
      obtain ⟨w, -, -, rfl, rfl⟩ := parseSeconds_sound hseconds hvalid
      obtain ⟨f, rfl, hn⟩ := anyFraction_sound hfraction
      obtain ⟨o, rfl, rfl⟩ := parseZone_eq_some.mp hzone
      exact ⟨{ w with fraction := f, zone := o }, List.append_assoc _ _ _,
        hinstant { w with fraction := f, zone := o } n hn⟩
    · cases hfinish
  · rintro ⟨w, rfl, rfl⟩
    obtain ⟨n, hn, hfloor⟩ := anyFraction_text w.fraction (zone_head w.zone)
    rw [hinstant w n hfloor, parseRFC3339Nano, Written.text, List.append_assoc,
      parseSeconds_text]
    simp only [Option.bind_eq_bind, Option.bind_some, hn, parseZone_eq_some.mpr ⟨w.zone, rfl, rfl⟩]
    rw [finish, if_pos ⟨rfl, w.valid⟩]

/-! ## What is written is read -/

/-- `Parse` reads what `Format` writes only if the year has four digits. -/
theorem isSome_parse_formatRFC3339Nano {t : GoTime} :
    (parseRFC3339Nano (formatRFC3339Nano t)).isSome ↔ InRange t := by
  refine ⟨fun h ↦ ?_, fun h ↦ by rw [parseRFC3339Nano_formatRFC3339Nano h]; rfl⟩
  obtain ⟨u, hu⟩ := Option.isSome_iff_exists.mp h
  obtain ⟨w, htext, -⟩ := parseRFC3339Nano_eq_some_iff.mp hu
  obtain ⟨hy0, hy⟩ := w.year_range
  simp only [Written.text, Written.secondsText, formatRFC3339Nano, formatSeconds,
    List.append_assoc, List.cons_append] at htext
  rw [← appendInt_of_range hy0 hy] at htext
  have hyear : w.date.year = year t := (appendInt_hyphen_inj htext).1
  exact ⟨hyear ▸ hy0, hyear ▸ hy⟩

end GoTime
