import Mathlib.Data.List.TakeWhile
import ClassG.ForGo.Bytes
import ClassG.ForGo.Calendar
import ClassG.ForGo.Time

/-!
# Timestamps as text

What `Format` writes and `Parse` reads for the two layouts of an instant in UTC: RFC 3339 with
nanoseconds, which leaves out trailing zeros, and the same with all nine digits, whose texts all
have one width.

Both write the year with four digits, and with more or with a sign if it has them.  So only the
instants of the years 0 to 9999 can be read back, and only these are in the order of their texts:
`GoTime.InRange`.
-/

set_option autoImplicit false

namespace GoTime

open GoBytes Calendar

/-! ## The fields of an instant -/

/-- An instant in UTC as a date and a time of day. -/
structure Stamp where
  date : Date
  hour : ℤ
  minute : ℤ
  second : ℤ
  nanos : ℤ
  deriving DecidableEq, Repr

/-- The nanoseconds of a day. -/
def day : ℤ := 86400000000000

/-- The fields of an instant. -/
def stamp (t : ℤ) : Stamp where
  date := .ofDay (t / day)
  hour := t % day / 3600000000000
  minute := t % day / 60000000000 % 60
  second := t % day / 1000000000 % 60
  nanos := t % day % 1000000000

/-- `time.Date` in UTC. -/
def ofStamp (s : Stamp) : ℤ :=
  s.date.toDay * day + s.hour * 3600000000000 + s.minute * 60000000000 + s.second * 1000000000 +
    s.nanos

/-- `t.UTC().Year()`. -/
def year (t : ℤ) : ℤ := (stamp t).date.year

/-- The year has four digits. -/
def InRange (t : ℤ) : Prop := 0 ≤ year t ∧ year t ≤ 9999

instance (t : ℤ) : Decidable (InRange t) := inferInstanceAs (Decidable (_ ∧ _))

@[simp] theorem ofStamp_stamp (t : ℤ) : ofStamp (stamp t) = t := by
  simp only [ofStamp, stamp, Date.toDay_ofDay, day]
  omega

/-- The fields of a time of day are in their ranges. -/
theorem stamp_bounds (t : ℤ) :
    0 ≤ (stamp t).hour ∧ (stamp t).hour < 24 ∧ 0 ≤ (stamp t).minute ∧ (stamp t).minute < 60 ∧
      0 ≤ (stamp t).second ∧ (stamp t).second < 60 ∧
      0 ≤ (stamp t).nanos ∧ (stamp t).nanos < 1000000000 := by
  simp only [stamp, day]
  omega

/-- The stamps of instants in order: the date decides, then the fields of the time of day. -/
theorem stamp_lt {t u : ℤ} (h : t < u) :
    (stamp t).date.Before (stamp u).date ∨ (stamp t).date = (stamp u).date ∧
      ((stamp t).hour < (stamp u).hour ∨ (stamp t).hour = (stamp u).hour ∧
        ((stamp t).minute < (stamp u).minute ∨ (stamp t).minute = (stamp u).minute ∧
          ((stamp t).second < (stamp u).second ∨ (stamp t).second = (stamp u).second ∧
            (stamp t).nanos < (stamp u).nanos))) := by
  have hday : t / day < u / day ∨ t / day = u / day ∧ t % day < u % day := by
    unfold day
    omega
  rcases hday with hday | ⟨hday, hrem⟩
  · exact .inl (Date.ofDay_before hday)
  · refine .inr ⟨by simp only [stamp, hday], ?_⟩
    simp only [stamp]
    unfold day at *
    omega

/-! ## Writing -/

/-- `appendInt`. -/
def appendInt (w : ℕ) (n : ℤ) : GoBytes :=
  if n < 0 then 45 :: padded w n.natAbs else padded w n.toNat

/-- The layout `2006-01-02T15:04:05`. -/
def formatSeconds (s : Stamp) : GoBytes :=
  appendInt 4 s.date.year ++ 45 :: decimals 2 s.date.month.toNat ++
    45 :: decimals 2 s.date.day.toNat ++ 84 :: decimals 2 s.hour.toNat ++
    58 :: decimals 2 s.minute.toNat ++ 58 :: decimals 2 s.second.toNat

/-- The fraction of a second to nine digits. -/
def fraction (s : Stamp) : GoBytes := 46 :: decimals 9 s.nanos.toNat

/-- `t.UTC().Format("2006-01-02T15:04:05.000000000Z")`. -/
def formatFixed (t : ℤ) : GoBytes :=
  formatSeconds (stamp t) ++ fraction (stamp t) ++ [90]

/-- `t.UTC().Format(time.RFC3339Nano)`: without the zeros at the end of the fraction, and without
the fraction if nothing is left of it. -/
def formatRFC3339Nano (t : ℤ) : GoBytes :=
  let digits := ((decimals 9 (stamp t).nanos.toNat).reverse.dropWhile (· = 48)).reverse
  formatSeconds (stamp t) ++ (if digits = [] then [] else 46 :: digits) ++ [90]

/-! ## Reading -/

/-- The rest of a text that begins with the byte. -/
def skip (b : Byte) : GoBytes → Option GoBytes
  | [] => none
  | c :: s => if c = b then some s else none

/-- `getnum`: a number of two digits, or of one if it need not be `fixed`. -/
def getnum (fixed : Bool) : GoBytes → Option (ℕ × GoBytes)
  | [] => none
  | b :: s => do
    let d ← digitValue b
    match s with
    | [] => if fixed then none else some (d, [])
    | c :: s' =>
      match digitValue c with
      | some e => some (10 * d + e, s')
      | none => if fixed then none else some (d, s)

/-- The number of the first four digits. -/
def takeYear (s : GoBytes) : Option (ℕ × GoBytes) :=
  if s.length < 4 then none else (value (s.take 4)).map fun n ↦ (n, s.drop 4)

/-- `Parse`, as far as the layout `2006-01-02T15:04:05`. -/
def parseSeconds (s : GoBytes) : Option (Stamp × GoBytes) := do
  let (year, s) ← takeYear s
  let s ← skip 45 s
  let (month, s) ← getnum true s
  guard (1 ≤ month ∧ month ≤ 12)
  let s ← skip 45 s
  let (day, s) ← getnum true s
  let s ← skip 84 s
  let (hour, s) ← getnum false s
  guard (hour < 24)
  let s ← skip 58 s
  let (minute, s) ← getnum true s
  guard (minute < 60)
  let s ← skip 58 s
  let (second, s) ← getnum true s
  guard (second < 60)
  return (⟨⟨year, month, day⟩, hour, minute, second, 0⟩, s)

/-- `commaOrPeriod`. -/
def commaOrPeriod (b : Byte) : Bool := b = 46 ∨ b = 44

/-- `parseNanoseconds`, on the digits after the point: those after the ninth do not count. -/
def nanosOf (digits : GoBytes) : Option ℕ :=
  (value (digits.take 9)).map fun n ↦ n * 10 ^ (9 - min 9 digits.length)

/-- The layout's fraction of nine digits. -/
def fixedFraction : GoBytes → Option (ℕ × GoBytes)
  | [] => none
  | b :: s =>
    if commaOrPeriod b ∧ 9 ≤ s.length then (nanosOf (s.take 9)).map fun n ↦ (n, s.drop 9) else none

/-- A fraction of any number of digits, if there is one. -/
def anyFraction : GoBytes → Option (ℕ × GoBytes)
  | b :: c :: s =>
    if commaOrPeriod b ∧ (digitValue c).isSome then
      let isDigit := fun d ↦ (digitValue d).isSome
      (nanosOf ((c :: s).takeWhile isDigit)).map fun n ↦ (n, (c :: s).dropWhile isDigit)
    else some (0, b :: c :: s)
  | s => some (0, s)

/-- The zone `Z07:00`, as an offset in seconds. -/
def parseZone : GoBytes → Option (ℤ × GoBytes)
  | 90 :: s => some (0, s)
  | sign :: h :: h' :: 58 :: m :: m' :: s => do
    let (hour, _) ← getnum true [h, h']
    let (minute, _) ← getnum true [m, m']
    guard (hour ≤ 24 ∧ minute ≤ 60)
    let offset : ℤ := (hour * 60 + minute) * 60
    if sign = 43 then some (offset, s) else if sign = 45 then some (-offset, s) else none
  | _ => none

/-- The instant, if nothing is left of the text and the day exists. -/
def finish (s : Stamp) (offset : ℤ) (rest : GoBytes) : Option GoTime :=
  if rest = [] ∧ s.date.Valid then some (ofStamp s - offset * 1000000000) else none

/-- `time.Parse("2006-01-02T15:04:05.000000000Z", s)`. -/
def parseFixed (s : GoBytes) : Option GoTime := do
  let (stamp, s) ← parseSeconds s
  let (nanos, s) ← fixedFraction s
  let s ← skip 90 s
  finish { stamp with nanos := nanos } 0 s

/-- `time.Parse(time.RFC3339Nano, s)`. -/
def parseRFC3339Nano (s : GoBytes) : Option GoTime := do
  let (stamp, s) ← parseSeconds s
  let (nanos, s) ← anyFraction s
  let (offset, s) ← parseZone s
  finish { stamp with nanos := nanos } offset s

/-! ## The order of the texts -/

/-- A year and what follows its hyphen can be told apart. -/
theorem appendInt_hyphen_inj {w : ℕ} {m n : ℤ} {s t : GoBytes}
    (h : appendInt w m ++ 45 :: s = appendInt w n ++ 45 :: t) : m = n ∧ s = t := by
  have hpad {a b : ℕ} (hab : padded w a ++ 45 :: s = padded w b ++ 45 :: t) : a = b ∧ s = t := by
    obtain ⟨heq, hst⟩ := append_hyphen_inj (hyphen_notMem_decimals _ _)
      (hyphen_notMem_decimals _ _) hab
    have hv : value (padded w a) = value (padded w b) := congrArg value heq
    rw [value_padded, value_padded] at hv
    exact ⟨Option.some.inj hv, hst⟩
  -- A sign is a hyphen, and no text of digits begins with one.
  have hsign {a b : ℕ} {s t : GoBytes} : 45 :: padded w a ++ s ≠ padded w b ++ t := by
    obtain ⟨k, hk⟩ : ∃ k, max w (Nat.log 10 b + 1) = k + 1 :=
      ⟨max w (Nat.log 10 b + 1) - 1, by omega⟩
    rw [show padded w b = digit (b / 10 ^ k) :: decimals k b by rw [padded, hk, decimals]]
    intro heq
    have hval := congrArg Fin.val (List.cons.inj heq).1
    rw [digit_val] at hval
    simp at hval
    omega
  rw [appendInt, appendInt] at h
  split at h <;> split at h
  · obtain ⟨heq, rfl⟩ := hpad (List.cons.inj h).2
    exact ⟨by omega, rfl⟩
  · exact absurd h hsign
  · exact absurd h.symm hsign
  · obtain ⟨heq, rfl⟩ := hpad h
    exact ⟨by omega, rfl⟩

theorem appendInt_of_range {n : ℤ} (h0 : 0 ≤ n) (h : n ≤ 9999) :
    appendInt 4 n = decimals 4 n.toNat := by
  rw [appendInt, if_neg h0.not_gt, padded_of_lt (by norm_num) (by omega)]

/-- The fields of the date of an instant are in their ranges. -/
theorem date_bounds {t : ℤ} (h : InRange t) :
    0 ≤ (stamp t).date.year ∧ (stamp t).date.year ≤ 9999 ∧
      1 ≤ (stamp t).date.month ∧ (stamp t).date.month ≤ 12 ∧
      1 ≤ (stamp t).date.day ∧ (stamp t).date.day ≤ 31 := by
  have hv : (stamp t).date.Valid := Date.valid_ofDay _
  exact ⟨h.1, h.2, hv.1, hv.2.1, hv.2.2.1, hv.day_le_31⟩

/-- Instants are told apart by their texts up to the second, or else by what follows them. -/
theorem formatSeconds_append_lt {t u : ℤ} (ht : InRange t) (hu : InRange u) (h : t < u)
    {x y : GoBytes} (hxy : t / 1000000000 = u / 1000000000 → x < y) :
    formatSeconds (stamp t) ++ x < formatSeconds (stamp u) ++ y := by
  have hdt := date_bounds ht
  have hdu := date_bounds hu
  have hct := stamp_bounds t
  have hcu := stamp_bounds u
  have hsame (hdate : (stamp t).date = (stamp u).date) (hhour : (stamp t).hour = (stamp u).hour)
      (hminute : (stamp t).minute = (stamp u).minute)
      (hsecond : (stamp t).second = (stamp u).second) : x < y := by
    refine hxy ?_
    have h1 := ofStamp_stamp t
    have h2 := ofStamp_stamp u
    rw [ofStamp, hdate, hhour, hminute, hsecond] at h1
    rw [ofStamp] at h2
    unfold day at h1 h2
    omega
  have hlt := stamp_lt h
  simp only [Date.Before, Date.ext_iff] at hlt hsame
  simp only [formatSeconds, appendInt_of_range hdt.1 hdt.2.1,
    appendInt_of_range hdu.1 hdu.2.1, List.append_assoc, List.cons_append]
  generalize stamp t = a at *
  generalize stamp u = b at *
  rw [decimals_toNat_append_lt (by omega) (by omega), cons_lt_cons,
    decimals_toNat_append_lt (by omega) (by omega), cons_lt_cons,
    decimals_toNat_append_lt (by omega) (by omega), cons_lt_cons,
    decimals_toNat_append_lt (by omega) (by omega), cons_lt_cons,
    decimals_toNat_append_lt (by omega) (by omega), cons_lt_cons,
    decimals_toNat_append_lt (by omega) (by omega)]
  rcases hlt with (hy | ⟨hy, hm | ⟨hm, hd⟩⟩) |
    ⟨⟨hy, hm, hd⟩, hh | ⟨hh, hmin | ⟨hmin, hs | ⟨hs, -⟩⟩⟩⟩
  · exact .inl hy
  · exact .inr ⟨hy, .inl hm⟩
  · exact .inr ⟨hy, .inr ⟨hm, .inl hd⟩⟩
  · exact .inr ⟨hy, .inr ⟨hm, .inr ⟨hd, .inl hh⟩⟩⟩
  · exact .inr ⟨hy, .inr ⟨hm, .inr ⟨hd, .inr ⟨hh, .inl hmin⟩⟩⟩⟩
  · exact .inr ⟨hy, .inr ⟨hm, .inr ⟨hd, .inr ⟨hh, .inr ⟨hmin, .inl hs⟩⟩⟩⟩⟩
  · exact .inr ⟨hy, .inr ⟨hm, .inr ⟨hd, .inr ⟨hh, .inr ⟨hmin, .inr
      ⟨hs, hsame ⟨hy, hm, hd⟩ hh hmin hs⟩⟩⟩⟩⟩⟩

/-- The nanoseconds of an instant. -/
theorem stamp_nanos (t : ℤ) : (stamp t).nanos = t % 1000000000 := by
  simp only [stamp]
  unfold day
  omega

/-- **The texts of one width are in the order of their instants.** -/
theorem formatFixed_lt {t u : ℤ} (ht : InRange t) (hu : InRange u) (h : t < u) :
    formatFixed t < formatFixed u := by
  rw [formatFixed, formatFixed, List.append_assoc, List.append_assoc]
  refine formatSeconds_append_lt ht hu h fun hsecond ↦ ?_
  have hct := stamp_bounds t
  have hcu := stamp_bounds u
  rw [fraction, fraction, List.cons_append, List.cons_append, cons_lt_cons,
    decimals_toNat_append_lt (by omega) (by omega), stamp_nanos, stamp_nanos]
  omega

theorem formatFixed_lt_iff {t u : ℤ} (ht : InRange t) (hu : InRange u) :
    formatFixed t < formatFixed u ↔ t < u := by
  refine ⟨fun h ↦ ?_, formatFixed_lt ht hu⟩
  rcases lt_trichotomy t u with hlt | heq | hgt
  · exact hlt
  · subst heq
    exact absurd h (lt_irrefl _)
  · exact absurd h (formatFixed_lt hu ht hgt).not_gt

theorem formatFixed_inj {t u : ℤ} (ht : InRange t) (hu : InRange u) :
    formatFixed t = formatFixed u ↔ t = u := by
  refine ⟨fun h ↦ ?_, fun h ↦ h ▸ rfl⟩
  rcases lt_trichotomy t u with hlt | heq | hgt
  · exact absurd h (formatFixed_lt ht hu hlt).ne
  · exact heq
  · exact absurd h (formatFixed_lt hu ht hgt).ne'

/-- The years of instants are in order. -/
theorem year_mono {t u : ℤ} (h : t ≤ u) : year t ≤ year u := by
  rcases h.lt_or_eq with h | rfl
  · rcases stamp_lt h with hbefore | ⟨hsame, -⟩
    · rcases hbefore with hlt | ⟨heq, -⟩
      · exact hlt.le
      · exact heq.le
    · rw [year, year, hsame]
  · rfl

/-- The texts of the instants before the year 0 begin with a sign and come first. -/
theorem formatFixed_lt_of_neg {t u : ℤ} (ht : year t < 0) (hu : InRange u) :
    formatFixed t < formatFixed u := by
  have hdt : (stamp t).date.year < 0 := ht
  have hdu := date_bounds hu
  simp only [formatFixed, formatSeconds, appendInt_of_range hdu.1 hdu.2.1, List.append_assoc]
  simp only [appendInt, if_pos hdt, decimals, List.cons_append]
  refine List.cons_lt_cons_iff.mpr (.inl ?_)
  rw [Fin.lt_def, digit_val]
  exact lt_of_lt_of_le (show (45 : ℕ) < 48 by decide) (Nat.le_add_right ..)

/-- An instant compares with any that is not after the year 9999 as their texts do. -/
theorem formatFixed_lt_iff_of_le {t u : ℤ} (ht : InRange t) (hu : year u ≤ 9999) :
    formatFixed t < formatFixed u ↔ t < u := by
  rcases lt_or_ge (year u) 0 with hneg | hnonneg
  · have hut : u < t := by
      by_contra hge
      have := year_mono (not_lt.mp hge)
      have := ht.1
      omega
    simp [(formatFixed_lt_of_neg hneg ht).not_gt, hut.not_gt]
  · exact formatFixed_lt_iff ht ⟨hnonneg, hu⟩

theorem formatFixed_inj_of_le {t u : ℤ} (ht : InRange t) (hu : year u ≤ 9999) :
    formatFixed t = formatFixed u ↔ t = u := by
  rcases lt_or_ge (year u) 0 with hneg | hnonneg
  · have hne : t ≠ u := by
      rintro rfl
      have := ht.1
      omega
    simp [(formatFixed_lt_of_neg hneg ht).ne', hne]
  · exact formatFixed_inj ht ⟨hnonneg, hu⟩

/-! ## Reading back -/

@[simp] theorem skip_cons (b : Byte) (s : GoBytes) : skip b (b :: s) = some s := if_pos rfl

theorem decimals_two (n : ℕ) (s : GoBytes) :
    decimals 2 n ++ s = digit (n / 10) :: digit n :: s := by
  simp [decimals]

theorem getnum_decimals (fixed : Bool) {n : ℕ} (h : n < 100) (s : GoBytes) :
    getnum fixed (decimals 2 n ++ s) = some (n, s) := by
  have hn : 10 * (n / 10 % 10) + n % 10 = n := by omega
  simp [decimals_two, getnum, hn]

theorem takeYear_decimals {n : ℕ} (h : n < 10 ^ 4) (s : GoBytes) :
    takeYear (decimals 4 n ++ s) = some (n, s) := by
  have hlen : (decimals 4 n).length = 4 := length_decimals 4 n
  rw [takeYear, if_neg (by rw [List.length_append, hlen]; omega), List.take_left' hlen,
    List.drop_left' hlen, value_decimals, Nat.mod_eq_of_lt h, Option.map_some]

/-- The fields of an instant with a year of four digits are in their ranges. -/
structure Stamp.Bounded (s : Stamp) : Prop where
  year : 0 ≤ s.date.year ∧ s.date.year ≤ 9999
  month : 1 ≤ s.date.month ∧ s.date.month ≤ 12
  day : 1 ≤ s.date.day ∧ s.date.day ≤ 31
  hour : 0 ≤ s.hour ∧ s.hour < 24
  minute : 0 ≤ s.minute ∧ s.minute < 60
  second : 0 ≤ s.second ∧ s.second < 60
  nanos : 0 ≤ s.nanos ∧ s.nanos < 1000000000

theorem bounded_stamp {t : ℤ} (h : InRange t) : (stamp t).Bounded := by
  obtain ⟨hy, hy', hm, hm', hd, hd'⟩ := date_bounds h
  obtain ⟨hh, hh', hmin, hmin', hs, hs', hn, hn'⟩ := stamp_bounds t
  exact ⟨⟨hy, hy'⟩, ⟨hm, hm'⟩, ⟨hd, hd'⟩, ⟨hh, hh'⟩, ⟨hmin, hmin'⟩, ⟨hs, hs'⟩, ⟨hn, hn'⟩⟩

/-- What is read up to the second, however the hour is written. -/
theorem parseSeconds_decimals {year month day hour minute second : ℕ} {hourText : GoBytes}
    (hyear : year < 10 ^ 4) (hmonth : 1 ≤ month ∧ month ≤ 12) (hday : day < 100) (hhour : hour < 24)
    (hminute : minute < 60) (hsecond : second < 60)
    (hread : ∀ s, getnum false (hourText ++ 58 :: s) = some (hour, 58 :: s)) (rest : GoBytes) :
    parseSeconds (decimals 4 year ++ 45 :: decimals 2 month ++ 45 :: decimals 2 day ++
      84 :: hourText ++ 58 :: decimals 2 minute ++ 58 :: decimals 2 second ++ rest) =
      some (⟨⟨year, month, day⟩, hour, minute, second, 0⟩, rest) := by
  simp only [List.append_assoc, List.cons_append]
  rw [parseSeconds, takeYear_decimals hyear]
  simp only [Option.bind_eq_bind, Option.bind_some, skip_cons]
  rw [getnum_decimals true (by omega)]
  simp only [Option.bind_some]
  rw [guard, if_pos hmonth]
  simp only [Option.pure_def, Option.bind_some, skip_cons]
  rw [getnum_decimals true hday]
  simp only [Option.bind_some, skip_cons]
  rw [hread]
  simp only [Option.bind_some]
  rw [guard, if_pos hhour]
  simp only [Option.pure_def, Option.bind_some, skip_cons]
  rw [getnum_decimals true (by omega)]
  simp only [Option.bind_some]
  rw [guard, if_pos hminute]
  simp only [Option.pure_def, Option.bind_some, skip_cons]
  rw [getnum_decimals true (by omega)]
  simp only [Option.bind_some]
  rw [guard, if_pos hsecond]
  simp only [Option.pure_def, Option.bind_some]

theorem parseSeconds_formatSeconds {s : Stamp} (h : s.Bounded) (rest : GoBytes) :
    parseSeconds (formatSeconds s ++ rest) = some ({ s with nanos := 0 }, rest) := by
  obtain ⟨⟨y, m, d⟩, hour, minute, second, nanos⟩ := s
  obtain ⟨hy, hm, hd, hh, hmin, hs, -⟩ := h
  dsimp only at hy hm hd hh hmin hs
  lift y to ℕ using hy.1
  lift m to ℕ using by omega
  lift d to ℕ using by omega
  lift hour to ℕ using hh.1
  lift minute to ℕ using hmin.1
  lift second to ℕ using hs.1
  rw [formatSeconds, appendInt_of_range hy.1 hy.2]
  have hyear : y < 10 ^ 4 := by omega
  have hmonth : 1 ≤ m ∧ m ≤ 12 := by omega
  have hday : d < 100 := by omega
  have hhour : hour < 24 := by omega
  have hminute : minute < 60 := by omega
  have hsecond : second < 60 := by omega
  exact parseSeconds_decimals hyear hmonth hday hhour hminute hsecond
    (fun s ↦ getnum_decimals false (by omega) (58 :: s)) rest

/-- What is read of the fields of an instant is the instant. -/
theorem finish_stamp (t : ℤ) : finish (stamp t) 0 [] = some t := by
  rw [finish, if_pos ⟨rfl, Date.valid_ofDay _⟩, ofStamp_stamp, Int.zero_mul, Int.sub_zero]

/-- **`Parse` undoes `Format` for the layout of one width.** -/
theorem parseFixed_formatFixed {t : ℤ} (h : InRange t) : parseFixed (formatFixed t) = some t := by
  have hb := bounded_stamp h
  have hnanos : nanosOf (decimals 9 (stamp t).nanos.toNat) = some (stamp t).nanos.toNat := by
    have hlt : (stamp t).nanos.toNat < 10 ^ 9 := by have := hb.nanos; omega
    rw [nanosOf, List.take_of_length_le (by simp), value_decimals, Nat.mod_eq_of_lt hlt]
    simp
  have hfrac : fixedFraction (fraction (stamp t) ++ [90]) =
      some ((stamp t).nanos.toNat, [90]) := by
    rw [fraction, List.cons_append, fixedFraction, if_pos (by simp [commaOrPeriod]),
      List.take_left' (length_decimals 9 _), List.drop_left' (length_decimals 9 _), hnanos,
      Option.map_some]
  rw [formatFixed, List.append_assoc, parseFixed, parseSeconds_formatSeconds hb]
  simp only [Option.bind_eq_bind, Option.bind_some]
  rw [hfrac]
  simp only [Option.bind_some, skip_cons]
  rw [Int.toNat_of_nonneg hb.nanos.1]
  exact finish_stamp t

/-! ### Without the zeros at the end -/

theorem value_zeros (k : ℕ) : value (List.replicate k 48) = some 0 := by
  induction k with
  | zero => rfl
  | succ k ih => simp [List.replicate_succ, value, digitValue, ih]

theorem value_append_zeros (s : GoBytes) (k : ℕ) :
    value (s ++ List.replicate k 48) = (value s).map fun n ↦ n * 10 ^ k := by
  induction s with
  | nil =>
    rw [List.nil_append, value_zeros, value, Option.map_some, Nat.zero_mul]
  | cons b s ih =>
    rw [List.cons_append, value, ih, value]
    cases digitValue b with
    | none => rfl
    | some d =>
      cases value s with
      | none => rfl
      | some n =>
        simp only [Option.bind_eq_bind, Option.bind_some, Option.map_some, Option.pure_def,
          List.length_append, List.length_replicate, pow_add]
        congr 1
        ring

theorem isDigit_of_mem_decimals {w n : ℕ} {b : Byte} (h : b ∈ decimals w n) :
    (digitValue b).isSome := by
  induction w with
  | zero => simp [decimals] at h
  | succ w ih =>
    rcases List.mem_cons.mp h with rfl | h
    · simp
    · exact ih h

/-- A text is what is left without the zeros at its end, and these. -/
theorem trim_append_zeros (s : GoBytes) :
    s = (s.reverse.dropWhile (· = 48)).reverse ++
      List.replicate (s.reverse.takeWhile (· = 48)).length 48 := by
  have hzeros : s.reverse.takeWhile (· = (48 : Byte)) =
      List.replicate (s.reverse.takeWhile (· = (48 : Byte))).length 48 := by
    refine List.eq_replicate_of_mem fun b hb ↦ ?_
    simpa using List.mem_takeWhile_imp hb
  calc s = (s.reverse.takeWhile (· = (48 : Byte)) ++
          s.reverse.dropWhile (· = (48 : Byte))).reverse := by
        rw [List.takeWhile_append_dropWhile, List.reverse_reverse]
    _ = _ := by
        rw [List.reverse_append, hzeros, List.reverse_replicate]
        simp

/-- A fraction without the zeros at its end stands for the same number of nanoseconds. -/
theorem nanosOf_trim {n : ℕ} (h : n < 10 ^ 9) :
    nanosOf ((decimals 9 n).reverse.dropWhile (· = 48)).reverse = some n := by
  have htrim := trim_append_zeros (decimals 9 n)
  generalize ((decimals 9 n).reverse.dropWhile (· = (48 : Byte))).reverse = s at *
  generalize ((decimals 9 n).reverse.takeWhile (· = (48 : Byte))).length = k at *
  have hlen : s.length + k = 9 := by
    rw [← length_decimals 9 n, htrim, List.length_append, List.length_replicate]
  have hvalue : (value s).map (fun m ↦ m * 10 ^ k) = some n := by
    rw [← value_append_zeros, ← htrim, value_decimals, Nat.mod_eq_of_lt h]
  rw [nanosOf, List.take_of_length_le (by omega), show 9 - min 9 s.length = k by omega, hvalue]

/-- **`Parse` undoes `Format` for RFC 3339 with nanoseconds.** -/
theorem parseRFC3339Nano_formatRFC3339Nano {t : ℤ} (h : InRange t) :
    parseRFC3339Nano (formatRFC3339Nano t) = some t := by
  have hb := bounded_stamp h
  have hlt : (stamp t).nanos.toNat < 10 ^ 9 := by have := hb.nanos; omega
  have hnanos := nanosOf_trim hlt
  have hdigits : ∀ b ∈ ((decimals 9 (stamp t).nanos.toNat).reverse.dropWhile (· = 48)).reverse,
      (digitValue b).isSome := by
    intro b hb
    exact isDigit_of_mem_decimals
      (List.mem_reverse.mp ((List.dropWhile_sublist _).mem (List.mem_reverse.mp hb)))
  have hfrac : anyFraction ((if ((decimals 9 (stamp t).nanos.toNat).reverse.dropWhile
      (· = 48)).reverse = [] then [] else 46 :: ((decimals 9 (stamp t).nanos.toNat).reverse.dropWhile
      (· = 48)).reverse) ++ [90]) = some ((stamp t).nanos.toNat, [90]) := by
    generalize ((decimals 9 (stamp t).nanos.toNat).reverse.dropWhile (· = 48)).reverse = s at *
    cases s with
    | nil =>
      have hzero : (stamp t).nanos.toNat = 0 := (Option.some.inj hnanos).symm
      rw [hzero]
      rfl
    | cons c s =>
      have hstop : digitValue 90 = none := rfl
      have hall : ∀ b ∈ c :: s, (fun d ↦ (digitValue d).isSome) b = true := hdigits
      rw [if_neg (by simp), List.cons_append, List.cons_append, anyFraction,
        if_pos ⟨by decide, hdigits c (by simp)⟩, ← List.cons_append]
      dsimp only
      rw [List.takeWhile_append_of_pos hall, List.dropWhile_append_of_pos hall]
      simp [hstop, hnanos]
  rw [formatRFC3339Nano, List.append_assoc, parseRFC3339Nano, parseSeconds_formatSeconds hb]
  simp only [Option.bind_eq_bind, Option.bind_some]
  rw [hfrac]
  simp only [Option.bind_some, parseZone]
  rw [Int.toNat_of_nonneg hb.nanos.1]
  exact finish_stamp t

/-! ### What is never in a timestamp -/

theorem zero_notMem_decimals (w n : ℕ) : (0 : Byte) ∉ decimals w n := by
  intro h
  have hdigit := isDigit_of_mem_decimals h
  simp [digitValue] at hdigit

/-- No timestamp has a byte that is zero. -/
theorem zero_notMem_formatRFC3339Nano (t : ℤ) : (0 : Byte) ∉ formatRFC3339Nano t := by
  have hint (n : ℤ) : (0 : Byte) ∉ appendInt 4 n := by
    unfold appendInt padded
    split
    · simp [zero_notMem_decimals]
    · exact zero_notMem_decimals _ _
  have htrim (n : ℕ) : (0 : Byte) ∉ ((decimals 9 n).reverse.dropWhile (· = 48)).reverse := by
    intro h
    exact zero_notMem_decimals 9 n
      (List.mem_reverse.mp ((List.dropWhile_sublist _).mem (List.mem_reverse.mp h)))
  unfold formatRFC3339Nano formatSeconds
  dsimp only
  split <;> simp [hint, htrim, zero_notMem_decimals]

end GoTime
