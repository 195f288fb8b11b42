import Mathlib.Data.List.TakeWhile
import Mathlib.Tactic.FieldSimp
import Mathlib.Tactic.Linarith
import Mathlib.Tactic.NormNum
import Mathlib.Tactic.Ring
import ClassG.ForGo.Calendar
import ClassG.ForGo.Digits

/-!
# Datetimes in Python

`datetime.fromisoformat` of Python 3.11, and the difference of two datetimes.  It reads most of what
ISO 8601 allows, and some of what it does not, so it is followed here as it goes through a text.

RFC 3339 is a part of that: a `Rendering` is a text of it, in its fields, with any number of digits
in the fraction, any offset, or no zone at all.  `fromisoformat_text` says that those are read as
what they are, if Python has such a datetime, up to the microsecond.
-/

set_option autoImplicit false

namespace PyDatetime

open Calendar FixedWidth

/-! ## Reading -/

/-- `is_digit`. -/
def isDigit (c : Char) : Bool := '0' ≤ c ∧ c ≤ '9'

/-- `parse_digits`: the number, and what is left. -/
def parseDigits (n : ℕ) (s : List Char) : Option (ℕ × List Char) :=
  if n ≤ s.length ∧ (s.take n).all isDigit then
    some (ofDigits 10 ((s.take n).map fun c ↦ c.toNat - 48), s.drop n)
  else none

/-- `_find_isoformat_datetime_separator`: how many characters the date has. -/
def findSeparator (s : List Char) : ℕ :=
  if s.length = 7 then 7
  else if s[4]? = some '-' then
    if s[5]? = some 'W' then
      if s[8]? = some '-' then if (s[10]?.map isDigit).getD false then 8 else 10 else 8
    else 10
  else if s[4]? = some 'W' then
    let pos := 7 + ((s.drop 7).takeWhile isDigit).length
    if pos < 9 then pos else if pos % 2 = 0 then 7 else 8
  else 8

/-- `iso_week1_monday`. -/
def week1Monday (year : ℤ) : ℤ :=
  let firstDay := daysBeforeYear year
  let firstWeekday := firstDay % 7
  if 3 < firstWeekday then firstDay - firstWeekday + 7 else firstDay - firstWeekday

/-- `iso_to_ymd`. -/
def isoToYmd (year week day : ℤ) : Option Date :=
  let firstWeekday := daysBeforeYear year % 7
  if 1 ≤ year ∧ year ≤ 9999 ∧ 1 ≤ day ∧ day ≤ 7 ∧ 1 ≤ week ∧
      (week ≤ 52 ∨ week = 53 ∧ (firstWeekday = 3 ∨ firstWeekday = 2 ∧ isLeap year)) then
    some (.ofDay (week1Monday year + (week - 1) * 7 + (day - 1)))
  else none

/-- The character `-`, if the parts of the date are separated by it. -/
def skipHyphen (usesSeparator : Bool) (s : List Char) : Option (List Char) :=
  if usesSeparator then if s.head? = some '-' then some s.tail else none else some s

/-- `parse_isoformat_date`. -/
def parseDate (s : List Char) : Option Date := do
  let (year, s) ← parseDigits 4 s
  let usesSeparator := s.head? = some '-'
  let s := if usesSeparator then s.tail else s
  if s.head? = some 'W' then
    let (week, s) ← parseDigits 2 s.tail
    if s = [] then isoToYmd year week 1
    else
      let s ← skipHyphen usesSeparator s
      let (day, _) ← parseDigits 1 s
      isoToYmd year week day
  else
    let (month, s) ← parseDigits 2 s
    let s ← skipHyphen usesSeparator s
    let (day, _) ← parseDigits 2 s
    return ⟨year, month, day⟩

/-- Where a time of day ends: at its last number, or before its fraction. -/
inductive Rest
  /-- `more`: there is something after it. -/
  | ended (more : Bool)
  | fraction (s : List Char)

/-- The loop of `parse_hh_mm_ss_ff`, with the numbers that are still to come.  `follows` says that
the text goes on after `s`. -/
def components (follows : Bool) : ℕ → Option Bool → List Char → Option (List ℕ × Rest)
  | 0, _, s => some ([], .fraction s)
  | n + 1, separator, s => do
    let (value, s) ← parseDigits 2 s
    match s with
    | [] => return ([value], .ended follows)
    | [_] => return ([value], .ended true)
    | c :: s' =>
      let hasSeparator := separator.getD (c = ':')
      if hasSeparator ∧ c = ':' then
        let (values, rest) ← components follows n hasSeparator s'
        return (value :: values, rest)
      else if c = '.' ∨ c = ',' then return ([value], .fraction s')
      else if hasSeparator then none
      else
        let (values, rest) ← components follows n hasSeparator s
        return (value :: values, rest)

/-- The numbers of a time of day. -/
structure Time where
  hour : ℕ
  minute : ℕ
  second : ℕ
  microsecond : ℕ
  deriving DecidableEq

/-- `parse_hh_mm_ss_ff`: the time of day, and whether there is something after it. -/
def parseTime (follows : Bool) (s : List Char) : Option (Time × Bool) := do
  let (values, rest) ← components follows 3 none s
  let time : Time := ⟨values.getD 0 0, values.getD 1 0, values.getD 2 0, 0⟩
  match rest with
  | .ended more => return (time, more)
  | .fraction s =>
    let digits := min 6 s.length
    let (microsecond, s) ← parseDigits digits s
    let more := follows ∨ s.dropWhile isDigit ≠ []
    return ({ time with microsecond := microsecond * 10 ^ (6 - digits) }, more)

/-- An offset from UTC, in microseconds. -/
def offsetOf (negative : Bool) (t : Time) : ℤ :=
  let seconds : ℤ := t.hour * 3600 + t.minute * 60 + t.second
  let offset := seconds * 1000000 + t.microsecond
  -- Only the seconds are looked at for UTC.
  if seconds = 0 then 0 else if negative then -offset else offset

/-- `parse_isoformat_time`: the time of day, and the offset of the zone if there is one. -/
def parseTimeAndZone (s : List Char) : Option (Time × Option ℤ) := do
  let (clock, zone) := s.span fun c ↦ c ≠ '+' ∧ c ≠ '-' ∧ c ≠ 'Z'
  match zone with
  | [] =>
    let (time, more) ← parseTime false clock
    if more then none else return (time, none)
  | sign :: zone =>
    let (time, _) ← parseTime true clock
    if sign = 'Z' then if zone = [] then return (time, some 0) else none
    else
      let (offset, more) ← parseTime false zone
      if more then none else return (time, some (offsetOf (sign = '-') offset))

/-- A datetime; one with an offset is *aware*. -/
structure Datetime where
  date : Date
  time : Time
  offset : Option ℤ
  deriving DecidableEq

/-- The constructor `datetime`, and that of its zone. -/
def Datetime.Valid (d : Datetime) : Prop :=
  1 ≤ d.date.year ∧ d.date.year ≤ 9999 ∧ d.date.Valid ∧
    d.time.hour < 24 ∧ d.time.minute < 60 ∧ d.time.second < 60 ∧
      ∀ offset ∈ d.offset, |offset| < 86400000000

instance (d : Datetime) : Decidable d.Valid :=
  inferInstanceAs (Decidable (_ ∧ _ ∧ _ ∧ _ ∧ _ ∧ _ ∧ _))

/-- What follows the date: nothing, or a separator and a time of day. -/
def parseAfterDate : List Char → Option (Time × Option ℤ)
  | [] => some (⟨0, 0, 0, 0⟩, none)
  | _ :: s => parseTimeAndZone s

/-- `datetime.fromisoformat`, or nothing where it raises `ValueError`. -/
def fromisoformat (s : List Char) : Option Datetime :=
  if s.length < 7 then none
  else do
    let pos := findSeparator s
    let date ← parseDate (s.take pos)
    let (time, offset) ← parseAfterDate (s.drop pos)
    let d : Datetime := ⟨date, time, offset⟩
    if d.Valid then some d else none

/-- `s.replace("Z", "+00:00")`. -/
def replaceZ (s : List Char) : List Char :=
  s.flatMap fun c ↦ if c = 'Z' then ['+', '0', '0', ':', '0', '0'] else [c]

/-- The microseconds since the beginning of year 1, by the clock of the zone. -/
def Datetime.local (d : Datetime) : ℤ :=
  (((d.date.toDay * 24 + d.time.hour) * 60 + d.time.minute) * 60 + d.time.second) * 1000000 +
    d.time.microsecond

/-- `b - a`, in microseconds, or nothing where it raises `TypeError`: an aware datetime and one that
is not have no difference. -/
def sub (b a : Datetime) : Option ℤ :=
  match b.offset, a.offset with
  | none, none => some (b.local - a.local)
  | some ob, some oa => some (b.local - ob - (a.local - oa))
  | _, _ => none

/-! ## Texts of RFC 3339 -/

/-- The zone of a text. -/
inductive Zone
  | missing
  | utc
  | offset (negative : Bool) (hour minute : ℕ)

/-- A text of RFC 3339, in its fields.  The fraction is its digits; there may be none. -/
structure Rendering where
  date : Date
  hour : ℕ
  minute : ℕ
  second : ℕ
  fraction : List ℕ
  zone : Zone
  year_mem : 0 ≤ date.year ∧ date.year ≤ 9999
  date_valid : date.Valid
  time_valid : hour < 24 ∧ minute < 60 ∧ second ≤ 60
  fraction_valid : ∀ d ∈ fraction, d < 10
  zone_valid : ∀ negative h m, zone = .offset negative h m → h < 24 ∧ m < 60

/-- A number, to a fixed number of digits. -/
def pad (n v : ℕ) : List Char := (digits 10 n v).map Nat.digitChar

def Zone.text : Zone → List Char
  | missing => []
  | utc => ['Z']
  | offset negative hour minute =>
    (if negative then '-' else '+') :: (pad 2 hour ++ ':' :: pad 2 minute)

/-- The seconds that the zone is ahead of UTC.  What has no zone is in UTC. -/
def Zone.seconds : Zone → ℤ
  | missing => 0
  | utc => 0
  | offset negative hour minute =>
    if negative then -(hour * 3600 + minute * 60) else hour * 3600 + minute * 60

/-- There is a zone. -/
def Zone.isSome : Zone → Bool
  | missing => false
  | _ => true

def Rendering.dateText (r : Rendering) : List Char :=
  pad 4 r.date.year.toNat ++ '-' :: (pad 2 r.date.month.toNat ++ '-' :: pad 2 r.date.day.toNat)

def Rendering.fractionText (r : Rendering) : List Char :=
  if r.fraction = [] then [] else '.' :: r.fraction.map Nat.digitChar

def Rendering.clockText (r : Rendering) : List Char :=
  pad 2 r.hour ++ ':' :: (pad 2 r.minute ++ ':' :: (pad 2 r.second ++ r.fractionText))

/-- The text. -/
def Rendering.text (r : Rendering) : List Char :=
  r.dateText ++ 'T' :: (r.clockText ++ r.zone.text)

/-- The instant, in seconds since the beginning of year 1. -/
def Rendering.instant (r : Rendering) : ℚ :=
  ((r.date.toDay * 24 + r.hour) * 60 + r.minute) * 60 + r.second +
    ofDigits 10 r.fraction / 10 ^ r.fraction.length - r.zone.seconds

/-- There is such a datetime in Python: its year is not 0, and its last minute has no leap second. -/
def Rendering.Exists (r : Rendering) : Prop := 1 ≤ r.date.year ∧ r.second < 60

instance (r : Rendering) : Decidable r.Exists := inferInstanceAs (Decidable (_ ∧ _))

/-- The datetime, up to the microsecond. -/
def Rendering.datetime (r : Rendering) : Datetime where
  date := r.date
  time := ⟨r.hour, r.minute, r.second,
    ofDigits 10 (r.fraction.take 6) * 10 ^ (6 - min 6 r.fraction.length)⟩
  offset := if r.zone.isSome then some (r.zone.seconds * 1000000) else none

/-! ## What is read of digits -/

theorem isDigit_digitChar {d : ℕ} (h : d < 10) : isDigit d.digitChar = true := by
  interval_cases d <;> rfl

theorem toNat_digitChar {d : ℕ} (h : d < 10) : d.digitChar.toNat - 48 = d := by
  interval_cases d <;> rfl

/-- Digits are read as the number they are. -/
theorem parseDigits_map (ds : List ℕ) (hds : ∀ d ∈ ds, d < 10) (s : List Char) :
    parseDigits ds.length (ds.map Nat.digitChar ++ s) = some (ofDigits 10 ds, s) := by
  have hlen : (ds.map Nat.digitChar).length = ds.length := List.length_map ..
  have hall : (ds.map Nat.digitChar).all isDigit = true := by
    rw [List.all_eq_true]
    intro c hc
    obtain ⟨d, hd, rfl⟩ := List.mem_map.mp hc
    exact isDigit_digitChar (hds d hd)
  have hback : (ds.map Nat.digitChar).map (fun c ↦ c.toNat - 48) = ds := by
    rw [List.map_map]
    exact (List.map_congr_left (g := id) fun d hd ↦ toNat_digitChar (hds d hd)).trans
      (List.map_id ds)
  rw [parseDigits, List.take_left' hlen, List.drop_left' hlen, hback,
    if_pos ⟨by rw [List.length_append, hlen]; omega, hall⟩]

theorem parseDigits_pad {n v : ℕ} (h : v < 10 ^ n) (s : List Char) :
    parseDigits n (pad n v ++ s) = some (v, s) := by
  have hread := parseDigits_map (digits 10 n v) (fun d ↦ lt_of_mem_digits (by norm_num)) s
  rwa [length_digits, ofDigits_digits, Nat.mod_eq_of_lt h] at hread

theorem isDigit_of_mem_pad {n v : ℕ} {c : Char} (h : c ∈ pad n v) : isDigit c = true := by
  obtain ⟨d, hd, rfl⟩ := List.mem_map.mp h
  exact isDigit_digitChar (lt_of_mem_digits (by norm_num) hd)

theorem length_pad (n v : ℕ) : (pad n v).length = n := by rw [pad, List.length_map, length_digits]

/-! ## What is read of a time of day -/

section Components

variable {follows : Bool} {n v : ℕ} {separator : Option Bool}

theorem components_last (hv : v < 10 ^ 2) :
    components follows (n + 1) separator (pad 2 v) = some ([v], .ended follows) := by
  have hread := parseDigits_pad hv []
  rw [List.append_nil] at hread
  rw [components, hread]
  rfl

theorem components_colon (hv : v < 10 ^ 2) (hsep : separator.getD true = true) {s : List Char}
    (hs : s ≠ []) :
    components follows (n + 1) separator (pad 2 v ++ ':' :: s) =
      (components follows n (some true) s).map fun p ↦ (v :: p.1, p.2) := by
  obtain ⟨c, s, rfl⟩ := List.exists_cons_of_ne_nil hs
  have hsep' : separator.getD (decide (':' = ':')) = true := hsep
  rw [components, parseDigits_pad hv]
  dsimp only [bind, Option.bind]
  rw [if_pos ⟨hsep', rfl⟩, hsep']
  cases components follows n (some true) (c :: s) <;> rfl

theorem components_point (hv : v < 10 ^ 2) {s : List Char} (hs : s ≠ []) :
    components follows (n + 1) separator (pad 2 v ++ '.' :: s) = some ([v], .fraction s) := by
  obtain ⟨c, s, rfl⟩ := List.exists_cons_of_ne_nil hs
  rw [components, parseDigits_pad hv]
  dsimp only [bind, Option.bind]
  rw [if_neg fun h ↦ absurd h.2 (by decide), if_pos (.inl rfl)]
  rfl

end Components

theorem pad_append_ne_nil (v : ℕ) (s : List Char) : pad 2 v ++ s ≠ [] := by
  simp [← List.length_pos_iff, length_pad]

/-- The time of day of a text is read as what it is, up to the microsecond. -/
theorem parseTime_clockText (r : Rendering) (follows : Bool) :
    parseTime follows r.clockText = some (r.datetime.time, follows) := by
  obtain ⟨hhour, hminute, hsecond⟩ := r.time_valid
  rw [parseTime, Rendering.clockText,
    components_colon (by omega) rfl (pad_append_ne_nil _ _),
    components_colon (by omega) rfl (pad_append_ne_nil _ _), Rendering.fractionText]
  by_cases hnone : r.fraction = []
  · rw [if_pos hnone, List.append_nil, components_last (by omega)]
    simp [Rendering.datetime, hnone, ofDigits]
  · have hne : r.fraction.map Nat.digitChar ≠ [] := by simpa using hnone
    have hdigits := parseDigits_map (r.fraction.take 6)
      (fun d hd ↦ r.fraction_valid d (List.mem_of_mem_take hd))
      ((r.fraction.drop 6).map Nat.digitChar)
    rw [← List.map_append, List.take_append_drop, List.length_take] at hdigits
    have hrest : ((r.fraction.drop 6).map Nat.digitChar).dropWhile isDigit = [] := by
      rw [List.dropWhile_eq_nil_iff]
      intro c hc
      obtain ⟨d, hd, rfl⟩ := List.mem_map.mp hc
      exact isDigit_digitChar (r.fraction_valid d (List.mem_of_mem_drop hd))
    rw [if_neg hnone, components_point (by omega) hne]
    dsimp only [Option.map, bind, Option.bind]
    rw [List.length_map, hdigits]
    dsimp only
    rw [hrest]
    simp [Rendering.datetime]

theorem offsetOf_eq (negative : Bool) (hour minute : ℕ) :
    offsetOf negative ⟨hour, minute, 0, 0⟩ =
      (Zone.offset negative hour minute).seconds * 1000000 := by
  rw [offsetOf, Zone.seconds]
  dsimp only
  split_ifs <;> omega

theorem replaceZ_append (s t : List Char) : replaceZ (s ++ t) = replaceZ s ++ replaceZ t :=
  List.flatMap_append

theorem replaceZ_of_notMem {s : List Char} (h : 'Z' ∉ s) : replaceZ s = s := by
  induction s with
  | nil => rfl
  | cons c s ih =>
    obtain ⟨hc, hs⟩ := not_or.mp (mt List.mem_cons.mpr h)
    rw [replaceZ, List.flatMap_cons, if_neg (Ne.symm hc), List.singleton_append]
    exact congrArg (c :: ·) (ih hs)

theorem notMem_pad (n v : ℕ) : 'Z' ∉ pad n v := fun h ↦
  absurd (isDigit_of_mem_pad h) (by decide)

theorem parseTime_offset {hour minute : ℕ} (hhour : hour < 24) (hminute : minute < 60) :
    parseTime false (pad 2 hour ++ ':' :: pad 2 minute) = some (⟨hour, minute, 0, 0⟩, false) := by
  rw [parseTime, components_colon (by omega) rfl (by simp [← List.length_pos_iff, length_pad]),
    components_last (by omega)]
  rfl

/-- Nothing in a time of day begins a zone, and `replaceZ` leaves it as it is. -/
theorem mem_clockText {r : Rendering} {c : Char} (h : c ∈ r.clockText) :
    c ≠ '+' ∧ c ≠ '-' ∧ c ≠ 'Z' := by
  have hdigit : ∀ {c}, isDigit c = true → c ≠ '+' ∧ c ≠ '-' ∧ c ≠ 'Z' := by
    intro c hc
    refine ⟨?_, ?_, ?_⟩ <;> rintro rfl <;> exact absurd hc (by decide)
  have hpoint : '.' ≠ '+' ∧ '.' ≠ '-' ∧ '.' ≠ 'Z' := by decide
  have hcolon : ':' ≠ '+' ∧ ':' ≠ '-' ∧ ':' ≠ 'Z' := by decide
  rw [Rendering.clockText] at h
  simp only [List.mem_append, List.mem_cons] at h
  rcases h with h | rfl | h | rfl | h | h
  · exact hdigit (isDigit_of_mem_pad h)
  · exact hcolon
  · exact hdigit (isDigit_of_mem_pad h)
  · exact hcolon
  · exact hdigit (isDigit_of_mem_pad h)
  · rw [Rendering.fractionText] at h
    split at h
    · cases h
    · rcases List.mem_cons.mp h with rfl | h
      · exact hpoint
      · obtain ⟨d, hd, rfl⟩ := List.mem_map.mp h
        exact hdigit (isDigit_digitChar (r.fraction_valid d hd))

/-- Where a zone begins, the time of day ends. -/
theorem span_clockText (r : Rendering) (zone : List Char)
    (hzone : ∀ c ∈ zone.head?, c = '+' ∨ c = '-') :
    (r.clockText ++ zone).span (fun c ↦ c ≠ '+' ∧ c ≠ '-' ∧ c ≠ 'Z') = (r.clockText, zone) := by
  have hclock : ∀ c ∈ r.clockText, decide (c ≠ '+' ∧ c ≠ '-' ∧ c ≠ 'Z') = true :=
    fun c hc ↦ decide_eq_true (mem_clockText hc)
  have hstop : zone.takeWhile (fun c ↦ c ≠ '+' ∧ c ≠ '-' ∧ c ≠ 'Z') = [] ∧
      zone.dropWhile (fun c ↦ c ≠ '+' ∧ c ≠ '-' ∧ c ≠ 'Z') = zone := by
    cases zone with
    | nil => exact ⟨rfl, rfl⟩
    | cons c zone =>
      have hnot : ¬(c ≠ '+' ∧ c ≠ '-' ∧ c ≠ 'Z') := by
        rcases hzone c rfl with rfl | rfl <;> decide
      rw [List.takeWhile_cons, List.dropWhile_cons, if_neg (by simpa using hnot),
        if_neg (by simpa using hnot)]
      exact ⟨rfl, rfl⟩
  rw [List.span_eq_takeWhile_dropWhile, List.takeWhile_append_of_pos hclock,
    List.dropWhile_append_of_pos hclock, hstop.1, hstop.2, List.append_nil]

theorem parseTimeAndZone_numeric (r : Rendering) (negative : Bool) {hour minute : ℕ}
    (hhour : hour < 24) (hminute : minute < 60) :
    parseTimeAndZone (r.clockText ++ (Zone.offset negative hour minute).text) =
      some (r.datetime.time, some ((Zone.offset negative hour minute).seconds * 1000000)) := by
  have hspan := span_clockText r (Zone.offset negative hour minute).text
    (by cases negative <;> simp [Zone.text])
  rw [Zone.text] at hspan ⊢
  rw [parseTimeAndZone, hspan, ← offsetOf_eq]
  dsimp only
  rw [parseTime_clockText, parseTime_offset hhour hminute]
  cases negative <;> rfl

/-- The time of day of a text and its zone, with a number for `Z`. -/
theorem parseTimeAndZone_text (r : Rendering) :
    parseTimeAndZone (r.clockText ++ replaceZ r.zone.text) =
      some (r.datetime.time, r.datetime.offset) := by
  rcases hzone : r.zone with _ | _ | ⟨negative, hour, minute⟩
  · have hspan := span_clockText r [] (by simp)
    have hoffset : r.datetime.offset = none := by simp [Rendering.datetime, hzone, Zone.isSome]
    rw [show replaceZ Zone.missing.text = [] from rfl, parseTimeAndZone, hspan, hoffset]
    dsimp only
    rw [parseTime_clockText]
    rfl
  · have hoffset : r.datetime.offset = some 0 := by
      simp [Rendering.datetime, hzone, Zone.isSome, Zone.seconds]
    rw [show replaceZ Zone.utc.text = (Zone.offset false 0 0).text from rfl, hoffset]
    exact parseTimeAndZone_numeric r false (by norm_num) (by norm_num)
  · obtain ⟨hhour, hminute⟩ := r.zone_valid negative hour minute hzone
    have hoffset : r.datetime.offset =
        some ((Zone.offset negative hour minute).seconds * 1000000) := by
      simp [Rendering.datetime, hzone, Zone.isSome]
    have hplain : replaceZ (Zone.offset negative hour minute).text =
        (Zone.offset negative hour minute).text :=
      replaceZ_of_notMem (by cases negative <;> simp [Zone.text, notMem_pad])
    rw [hplain, hoffset]
    exact parseTimeAndZone_numeric r negative hhour hminute

/-! ## What is read of a text -/

theorem replaceZ_text (r : Rendering) :
    replaceZ r.text = r.dateText ++ 'T' :: (r.clockText ++ replaceZ r.zone.text) := by
  have hdate : 'Z' ∉ r.dateText := by simp [Rendering.dateText, notMem_pad]
  have hclock : 'Z' ∉ r.clockText := fun h ↦ (mem_clockText h).2.2 rfl
  rw [Rendering.text, replaceZ_append, replaceZ_of_notMem hdate, ← List.singleton_append,
    replaceZ_append, replaceZ_append, replaceZ_of_notMem hclock]
  rfl

theorem length_dateText (r : Rendering) : r.dateText.length = 10 := by
  simp [Rendering.dateText, length_pad]

/-- No week is taken for a month. -/
theorem head_pad_ne (v : ℕ) (s : List Char) : (pad 2 v ++ s).head? ≠ some 'W' := by
  intro h
  have hhead : (v / 10 ^ 1 % 10).digitChar = 'W' := Option.some.inj h
  have hdigit := isDigit_digitChar (Nat.mod_lt (v / 10 ^ 1) (show 10 > 0 by norm_num))
  rw [hhead] at hdigit
  exact absurd hdigit (by decide)

/-- The date of a text is told by its hyphen, and by the digit after it. -/
theorem findSeparator_dateText (r : Rendering) (c : Char) (s : List Char) :
    findSeparator (r.dateText ++ c :: s) = 10 := by
  have hlen : (r.dateText ++ c :: s).length ≠ 7 := by
    rw [List.length_append, length_dateText]
    omega
  have hhyphen : (r.dateText ++ c :: s)[4]? = some '-' := rfl
  have hmonth : (r.dateText ++ c :: s)[5]? ≠ some 'W' := head_pad_ne r.date.month.toNat []
  rw [findSeparator, if_neg hlen, if_pos hhyphen, if_neg hmonth]

theorem parseDate_dateText (r : Rendering) : parseDate r.dateText = some r.date := by
  obtain ⟨hyear0, hyear⟩ := r.year_mem
  obtain ⟨hmonth1, hmonth, hday1, hday⟩ := r.date_valid
  have hday31 := r.date_valid.day_le_31
  have hlast := parseDigits_pad (n := 2) (v := r.date.day.toNat) (by omega) []
  rw [List.append_nil] at hlast
  have hmiddle := parseDigits_pad (n := 2) (v := r.date.month.toNat) (by omega)
  rw [parseDate, Rendering.dateText, parseDigits_pad (by omega)]
  simp only [Option.bind_eq_bind, Option.bind_some, List.head?_cons, List.tail_cons, decide_true,
    if_true, head_pad_ne, if_false, hmiddle, skipHyphen, hlast, Option.pure_def]
  rw [Int.toNat_of_nonneg hyear0, Int.toNat_of_nonneg (show 0 ≤ r.date.month by omega),
    Int.toNat_of_nonneg (show 0 ≤ r.date.day by omega)]

theorem valid_datetime (r : Rendering) : r.datetime.Valid ↔ r.Exists := by
  obtain ⟨hhour, hminute, -⟩ := r.time_valid
  have hoffset : ∀ offset ∈ r.datetime.offset, |offset| < 86400000000 := by
    intro offset ho
    rw [Rendering.datetime] at ho
    dsimp only at ho
    rcases hzone : r.zone with _ | _ | ⟨negative, h, m⟩ <;>
      rw [hzone] at ho <;> simp [Zone.isSome, Zone.seconds] at ho
    · rw [← ho]
      norm_num
    · obtain ⟨hh, hm⟩ := r.zone_valid negative h m hzone
      rw [← ho, abs_lt]
      cases negative <;> constructor <;> simp <;> omega
  constructor
  · rintro ⟨hyear, -, -, -, -, hsecond, -⟩
    exact ⟨hyear, hsecond⟩
  · rintro ⟨hyear, hsecond⟩
    exact ⟨hyear, r.year_mem.2, r.date_valid, hhour, hminute, hsecond, hoffset⟩

/-- **A text of RFC 3339 is read as what it is**, up to the microsecond, if Python has such a
datetime, and refused if it has not. -/
theorem fromisoformat_text (r : Rendering) :
    fromisoformat (replaceZ r.text) = if r.Exists then some r.datetime else none := by
  have hlen : ¬(replaceZ r.text).length < 7 := by
    rw [replaceZ_text, List.length_append, length_dateText]
    omega
  rw [fromisoformat, if_neg hlen, replaceZ_text, findSeparator_dateText]
  dsimp only
  rw [List.take_left' (length_dateText r), parseDate_dateText, List.drop_left' (length_dateText r)]
  simp only [Option.bind_eq_bind, Option.bind_some, parseAfterDate, parseTimeAndZone_text]
  exact if_congr (valid_datetime r) rfl rfl

/-! ## What lies between two texts -/

/-- The microseconds of a text that has no more than six digits for them. -/
theorem local_datetime {r : Rendering} (h : r.fraction.length ≤ 6) :
    (r.datetime.local : ℚ) = (r.instant + r.zone.seconds) * 1000000 := by
  have hfraction : ((ofDigits 10 r.fraction * 10 ^ (6 - r.fraction.length) : ℕ) : ℚ) =
      ofDigits 10 r.fraction / 10 ^ r.fraction.length * 1000000 := by
    have hsplit : (10 : ℚ) ^ (6 - r.fraction.length) * 10 ^ r.fraction.length = 1000000 := by
      rw [← pow_add, Nat.sub_add_cancel h]
      norm_num
    push_cast
    rw [← hsplit]
    field_simp
  rw [Datetime.local, Rendering.instant]
  simp only [Rendering.datetime, List.take_of_length_le h, min_eq_right h]
  push_cast at hfraction ⊢
  rw [hfraction]
  ring

theorem Zone.seconds_of_missing {z : Zone} (h : z.isSome = false) : z.seconds = 0 := by
  cases z with
  | missing => rfl
  | utc => rfl
  | offset => cases h

/-- **The difference of two texts is the time between them**, where both have a zone or neither
has; else there is none. -/
theorem sub_datetime {b a : Rendering} (hb : b.fraction.length ≤ 6) (ha : a.fraction.length ≤ 6)
    (hzone : b.zone.isSome = a.zone.isSome) :
    ∃ d : ℤ, sub b.datetime a.datetime = some d ∧
      (d : ℚ) / 1000000 = b.instant - a.instant := by
  have hlocal := local_datetime hb
  have hlocal' := local_datetime ha
  cases hz : a.zone.isSome with
  | false =>
    rw [Zone.seconds_of_missing (hzone.trans hz)] at hlocal
    rw [Zone.seconds_of_missing hz] at hlocal'
    refine ⟨b.datetime.local - a.datetime.local, ?_, ?_⟩
    · simp [sub, Rendering.datetime, hz, hzone.trans hz]
    · push_cast
      rw [hlocal, hlocal']
      ring
  | true =>
    refine ⟨b.datetime.local - b.zone.seconds * 1000000 -
      (a.datetime.local - a.zone.seconds * 1000000), ?_, ?_⟩
    · simp [sub, Rendering.datetime, hz, hzone.trans hz]
    · push_cast
      rw [hlocal, hlocal']
      ring

/-! ## Texts that are the same -/

section SameText

variable {r r' : Rendering}

theorem clockText_of_text (h : r.text = r'.text) : r.clockText = r'.clockText := by
  have hzone : ∀ {z : Zone} {c : Char}, c ∈ (replaceZ z.text).head? → c = '+' ∨ c = '-' := by
    intro z c hc
    rcases z with _ | _ | ⟨negative, hour, minute⟩
    · cases hc
    · exact .inl (Option.some.inj hc).symm
    · cases negative
      · exact .inl (Option.some.inj hc).symm
      · exact .inr (Option.some.inj hc).symm
  have hreplaced := congrArg replaceZ h
  rw [replaceZ_text, replaceZ_text] at hreplaced
  have hrest := (List.append_inj hreplaced (by rw [length_dateText, length_dateText])).2
  have hspan := span_clockText r (replaceZ r.zone.text) fun _ ↦ hzone
  rw [(List.cons.inj hrest).2, span_clockText r' _ fun _ ↦ hzone] at hspan
  exact (Prod.mk.inj hspan).1.symm

theorem length_fraction_of_text (h : r.text = r'.text) :
    r.fraction.length = r'.fraction.length := by
  have hlen := congrArg List.length (clockText_of_text h)
  simp only [Rendering.clockText, Rendering.fractionText, List.length_append, List.length_cons,
    length_pad, apply_ite List.length, List.length_nil, List.length_map,
    ← List.length_eq_zero_iff] at hlen
  split_ifs at hlen <;> omega

/-- **One text says one thing**: of texts that exist in Python, to the microsecond. -/
theorem same_of_text (h : r.text = r'.text) (hr' : r'.Exists ∧ r'.fraction.length ≤ 6) :
    (r.Exists ∧ r.fraction.length ≤ 6) ∧ r.zone.isSome = r'.zone.isSome ∧
      r.instant = r'.instant := by
  have hread := fromisoformat_text r
  rw [h, fromisoformat_text, if_pos hr'.1] at hread
  have hexists : r.Exists := by
    by_contra hno
    rw [if_neg hno] at hread
    cases hread
  rw [if_pos hexists] at hread
  have hdatetime : r'.datetime = r.datetime := Option.some.inj hread
  have hlen : r.fraction.length ≤ 6 := (length_fraction_of_text h).trans_le hr'.2
  have hoffset := congrArg Datetime.offset hdatetime
  have hlocal := congrArg (fun d : Datetime ↦ (d.local : ℚ)) hdatetime
  rw [local_datetime hr'.2, local_datetime hlen] at hlocal
  have hzone : r.zone.isSome = r'.zone.isSome ∧ r.zone.seconds = r'.zone.seconds := by
    simp only [Rendering.datetime] at hoffset
    cases hz : r.zone.isSome <;> cases hz' : r'.zone.isSome <;> rw [hz, hz'] at hoffset
    · exact ⟨rfl, (Zone.seconds_of_missing hz).trans (Zone.seconds_of_missing hz').symm⟩
    · cases hoffset
    · cases hoffset
    · have hseconds := Option.some.inj hoffset
      exact ⟨rfl, by omega⟩
  refine ⟨⟨hexists, hlen⟩, hzone.1, ?_⟩
  rw [hzone.2] at hlocal
  linarith

end SameText

end PyDatetime
