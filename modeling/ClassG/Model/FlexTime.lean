import ClassG.ForGo.Rfc3339
import ClassG.Model.Detection

/-!
# Timestamps from sensors

`FlexTime` of `api/internal/model` decodes a timestamp, or seconds since 1970, as its digits say, and
encodes what it has as a timestamp.

`flexTime_lossless_iff` says when nothing is lost.  A number is split at its point, and the fraction
is added whatever the sign: `-1.5` is read as `-0.5`, and `-0.5` as `0.5`.  And an instant whose year
has not four digits is encoded as a text that is no timestamp.

The decoder is given a literal of a document: a string comes with what it denotes, and a number with
its text.
-/

set_option autoImplicit false

namespace GoJson

open GoBytes

/-! ## Numbers -/

/-- The exponent of a number, after its digits. -/
structure Exponent where
  letter : Byte
  sign : Option Byte
  digits : GoBytes
  letter_ok : letter = 101 ∨ letter = 69
  sign_ok : ∀ b ∈ sign, b = 43 ∨ b = 45
  digits_ok : digits ≠ [] ∧ ∀ b ∈ digits, IsDigit b

/-- A number as JSON has it. -/
structure Number where
  negative : Bool
  whole : GoBytes
  fraction : Option GoBytes := none
  exponent : Option Exponent := none
  whole_ok : whole ≠ [] ∧ ∀ b ∈ whole, IsDigit b
  no_leading_zero : whole.head? = some 48 → whole = [48]
  fraction_ok : ∀ ds ∈ fraction, ds ≠ [] ∧ ∀ b ∈ ds, IsDigit b

def Exponent.text : Option Exponent → GoBytes
  | none => []
  | some e => e.letter :: e.sign.toList ++ e.digits

/-- The power of ten that an exponent stands for. -/
def Exponent.power : Option Exponent → ℤ
  | none => 0
  | some e => if e.sign = some 45 then -((value e.digits).getD 0) else (value e.digits).getD 0

namespace Number

variable (n : Number)

def signText : GoBytes := if n.negative then [45] else []

def fractionText : GoBytes :=
  match n.fraction with
  | none => []
  | some ds => 46 :: ds

def text : GoBytes := n.signText ++ n.whole ++ n.fractionText ++ Exponent.text n.exponent

/-- What stands after the point. -/
def fractionRat : ℚ :=
  match n.fraction with
  | none => 0
  | some ds => (value ds).getD 0 / 10 ^ ds.length

/-- The decimal that the number is. -/
def toRat : ℚ :=
  let magnitude : ℚ := (value n.whole).getD 0 + n.fractionRat
  (if n.negative then -magnitude else magnitude) * 10 ^ Exponent.power n.exponent

end Number

/-- A literal as `UnmarshalJSON` is given it. -/
inductive Literal
  | null
  | string (s : GoBytes)
  | number (n : Number)
  /-- A truth value, an array or an object: its text begins like no number. -/
  | other

end GoJson

namespace ClassG.Model

open GoBytes GoJson GoTime

/-! ## The code -/

/-- `time.Unix(sec, nsec)`: the seconds of a `Time` have 64 bits. -/
def unix (sec nsec : ℤ) : GoTime :=
  Int.bmod (sec + nsec / 1000000000 + unixToInternal) (2 ^ 64) * 1000000000 + nsec % 1000000000

namespace FlexTime

/-- What `UnmarshalJSON` makes of the text of a number, in which there is nothing to trim. -/
def unmarshalNumber (b : GoBytes) : Option GoTime :=
  match toInt (b.takeWhile (· ≠ 46)) with
  | none => none
  | some sec =>
    match b.dropWhile (· ≠ 46) with
    | [] => some (unix sec 0)
    | _ :: fraction =>
      if fraction = [] ∨ 9 < fraction.length then none
      else
        (toInt (fraction ++ List.replicate (9 - fraction.length) 48)).map fun nsec ↦ unix sec nsec

/-- `UnmarshalJSON`, into the time that is there. -/
def unmarshalJSON (f : GoTime) : Literal → Option GoTime
  | .null => some f
  | .string s => if s = [] then some f else parseRFC3339Nano s
  | .number n => unmarshalNumber n.text
  | .other => none

/-- `MarshalJSON`. -/
def marshalJSON (f : GoTime) : Literal := .string (formatRFC3339Nano f)

/-! ## What the text of a number is read as -/

theorem value_eq_none {s : GoBytes} {b : Byte} (hb : b ∈ s) (h : ¬ IsDigit b) : value s = none := by
  induction s with
  | nil => cases hb
  | cons c s ih =>
    rw [value]
    rcases List.mem_cons.mp hb with rfl | hb
    · simp [show digitValue b = none by simpa [IsDigit] using h]
    · cases digitValue c <;> simp [ih hb]

/-- The integer that digits stand for with a sign, if it has 64 bits. -/
def signed (negative : Bool) (ds : GoBytes) : Option ℤ :=
  (value ds).bind fun v ↦
    let z : ℤ := if negative then -v else v
    if -2 ^ 63 ≤ z ∧ z < 2 ^ 63 then some z else none

/-- An integer, of what follows its sign. -/
theorem toInt_sign (negative : Bool) {b : Byte} (hb : IsDigit b) (ds : GoBytes) :
    toInt ((if negative then [45] else []) ++ b :: ds) = signed negative (b :: ds) := by
  have hsigned (c : Byte) (hc : ¬ IsDigit c) : b ≠ c := fun h ↦ hc (h ▸ hb)
  have h45 := hsigned 45 (by decide)
  have h43 := hsigned 43 (by decide)
  have hread (negative : Bool) : (do
      guard (b :: ds ≠ [])
      let n ← value (b :: ds)
      let v : ℤ := if negative then -n else n
      guard (-2 ^ 63 ≤ v ∧ v < 2 ^ 63)
      return v) = signed negative (b :: ds) := by
    rw [guard, if_pos (List.cons_ne_nil _ _), signed]
    cases value (b :: ds) with
    | none => rfl
    | some v =>
      simp only [Option.pure_def, Option.bind_eq_bind, Option.bind_some, guard]
      generalize (if negative = true then -(v : ℤ) else v) = z
      split <;> rfl
  cases negative with
  | true =>
    rw [← hread true, if_pos rfl, List.singleton_append]
    unfold toInt
    split
    rename_i heq
    split at heq
    · rename_i hcons
      obtain ⟨-, rfl⟩ := List.cons.inj hcons
      cases heq
      rfl
    · rename_i hcons
      exact absurd (List.cons.inj hcons).1 (by decide)
    · rename_i h _
      exact absurd rfl (h (b :: ds))
  | false =>
    rw [← hread false, if_neg (by decide), List.nil_append]
    unfold toInt
    split
    rename_i heq
    split at heq
    · rename_i hcons
      exact absurd (List.cons.inj hcons).1 h45
    · rename_i hcons
      exact absurd (List.cons.inj hcons).1 h43
    · cases heq
      rfl

section number

variable (n : Number)

/-- The whole seconds that a number has, with its sign. -/
def seconds : ℤ := if n.negative then -((value n.whole).getD 0) else (value n.whole).getD 0

/-- The digits of its fraction, filled up to nine. -/
def nanos : ℤ :=
  match n.fraction with
  | none => 0
  | some ds => (value ds).getD 0 * 10 ^ (9 - ds.length)

/-- The numbers that are accepted. -/
structure Accepts : Prop where
  exponent : n.exponent = none
  fraction : ∀ ds ∈ n.fraction, ds.length ≤ 9
  seconds : -2 ^ 63 ≤ seconds n ∧ seconds n < 2 ^ 63

theorem nanos_bounds (h : ∀ ds ∈ n.fraction, ds.length ≤ 9) :
    0 ≤ nanos n ∧ nanos n < 1000000000 := by
  unfold nanos
  cases hf : n.fraction with
  | none => simp
  | some ds =>
    obtain ⟨v, hv⟩ := exists_value (n.fraction_ok ds hf).2
    have hlt := (value_eq_some hv).1
    have hle : ds.length ≤ 9 := h ds hf
    obtain ⟨k, hk⟩ : ∃ k, 9 = ds.length + k := ⟨9 - ds.length, by omega⟩
    have hsub : 9 - ds.length = k := by omega
    have hmul : v * 10 ^ k < 10 ^ ds.length * 10 ^ k :=
      Nat.mul_lt_mul_of_pos_right hlt (by positivity)
    rw [← pow_add, ← hk] at hmul
    simp only [hv, Option.getD_some, hsub]
    exact ⟨by positivity, by exact_mod_cast hmul⟩

/-- The text before the point is the whole seconds, if nothing but digits follows the sign. -/
theorem toInt_whole (rest : GoBytes) :
    toInt (n.signText ++ n.whole ++ rest) = signed n.negative (n.whole ++ rest) := by
  obtain ⟨hne, hdigits⟩ := n.whole_ok
  obtain ⟨b, ds, hwhole⟩ := List.exists_cons_of_ne_nil hne
  rw [Number.signText, hwhole, List.append_assoc, List.cons_append,
    toInt_sign _ (hdigits b (hwhole ▸ List.mem_cons_self))]

theorem signed_whole : signed n.negative n.whole =
    if -2 ^ 63 ≤ seconds n ∧ seconds n < 2 ^ 63 then some (seconds n) else none := by
  obtain ⟨v, hv⟩ := exists_value n.whole_ok.2
  rw [signed, hv, Option.bind_some, seconds, hv, Option.getD_some]

/-- Digits with anything else among them are no integer. -/
theorem signed_eq_none {negative : Bool} {s : GoBytes} {b : Byte} (hb : b ∈ s) (h : ¬ IsDigit b) :
    signed negative s = none := by
  rw [signed, value_eq_none hb h]
  rfl

/-- The digits of a fraction, filled up to nine. -/
theorem toInt_fraction {ds : GoBytes} (hds : ds ≠ [] ∧ ∀ b ∈ ds, IsDigit b) (hle : ds.length ≤ 9) :
    toInt (ds ++ List.replicate (9 - ds.length) 48) =
      some ((((value ds).getD 0 : ℕ) : ℤ) * 10 ^ (9 - ds.length)) := by
  obtain ⟨v, hv⟩ := exists_value hds.2
  obtain ⟨b, ds', hcons⟩ := List.exists_cons_of_ne_nil hds.1
  have hb : IsDigit b := hds.2 b (hcons ▸ List.mem_cons_self)
  have hint := toInt_sign false hb (ds' ++ List.replicate (9 - ds.length) 48)
  rw [if_neg (by decide), List.nil_append, ← List.cons_append, ← hcons] at hint
  have hlt : (v : ℤ) * 10 ^ (9 - ds.length) < 2 ^ 63 := by
    have h1 : v * 10 ^ (9 - ds.length) < 10 ^ ds.length * 10 ^ (9 - ds.length) :=
      Nat.mul_lt_mul_of_pos_right (value_eq_some hv).1 (by positivity)
    rw [← pow_add, show ds.length + (9 - ds.length) = 9 by omega] at h1
    have h2 : v * 10 ^ (9 - ds.length) < 2 ^ 63 := by omega
    exact_mod_cast h2
  have h0 : (-2 ^ 63 : ℤ) ≤ (v : ℤ) * 10 ^ (9 - ds.length) := by
    have : (0 : ℤ) ≤ (v : ℤ) * 10 ^ (9 - ds.length) := by positivity
    omega
  rw [hint, signed, value_append_zeros, hv, Option.map_some, Option.bind_some, Option.getD_some]
  simp only [Bool.false_eq_true, if_false]
  push_cast
  rw [if_pos ⟨h0, hlt⟩]

/-- The first letter of an exponent is no digit and no point. -/
theorem exists_letter {e : Option Exponent} (he : e ≠ none) :
    ∃ b s, Exponent.text e = b :: s ∧ ¬ IsDigit b := by
  cases e with
  | none => exact absurd rfl he
  | some e =>
    refine ⟨_, _, rfl, ?_⟩
    rcases e.letter_ok with h | h <;> rw [h] <;> decide

/-- There is no point before the fraction, and none in an exponent. -/
theorem point_notMem :
    (46 : Byte) ∉ n.signText ++ n.whole ∧ (46 : Byte) ∉ Exponent.text n.exponent := by
  have hdigit {ds : GoBytes} (h : ∀ b ∈ ds, IsDigit b) : (46 : Byte) ∉ ds :=
    fun hmem ↦ absurd (h _ hmem) (by decide)
  constructor
  · rw [List.mem_append, not_or]
    refine ⟨?_, hdigit n.whole_ok.2⟩
    rw [Number.signText]
    split <;> simp
  · cases n.exponent with
    | none => simp [Exponent.text]
    | some e =>
      simp only [Exponent.text, List.cons_append, List.mem_cons, List.mem_append, not_or]
      refine ⟨?_, ?_, hdigit e.digits_ok.2⟩
      · rcases e.letter_ok with h | h <;> rw [h] <;> decide
      · intro hmem
        rcases e.sign_ok 46 (by simpa using hmem) with h | h <;> exact absurd h (by decide)

/-- What is before the point, and the rest. -/
theorem span_point {s t : GoBytes} (hs : (46 : Byte) ∉ s) (ht : ∀ b ∈ t.head?, b = 46) :
    (s ++ t).takeWhile (· ≠ 46) = s ∧ (s ++ t).dropWhile (· ≠ 46) = t := by
  have hall : ∀ b ∈ s, decide (b ≠ (46 : Byte)) = true := by
    intro b hb
    rw [decide_eq_true_eq]
    rintro rfl
    exact hs hb
  rw [List.takeWhile_append_of_pos hall, List.dropWhile_append_of_pos hall]
  cases t with
  | nil => simp
  | cons b t => simp [ht b rfl]

/-- **The numbers that are read, and as what.** -/
theorem unmarshalNumber_eq_some {t : GoTime} :
    unmarshalNumber n.text = some t ↔ Accepts n ∧ t = unix (seconds n) (nanos n) := by
  obtain ⟨hfirst, hexp⟩ := point_notMem n
  rw [unmarshalNumber, Number.text, Number.fractionText]
  cases hf : n.fraction with
  | none =>
    have hnanos : nanos n = 0 := by rw [nanos, hf]
    have hspan := span_point (s := n.signText ++ n.whole ++ Exponent.text n.exponent) (t := [])
      (by rw [List.mem_append, not_or]; exact ⟨hfirst, hexp⟩) (by rintro b ⟨⟩)
    rw [List.append_nil] at hspan ⊢
    rw [hspan.1, hspan.2, toInt_whole, hnanos]
    by_cases he : n.exponent = none
    · rw [he, Exponent.text, List.append_nil, signed_whole]
      by_cases hrange : -2 ^ 63 ≤ seconds n ∧ seconds n < 2 ^ 63
      · have haccepts : Accepts n := ⟨he, by simp [hf], hrange⟩
        rw [if_pos hrange]
        simp [haccepts, eq_comm]
      · rw [if_neg hrange]
        simp only [reduceCtorEq, false_iff, not_and]
        exact fun haccepts ↦ absurd haccepts.seconds hrange
    · obtain ⟨b, s, htext, hb⟩ := exists_letter he
      rw [htext, signed_eq_none (b := b) (by simp) hb]
      simp only [reduceCtorEq, false_iff, not_and]
      exact fun haccepts ↦ absurd haccepts.exponent he
  | some ds =>
    have hds := n.fraction_ok ds hf
    have hnanos : nanos n = ((value ds).getD 0 : ℕ) * 10 ^ (9 - ds.length) := by rw [nanos, hf]
    have hspan := span_point (s := n.signText ++ n.whole)
      (t := 46 :: (ds ++ Exponent.text n.exponent)) hfirst (by rintro b ⟨⟩; rfl)
    have hwhole := toInt_whole n []
    rw [List.append_nil, List.append_nil] at hwhole
    have htext : n.signText ++ n.whole ++ 46 :: ds ++ Exponent.text n.exponent =
        n.signText ++ n.whole ++ 46 :: (ds ++ Exponent.text n.exponent) := by simp
    dsimp only
    rw [htext, hspan.1, hspan.2, hwhole, signed_whole]
    by_cases hrange : -2 ^ 63 ≤ seconds n ∧ seconds n < 2 ^ 63
    · rw [if_pos hrange]
      dsimp only
      by_cases he : n.exponent = none
      · rw [he, Exponent.text, List.append_nil]
        by_cases hle : ds.length ≤ 9
        · have haccepts : Accepts n := ⟨he, by simpa [hf] using hle, hrange⟩
          rw [if_neg (by simp [hds.1, hle]), toInt_fraction hds hle, ← hnanos]
          simp [haccepts, eq_comm]
        · rw [if_pos (.inr (by omega))]
          simp only [reduceCtorEq, false_iff, not_and]
          exact fun haccepts ↦ absurd (haccepts.fraction ds hf) hle
      · obtain ⟨c, s, htext, hc⟩ := exists_letter he
        obtain ⟨b, ds', hcons⟩ := List.exists_cons_of_ne_nil hds.1
        have hb : IsDigit b := hds.2 b (hcons ▸ List.mem_cons_self)
        have hnone (rest : GoBytes) : toInt (ds ++ c :: s ++ rest) = none := by
          have hint := toInt_sign false hb (ds' ++ c :: s ++ rest)
          rw [if_neg (by decide), List.nil_append, signed_eq_none (b := c) (by simp) hc] at hint
          rw [hcons]
          simpa using hint
        rw [htext, hnone]
        simp only [Option.map_none, ite_self, reduceCtorEq, false_iff, not_and]
        exact fun haccepts ↦ absurd haccepts.exponent he
    · rw [if_neg hrange]
      simp only [reduceCtorEq, false_iff, not_and]
      exact fun haccepts ↦ absurd haccepts.seconds hrange

/-! ## The instant that is meant -/

/-- The instant that a number stands for, in nanoseconds. -/
def instant : ℚ := (unixToInternal + n.toRat) * 1000000000

/-- What the number is, of its seconds and nanoseconds. -/
theorem instant_eq (h : Accepts n) : instant n =
    if n.negative then (unixToInternal + seconds n) * 1000000000 - nanos n
    else (unixToInternal + seconds n) * 1000000000 + nanos n := by
  have hfraction : n.fractionRat * 1000000000 = nanos n := by
    unfold nanos Number.fractionRat
    cases hf : n.fraction with
    | none => simp
    | some ds =>
      have hle := h.fraction ds hf
      obtain ⟨k, hk⟩ : ∃ k, 9 = ds.length + k := ⟨9 - ds.length, by omega⟩
      have hsub : 9 - ds.length = k := by omega
      have hpow : (1000000000 : ℚ) = 10 ^ ds.length * 10 ^ k := by
        rw [← pow_add, ← hk]
        norm_num
      dsimp only
      rw [hsub, hpow]
      push_cast
      field_simp
  rw [instant, Number.toRat, h.exponent, Exponent.power, zpow_zero, mul_one, seconds]
  split
  · push_cast
    rw [← hfraction]
    ring
  · push_cast
    rw [← hfraction]
    ring

/-- The number has a sign that its fraction would have to follow. -/
def SignedFraction : Prop := n.negative = true ∧ nanos n ≠ 0

instance : Decidable (SignedFraction n) := inferInstanceAs (Decidable (_ ∧ _))

/-- The instant of a number whose fraction has no sign. -/
theorem instant_of_unsigned (h : Accepts n) (hsign : ¬ SignedFraction n) :
    instant n = ((unixToInternal + seconds n) * 1000000000 + nanos n : ℤ) := by
  rw [instant_eq n h]
  push_cast
  split
  · rename_i hneg
    have hzero : nanos n = 0 := by
      by_contra hne
      exact hsign ⟨hneg, hne⟩
    rw [hzero]
    simp
  · rfl

end number

/-- The instants of the years that have four digits. -/
theorem bounds_of_inRange {t : ℤ} (h : InRange t) :
    -31622400000000000 ≤ t ∧ t < 315537897600000000000 := by
  constructor
  · by_contra hlt
    have hyear : year (-31622400000000001) = -1 := by decide
    have := year_mono (show t ≤ -31622400000000001 by omega)
    have := h.1
    omega
  · by_contra hge
    have hyear : year 315537897600000000000 = 10000 := by decide
    have := year_mono (show 315537897600000000000 ≤ t by omega)
    have := h.2
    omega

/-- The years of four digits are far from where the seconds end. -/
theorem unix_of_inRange {sec nsec : ℤ} (hnsec : 0 ≤ nsec ∧ nsec < 1000000000)
    (h : InRange ((unixToInternal + sec) * 1000000000 + nsec)) :
    unix sec nsec = (unixToInternal + sec) * 1000000000 + nsec := by
  have hb := bounds_of_inRange h
  have hdiv : nsec / 1000000000 = 0 := by omega
  have hmod : nsec % 1000000000 = nsec := by omega
  generalize hsum : unixToInternal + sec = internal at *
  rw [unix, hdiv, hmod, Int.add_zero, Int.add_comm sec, hsum,
    Int.bmod_eq_of_le (by omega) (by omega)]

/-- A sign that the fraction does not follow makes a difference. -/
theorem not_signedFraction {n : Number} (h : Accepts n)
    (heq : (unix (seconds n) (nanos n) : ℚ) = instant n) : ¬ SignedFraction n := by
  rintro ⟨hneg, hne⟩
  have hb := nanos_bounds n h.fraction
  have hdiv : nanos n / 1000000000 = 0 := by omega
  have hmod : nanos n % 1000000000 = nanos n := by omega
  rw [instant_eq n h, if_pos hneg, unix, hdiv, hmod, Int.add_zero] at heq
  have hint : Int.bmod (seconds n + unixToInternal) (2 ^ 64) * 1000000000 + nanos n =
      (unixToInternal + seconds n) * 1000000000 - nanos n := by exact_mod_cast heq
  -- The fraction would be counted twice, and the seconds are right up to a multiple of `2 ^ 64`.
  obtain ⟨k, hk⟩ : ((2 ^ 64 : ℕ) : ℤ) ∣ _ :=
    Int.dvd_bmod_sub_self (x := seconds n + unixToInternal) (m := 2 ^ 64)
  generalize Int.bmod (seconds n + unixToInternal) (2 ^ 64) = b at *
  omega

/-! ## Nothing is lost -/

/-- A literal is decoded as what it stands for, and what it is encoded as again is decoded so. -/
structure Lossless (l : Literal) (t : GoTime) : Prop where
  exact : ∀ n, l = .number n → (t : ℚ) = instant n
  denoted : ∀ w : Written, l = .string w.text → t = ⌊w.instant⌋
  encodes : ∀ f, unmarshalJSON f (marshalJSON t) = some t

/-- A number has no sign or no fraction, and the year is one of four digits; with nothing to decode,
it is the year of the time that is there. -/
def Keeps (f : GoTime) : Literal → Prop
  | .null => InRange f
  | .string s => (s = [] → InRange f) ∧ ∀ w : Written, w.text = s → InRange ⌊w.instant⌋
  | .number n => ¬ SignedFraction n ∧ InRange ⌊instant n⌋
  | .other => True

/-- A time can be decoded again if its year has four digits. -/
theorem unmarshalJSON_marshalJSON {f t : GoTime} :
    unmarshalJSON f (marshalJSON t) = some t ↔ InRange t := by
  have hne : formatRFC3339Nano t ≠ [] := by simp [formatRFC3339Nano]
  rw [marshalJSON, unmarshalJSON, if_neg hne]
  refine ⟨fun h ↦ ?_, parseRFC3339Nano_formatRFC3339Nano⟩
  rw [← isSome_parse_formatRFC3339Nano, h]
  rfl

/-- **When nothing is lost.** -/
theorem flexTime_lossless_iff {f t : GoTime} {l : Literal} (h : unmarshalJSON f l = some t) :
    Lossless l t ↔ Keeps f l := by
  constructor
  · rintro ⟨hexact, hdenoted, hencodes⟩
    have hrange : InRange t := unmarshalJSON_marshalJSON.mp (hencodes 0)
    cases l with
    | null =>
      cases h
      exact hrange
    | string s =>
      refine ⟨fun hs ↦ ?_, fun w hw ↦ ?_⟩
      · rw [unmarshalJSON, if_pos hs] at h
        cases h
        exact hrange
      · rw [← hdenoted w (by rw [hw])]
        exact hrange
    | number n =>
      obtain ⟨haccepts, rfl⟩ := (unmarshalNumber_eq_some n).mp h
      have heq := hexact n rfl
      refine ⟨not_signedFraction haccepts heq, ?_⟩
      rw [← heq, Int.floor_intCast]
      exact hrange
    | other => trivial
  · intro hkeeps
    suffices hsuff : (∀ n, l = .number n → (t : ℚ) = instant n) ∧ InRange t by
      refine ⟨hsuff.1, fun w hw ↦ ?_, fun _ ↦ unmarshalJSON_marshalJSON.mpr hsuff.2⟩
      have hne : w.text ≠ [] := by simp [Written.text, Written.secondsText]
      rw [hw, unmarshalJSON, if_neg hne] at h
      exact Option.some.inj (h.symm.trans (parseRFC3339Nano_eq_some_iff.mpr ⟨w, rfl, rfl⟩))
    cases l with
    | null =>
      cases h
      exact ⟨fun _ hn ↦ (by cases hn), hkeeps⟩
    | string s =>
      refine ⟨fun _ hn ↦ (by cases hn), ?_⟩
      rw [unmarshalJSON] at h
      split at h
      · rename_i hs
        cases h
        exact hkeeps.1 hs
      · obtain ⟨w, hw, rfl⟩ := parseRFC3339Nano_eq_some_iff.mp h
        exact hkeeps.2 w hw
    | number n =>
      obtain ⟨haccepts, rfl⟩ := (unmarshalNumber_eq_some n).mp h
      obtain ⟨hsign, hrange⟩ := hkeeps
      rw [instant_of_unsigned n haccepts hsign, Int.floor_intCast] at hrange
      have hunix := unix_of_inRange (nanos_bounds n haccepts.fraction) hrange
      refine ⟨?_, hunix ▸ hrange⟩
      rintro _ ⟨⟩
      rw [instant_of_unsigned n haccepts hsign, hunix]
    | other => cases h

/-- `1.5`, or `-1.5`. -/
def oneAndAHalf (negative : Bool) : Number where
  negative := negative
  whole := [49]
  fraction := some [53]
  whole_ok := by decide +kernel
  no_leading_zero := by decide
  fraction_ok := by decide +kernel

/-- `1.5` is decoded as what it is. -/
theorem lossless_oneAndAHalf :
    Lossless (.number (oneAndAHalf false)) (unixToInternal * 1000000000 + 1500000000) :=
  (flexTime_lossless_iff (f := 0) (by decide)).mpr ⟨by decide, by decide +kernel⟩

/-- `-1.5` is decoded as `-0.5`, a second too late. -/
theorem lossy_minus_oneAndAHalf :
    unmarshalJSON 0 (.number (oneAndAHalf true)) =
        some (unixToInternal * 1000000000 - 500000000) ∧
      instant (oneAndAHalf true) = unixToInternal * 1000000000 - 1500000000 ∧
      ¬ Lossless (.number (oneAndAHalf true)) (unixToInternal * 1000000000 - 500000000) := by
  have hinstant : instant (oneAndAHalf true) = unixToInternal * 1000000000 - 1500000000 := by
    decide +kernel
  refine ⟨by decide, hinstant, fun h ↦ ?_⟩
  have heq := h.exact _ rfl
  rw [hinstant] at heq
  norm_num at heq

/-! ## Documents that are parsed already -/

/-- The decimal, of the seconds and nanoseconds. -/
theorem toRat_mul {n : Number} (h : Accepts n) :
    n.toRat * 1000000000 =
      if n.negative then seconds n * 1000000000 - nanos n
      else seconds n * 1000000000 + nanos n := by
  have heq := instant_eq n h
  rw [instant, add_mul] at heq
  split at heq
  · rename_i hneg
    rw [if_pos hneg]
    push_cast at heq ⊢
    linarith
  · rename_i hneg
    rw [if_neg hneg]
    push_cast at heq ⊢
    linarith

/-- `flexTime` is given the decimal instead of its text, and makes the same of it. -/
theorem flexTime_toRat {n : Number} (h : Accepts n)
    (hrange : -2 ^ 63 ≤ seconds n + unixToInternal ∧ seconds n + unixToInternal < 2 ^ 63)
    (f : GoTime) : flexTime f (.num n.toRat) = unmarshalJSON f (.number n) := by
  have hb := nanos_bounds n h.fraction
  have hmul := toRat_mul h
  have hlt : (nanos n : ℚ) < 1000000000 := by exact_mod_cast hb.2
  have hge : (0 : ℚ) ≤ nanos n := by exact_mod_cast hb.1
  -- The decimal is cut off towards zero, and what is cut off is the nanoseconds.
  have hcut : (if 0 ≤ n.toRat then ⌊n.toRat⌋ else ⌈n.toRat⌉) = seconds n ∧
      |n.toRat - seconds n| * 10 ^ 9 = nanos n := by
    by_cases hneg : n.negative = true
    · have hle : (seconds n : ℚ) ≤ 0 := by
        have : seconds n ≤ 0 := by simp [seconds, hneg]
        exact_mod_cast this
      rw [if_pos hneg] at hmul
      push_cast at hmul
      refine ⟨?_, ?_⟩
      · split
        · rw [Int.floor_eq_iff]
          constructor <;> linarith
        · rw [Int.ceil_eq_iff]
          constructor <;> linarith
      · rw [abs_of_nonpos (by linarith)]
        linarith
    · have hle : (0 : ℚ) ≤ seconds n := by
        have : 0 ≤ seconds n := by simp [seconds, hneg]
        exact_mod_cast this
      rw [if_neg hneg] at hmul
      push_cast at hmul
      refine ⟨?_, ?_⟩
      · rw [if_pos (by linarith), Int.floor_eq_iff]
        constructor <;> linarith
      · rw [abs_of_nonneg (by linarith)]
        linarith
  have hunix : unix (seconds n) (nanos n) =
      (unixToInternal + seconds n) * GoDuration.second + nanos n := by
    have hdiv : nanos n / 1000000000 = 0 := by omega
    have hmod : nanos n % 1000000000 = nanos n := by omega
    rw [unix, hdiv, hmod, Int.add_zero, Int.bmod_eq_of_le (by omega) (by omega),
      Int.add_comm (seconds n)]
    rfl
  rw [unmarshalJSON, (unmarshalNumber_eq_some n).mpr ⟨h, rfl⟩, flexTime, hcut.1, hcut.2, hunix]
  rw [if_pos ⟨Rat.den_intCast _, h.seconds⟩, Rat.num_intCast]

end FlexTime

end ClassG.Model
