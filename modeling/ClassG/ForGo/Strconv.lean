import ClassG.Binary64
import ClassG.ForGo.Strings
import ClassG.ForGo.Time

/-!
# Numbers in Go text

`strconv.ParseBool`, `Atoi` and `ParseFloat`, `time.ParseDuration` and the text of a `Duration`.  An
error is `none`: the callers replace its text by their own.  A number out of range is an error too.
-/

set_option autoImplicit false

namespace GoStrconv

/-- `strconv.ParseBool`. -/
def parseBool (s : String) : Option Bool :=
  if s ∈ ["1", "t", "T", "TRUE", "true", "True"] then some true
  else if s ∈ ["0", "f", "F", "FALSE", "false", "False"] then some false
  else none

def isDigit (c : Char) : Bool := '0' ≤ c ∧ c ≤ '9'

/-- `lower`: of the letters, the small one. -/
def lower (c : Char) : Char := if 'A' ≤ c ∧ c ≤ 'Z' then c.toLower else c

def isHexDigit (c : Char) : Bool := isDigit c || ('a' ≤ lower c && lower c ≤ 'f')

/-- The value of a digit, decimal or hexadecimal. -/
def digitValue (c : Char) : ℕ :=
  if isDigit c then c.toNat - '0'.toNat else (lower c).toNat - 'a'.toNat + 10

/-- The number that digits stand for. -/
def ofDigits (base : ℕ) (ds : List Char) : ℕ := ds.foldl (fun n c ↦ n * base + digitValue c) 0

/-- A sign, and what follows it. -/
def takeSign : List Char → Bool × List Char
  | '-' :: s => (true, s)
  | '+' :: s => (false, s)
  | s => (false, s)

/-- `strconv.Atoi`: an `int` has 64 bits. -/
def atoi (s : String) : Option ℤ :=
  let (neg, ds) := takeSign s.toList
  if ds ≠ [] ∧ ds.all isDigit then
    let n : ℤ := if neg then -(ofDigits 10 ds) else ofDigits 10 ds
    if -2 ^ 63 ≤ n ∧ n < 2 ^ 63 then some n else none
  else none

/-! ## Floating point -/

/-- What `underscoreOK` saw last. -/
inductive Seen
  | begin | digit | underscore | other
  deriving DecidableEq

/-- A step of `underscoreOK`. -/
def Seen.step (hex : Bool) (seen : Option Seen) (c : Char) : Option Seen :=
  match seen with
  | none => none
  | some i =>
    if isDigit c || (hex && isHexDigit c) then some .digit
    else if c = '_' then if i = .digit then some .underscore else none
    else if i = .underscore then none
    else some .other

/-- `underscoreOK`: underscores stand between digits, or between a prefix and a digit. -/
def underscoreOK (s : List Char) : Bool :=
  let (_, s) := takeSign s
  let last := match s with
    | '0' :: c :: rest =>
      if lower c ∈ ['b', 'o', 'x'] then
        rest.foldl (Seen.step (lower c == 'x')) (some .digit)
      else s.foldl (Seen.step false) (some .begin)
    | _ => s.foldl (Seen.step false) (some .begin)
  last ≠ none && last ≠ some .underscore

/-- The digits of a mantissa with a point, and what follows them. -/
def takeMantissa (digit : Char → Bool) (s : List Char) : List Char × List Char × List Char :=
  let (whole, s) := s.span digit
  match s with
  | '.' :: s =>
    let (fraction, s) := s.span digit
    (whole, fraction, s)
  | _ => (whole, [], s)

/-- An exponent after its letter, without underscores: it stops growing when it is large. -/
def readExponent (s : List Char) : Option ℤ :=
  let (neg, ds) := takeSign s
  if ds ≠ [] ∧ ds.all isDigit then
    let e := ds.foldl (fun e c ↦ if e < 10000 then e * 10 + digitValue c else e) 0
    some (if neg then -e else e)
  else none

/-- A number in hexadecimal, after the prefix: it has to have an exponent. -/
def readHex (s : List Char) : Option ℚ :=
  let (whole, fraction, s) := takeMantissa isHexDigit s
  match s with
  | p :: s =>
    if whole ++ fraction ≠ [] ∧ lower p = 'p' then
      (readExponent s).map fun e : ℤ ↦
        (ofDigits 16 (whole ++ fraction) : ℚ) * 2 ^ (e - 4 * fraction.length)
    else none
  | [] => none

/-- A decimal number. -/
def readDecimal (s : List Char) : Option ℚ :=
  let (whole, fraction, s) := takeMantissa isDigit s
  if whole ++ fraction = [] then none
  else
    let scaled := fun e : ℤ ↦ (ofDigits 10 (whole ++ fraction) : ℚ) * 10 ^ (e - fraction.length)
    match s with
    | [] => some (scaled 0)
    | e :: s => if lower e = 'e' then (readExponent s).map scaled else none

/-- `readFloat`: the number without its sign. -/
def readFloat (s : List Char) : Option ℚ :=
  if '_' ∈ s ∧ underscoreOK s = false then none
  else
    match s.filter (· ≠ '_') with
    | '0' :: x :: rest => if lower x = 'x' then readHex rest else readDecimal ('0' :: x :: rest)
    | s => readDecimal s

/-- `strconv.ParseFloat`. -/
def parseFloat (s : String) : Option Double :=
  let (neg, t) := takeSign s.toList
  let word := String.ofList (t.map lower)
  if word = "inf" ∨ word = "infinity" then some (.inf neg)
  else if String.ofList (s.toList.map lower) = "nan" then some .nan
  else
    match readFloat t with
    | none => none
    | some q =>
      match Double.round (if neg then -q else q) with
      | .fin q => some (.fin q)
      | _ => none

/-! ## Durations -/

/-- `unitMap`, in nanoseconds. -/
def unit (u : String) : Option ℕ :=
  if u = "ns" then some 1
  else if u = "us" ∨ u = "µs" ∨ u = "μs" then some 1000
  else if u = "ms" then some 1000000
  else if u = "s" then some 1000000000
  else if u = "m" then some 60000000000
  else if u = "h" then some 3600000000000
  else none

/-- `leadingInt` of digits: more than `1 << 63` is an error. -/
def leadingInt (ds : List Char) : Option ℕ :=
  ds.foldl (fun x c ↦ x.bind fun x ↦
    if 2 ^ 63 / 10 < x then none
    else
      let x := x * 10 + digitValue c
      if 2 ^ 63 < x then none else some x) (some 0)

/-- `leadingFraction` of digits: those that do not fit are dropped. -/
def leadingFraction : ℕ → ℕ → List Char → ℕ × ℕ
  | x, scale, [] => (x, scale)
  | x, scale, c :: ds =>
    if (2 ^ 63 - 1) / 10 < x then (x, scale)
    else
      let y := x * 10 + digitValue c
      if 2 ^ 63 < y then (x, scale) else leadingFraction y (scale * 10) ds

/-- What a fraction of a unit comes to: the product and the quotient are of floating point. -/
def fractionOf (f scale unit : ℕ) : ℕ :=
  if f = 0 then 0
  else ⌊Double.nearest (Double.nearest f * Double.nearest (unit / scale))⌋₊

/-- The terms of a duration: each is a number with its unit. -/
def durationTerms : ℕ → ℕ → List Char → Option ℕ
  | _, d, [] => some d
  | 0, _, _ :: _ => none
  | fuel + 1, d, s => do
    let (whole, fraction, rest) := takeMantissa isDigit s
    let v ← leadingInt whole
    let (f, scale) := leadingFraction 0 1 fraction
    if whole ++ fraction = [] then none
    let (u, rest) := rest.span fun c ↦ !(c == '.' || isDigit c)
    let unit ← unit (.ofList u)
    if 2 ^ 63 / unit < v then none
    let v := v * unit + fractionOf f scale unit
    if 2 ^ 63 < v then none
    if 2 ^ 63 < d + v then none
    durationTerms fuel (d + v) rest

/-- `time.ParseDuration`. -/
def parseDuration (s : String) : Option GoDuration :=
  let (neg, t) := takeSign s.toList
  if t = ['0'] then some 0
  else if t = [] then none
  else
    (durationTerms t.length 0 t).bind fun d ↦
      if neg then some (-d) else if 2 ^ 63 - 1 < d then none else some d

/-- `fmtFrac`: the fraction without the zeros at its end, and without the point if there is none. -/
def fmtFrac (v prec : ℕ) : String :=
  let ds := (Nat.toDigits 10 (10 ^ prec + v % 10 ^ prec)).tail
  let ds := (ds.reverse.dropWhile (· = '0')).reverse
  if ds = [] then "" else "." ++ .ofList ds

/-- A number with a fraction. -/
def fmtUnit (u prec : ℕ) (name : String) : String :=
  toString (u / 10 ^ prec) ++ fmtFrac u prec ++ name

/-- `Duration.String`. -/
def durationString (d : GoDuration) : String :=
  let u := d.natAbs
  let sign := if d < 0 then "-" else ""
  if u = 0 then "0s"
  else if u < 1000 then sign ++ fmtUnit u 0 "ns"
  else if u < 1000000 then sign ++ fmtUnit u 3 "µs"
  else if u < 1000000000 then sign ++ fmtUnit u 6 "ms"
  else
    let s := u / 1000000000
    let seconds := toString (s % 60) ++ fmtFrac u 9 ++ "s"
    let m := s / 60
    if m = 0 then sign ++ seconds
    else if m / 60 = 0 then sign ++ toString (m % 60) ++ "m" ++ seconds
    else sign ++ toString (m / 60) ++ "h" ++ toString (m % 60) ++ "m" ++ seconds

example : parseDuration "1h2m3.5s" = some 3723500000000 := by decide +kernel

example : durationString 3723500000000 = "1h2m3.5s" := by decide

end GoStrconv
