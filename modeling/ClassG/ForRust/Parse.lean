import ClassG.Binary64
import ClassG.ForGo.Bytes
import ClassG.ForGo.Strings

/-!
# Numbers and text in Rust

`str::parse` for `f64` and `i64`, and the few methods of `str` that a parser of lines uses.  Text is
a list of characters; white space is `White_Space` of Unicode, as in Go.  Bytes are read as UTF-8
with `from_utf8_lossy`.
-/

set_option autoImplicit false

namespace RustText

/-- `str::trim`. -/
def trim (s : List Char) : List Char :=
  ((s.dropWhile GoString.isSpace).reverse.dropWhile GoString.isSpace).reverse

/-- `char::is_ascii_digit`. -/
def isDigit (c : Char) : Bool := '0' ≤ c ∧ c ≤ '9'

/-- `make_ascii_lowercase`. -/
def asciiLower (s : List Char) : List Char := s.map fun c ↦ if c.toNat < 0x80 then c.toLower else c

/-- A sign, and what follows it. -/
def takeSign : List Char → Bool × List Char
  | '-' :: s => (true, s)
  | '+' :: s => (false, s)
  | s => (false, s)

/-- The number that digits stand for. -/
def ofDigits (ds : List Char) : ℕ := ds.foldl (fun n c ↦ n * 10 + (c.toNat - '0'.toNat)) 0

/-- An exponent, if the text goes on with one, and nothing after it. -/
def takeExponent : List Char → Option ℤ
  | [] => some 0
  | e :: s =>
    let (neg, ds) := takeSign s
    if (e = 'e' ∨ e = 'E') ∧ ds ≠ [] ∧ ds.all isDigit then
      some (if neg then -(ofDigits ds) else ofDigits ds)
    else none

/-- The digits after a point, if the text goes on with one. -/
def takeFraction : List Char → List Char × List Char
  | '.' :: s => s.span isDigit
  | s => ([], s)

/-- A decimal number without a sign: digits before or after the point, or both. -/
def decimal (s : List Char) : Option ℚ :=
  let (whole, s) := s.span isDigit
  let (fraction, s) := takeFraction s
  if whole = [] ∧ fraction = [] then none
  else (takeExponent s).map fun e : ℤ ↦
    (ofDigits (whole ++ fraction) : ℚ) * 10 ^ (e - fraction.length)

/-- `parse::<f64>`. -/
def parseF64 (s : List Char) : Option Double :=
  let (neg, s) := takeSign s
  if asciiLower s = "nan".toList then some .nan
  else if asciiLower s = "inf".toList ∨ asciiLower s = "infinity".toList then some (.inf neg)
  else (decimal s).map fun q ↦ .round (if neg then -q else q)

/-- `parse::<i64>`. -/
def parseI64 (s : List Char) : Option ℤ :=
  let (neg, ds) := takeSign s
  if ds ≠ [] ∧ ds.all isDigit then
    let n : ℤ := if neg then -(ofDigits ds) else ofDigits ds
    if -2 ^ 63 ≤ n ∧ n < 2 ^ 63 then some n else none
  else none

/-- `str::to_uppercase`, with the upper case of the letters outside ASCII given: it may be several
letters. -/
def toUppercase (upper : Char → List Char) (s : List Char) : List Char :=
  s.flatMap fun c ↦ if c.toNat < 0x80 then [c.toUpper] else upper c

/-! ## UTF-8 -/

/-- U+FFFD. -/
def replacement : Char := .ofNat 0xFFFD

/-- A byte that goes on with a character. -/
def isContinuation (b : Byte) : Bool := 0x80 ≤ b.val ∧ b.val ≤ 0xBF

/-- The first byte of a character of two bytes. -/
def isLead2 (b : Byte) : Bool := 0xC2 ≤ b.val ∧ b.val ≤ 0xDF

/-- The first two bytes of a character of three bytes. -/
def isLead3 (b c : Byte) : Bool :=
  (b.val = 0xE0 ∧ 0xA0 ≤ c.val ∧ c.val ≤ 0xBF) ∨ (b.val = 0xED ∧ 0x80 ≤ c.val ∧ c.val ≤ 0x9F) ∨
    (0xE1 ≤ b.val ∧ b.val ≤ 0xEF ∧ b.val ≠ 0xED ∧ isContinuation c)

/-- The first two bytes of a character of four bytes. -/
def isLead4 (b c : Byte) : Bool :=
  (b.val = 0xF0 ∧ 0x90 ≤ c.val ∧ c.val ≤ 0xBF) ∨ (b.val = 0xF4 ∧ 0x80 ≤ c.val ∧ c.val ≤ 0x8F) ∨
    (0xF1 ≤ b.val ∧ b.val ≤ 0xF3 ∧ isContinuation c)

/-- `String::from_utf8_lossy`: as much of a character as there is becomes one replacement. -/
def fromUtf8Lossy : List Byte → List Char
  | [] => []
  | b :: rest =>
    if b.val < 0x80 then .ofNat b.val :: fromUtf8Lossy rest
    else
      match rest with
      | [] => [replacement]
      | c :: rest₂ =>
        if isLead2 b ∧ isContinuation c then
          .ofNat (b.val % 0x20 * 0x40 + c.val % 0x40) :: fromUtf8Lossy rest₂
        else if isLead3 b c then
          match rest₂ with
          | [] => [replacement]
          | d :: rest₃ =>
            if isContinuation d then
              .ofNat ((b.val % 0x10 * 0x40 + c.val % 0x40) * 0x40 + d.val % 0x40) ::
                fromUtf8Lossy rest₃
            else replacement :: fromUtf8Lossy (d :: rest₃)
        else if isLead4 b c then
          match rest₂ with
          | [] => [replacement]
          | d :: rest₃ =>
            if isContinuation d then
              match rest₃ with
              | [] => [replacement]
              | e :: rest₄ =>
                if isContinuation e then
                  .ofNat (((b.val % 0x08 * 0x40 + c.val % 0x40) * 0x40 + d.val % 0x40) * 0x40 +
                    e.val % 0x40) :: fromUtf8Lossy rest₄
                else replacement :: fromUtf8Lossy (e :: rest₄)
            else replacement :: fromUtf8Lossy (d :: rest₃)
        else replacement :: fromUtf8Lossy (c :: rest₂)

end RustText
