import Mathlib.Tactic.Common

/-!
# Go strings

The functions of package `strings` that the services use on identifiers and topics.  `TrimSpace`
cuts the Unicode white space off both ends.  `ToUpper`, `ToLower` and `EqualFold` work rune by rune;
what they do to a letter outside ASCII is a table of the Unicode standard and is taken as a
parameter.
-/

set_option autoImplicit false

namespace GoString

/-- `unicode.IsSpace`: the code points with the property White_Space. -/
def isSpace (c : Char) : Bool :=
  c.toNat ∈ [0x09, 0x0A, 0x0B, 0x0C, 0x0D, 0x20, 0x85, 0xA0, 0x1680, 0x2028, 0x2029, 0x202F,
    0x205F, 0x3000] ∨ (0x2000 ≤ c.toNat ∧ c.toNat ≤ 0x200A)

/-- `strings.TrimSpace`. -/
def trimSpace (s : String) : String :=
  .ofList (((s.toList.dropWhile isSpace).reverse.dropWhile isSpace).reverse)

/-- `strings.ToUpper`, with the upper case of the letters outside ASCII given. -/
def toUpper (upper : Char → Char) (s : String) : String :=
  .ofList (s.toList.map fun c ↦ if c.toNat < 0x80 then c.toUpper else upper c)

/-- `strings.ToLower`, with the lower case of the letters outside ASCII given. -/
def toLower (lower : Char → Char) (s : String) : String :=
  .ofList (s.toList.map fun c ↦ if c.toNat < 0x80 then c.toLower else lower c)

/-- `strings.EqualFold`, with the folding of the letters outside ASCII given. -/
def equalFold (fold : Char → Char) (s t : String) : Bool :=
  let lower := fun c : Char ↦ if c.toNat < 0x80 then c.toLower else fold c
  s.toList.map lower = t.toList.map lower

/-- The long s. -/
def longS : Char := .ofNat 0x17F

/-- The sign for kelvin. -/
def kelvin : Char := .ofNat 0x212A

/-- How letters outside ASCII are folded.  Two of them fold to a letter of ASCII; the others are a
table of the Unicode standard. -/
structure Folding where
  fold : Char → Char
  fold_longS : fold longS = 's'
  fold_kelvin : fold kelvin = 'k'
  fold_other (c : Char) : 0x80 ≤ c.toNat → c ≠ longS → c ≠ kelvin → 0x80 ≤ (fold c).toNat

/-- `strings.HasPrefix`. -/
def hasPrefix (s start : String) : Bool := start.toList.isPrefixOf s.toList

/-- `strings.Split` at a single character. -/
def split (s : String) (sep : Char) : List String := (s.toList.splitOn sep).map .ofList

/-- `strings.HasSuffix`. -/
def hasSuffix (s stop : String) : Bool := stop.toList.isSuffixOf s.toList

end GoString
