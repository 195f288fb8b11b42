import ClassG.ForGo.Bytes

/-!
# Base64

`base64.RawURLEncoding`: three bytes are four characters of the alphabet of URLs and file names, and
a last group that is not full is not filled up.  Decoding ignores line breaks and the bits that are
left over after the last byte.
-/

set_option autoImplicit false

namespace Base64

/-- The character that stands for six bits. -/
def encodeChar (n : ℕ) : Byte :=
  Fin.ofNat 256 (if n < 26 then 65 + n else if n < 52 then 71 + n else if n < 62 then n - 4
    else if n = 62 then 45 else 95)

/-- The six bits that a character stands for. -/
def decodeChar (b : Byte) : Option ℕ :=
  if 65 ≤ b.val ∧ b.val ≤ 90 then some (b.val - 65)
  else if 97 ≤ b.val ∧ b.val ≤ 122 then some (b.val - 71)
  else if 48 ≤ b.val ∧ b.val ≤ 57 then some (b.val + 4)
  else if b.val = 45 then some 62
  else if b.val = 95 then some 63
  else none

/-- The bits of the bytes, in groups of six. -/
def toSextets : GoBytes → List ℕ
  | [] => []
  | [x] => [x.val / 4, x.val % 4 * 16]
  | [x, y] => [x.val / 4, x.val % 4 * 16 + y.val / 16, y.val % 16 * 4]
  | x :: y :: z :: s =>
    x.val / 4 :: (x.val % 4 * 16 + y.val / 16) :: (y.val % 16 * 4 + z.val / 64) :: z.val % 64 ::
      toSextets s

/-- The bytes of groups of six bits.  A single group is not a byte. -/
def ofSextets : List ℕ → Option GoBytes
  | [] => some []
  | [_] => none
  | [a, b] => some [Fin.ofNat 256 (a * 4 + b / 16)]
  | [a, b, c] => some [Fin.ofNat 256 (a * 4 + b / 16), Fin.ofNat 256 (b % 16 * 16 + c / 4)]
  | a :: b :: c :: d :: s => (ofSextets s).map fun t ↦
      Fin.ofNat 256 (a * 4 + b / 16) :: Fin.ofNat 256 (b % 16 * 16 + c / 4) ::
        Fin.ofNat 256 (c % 4 * 64 + d) :: t

/-- `EncodeToString`. -/
def encode (s : GoBytes) : GoBytes := (toSextets s).map encodeChar

/-- The byte is a line break. -/
def isBreak (b : Byte) : Bool := b = 10 ∨ b = 13

/-- `DecodeString`. -/
def decode (s : GoBytes) : Option GoBytes := do
  let sextets ← (s.filter fun b ↦ !isBreak b).mapM decodeChar
  ofSextets sextets

/-! ## Reading back -/

theorem decodeChar_encodeChar : ∀ n < 64, decodeChar (encodeChar n) = some n := by decide

theorem isBreak_encodeChar : ∀ n < 64, isBreak (encodeChar n) = false := by decide

theorem lt_of_mem_toSextets {s : GoBytes} {n : ℕ} (h : n ∈ toSextets s) : n < 64 := by
  induction s using toSextets.induct with
  | case1 => simp [toSextets] at h
  | case2 x =>
    have hx := x.isLt
    simp only [toSextets, List.mem_cons, List.not_mem_nil, or_false] at h
    omega
  | case3 x y =>
    have hx := x.isLt
    have hy := y.isLt
    simp only [toSextets, List.mem_cons, List.not_mem_nil, or_false] at h
    omega
  | case4 x y z s ih =>
    have hx := x.isLt
    have hy := y.isLt
    have hz := z.isLt
    simp only [toSextets, List.mem_cons] at h
    rcases h with h | h | h | h | h
    · omega
    · omega
    · omega
    · omega
    · exact ih h

/-- A number below 256 is a byte. -/
theorem ofNat_eq {n : ℕ} {b : Byte} (h : n = b.val) : Fin.ofNat 256 n = b := by
  subst h
  exact Fin.ext (Nat.mod_eq_of_lt b.isLt)

theorem ofSextets_toSextets (s : GoBytes) : ofSextets (toSextets s) = some s := by
  induction s using toSextets.induct with
  | case1 => rfl
  | case2 x =>
    rw [toSextets, ofSextets, ofNat_eq (b := x) (by omega)]
  | case3 x y =>
    have hy := y.isLt
    rw [toSextets, ofSextets, ofNat_eq (b := x) (by omega), ofNat_eq (b := y) (by omega)]
  | case4 x y z s ih =>
    have hy := y.isLt
    have hz := z.isLt
    rw [toSextets, ofSextets, ih, Option.map_some, ofNat_eq (b := x) (by omega),
      ofNat_eq (b := y) (by omega), ofNat_eq (b := z) (by omega)]

/-- **`DecodeString` undoes `EncodeToString`.** -/
theorem decode_encode (s : GoBytes) : decode (encode s) = some s := by
  have hbreak : ∀ b ∈ encode s, (!isBreak b) = true := by
    intro b hb
    obtain ⟨n, hn, rfl⟩ := List.mem_map.mp hb
    rw [isBreak_encodeChar n (lt_of_mem_toSextets hn)]
    rfl
  have hchars (l : List ℕ) (hl : ∀ n ∈ l, n < 64) : (l.map encodeChar).mapM decodeChar = some l := by
    induction l with
    | nil => rfl
    | cons n l ih =>
      rw [List.forall_mem_cons] at hl
      rw [List.map_cons, List.mapM_cons, decodeChar_encodeChar n hl.1, ih hl.2]
      rfl
  rw [decode, List.filter_eq_self.mpr hbreak, encode,
    hchars _ fun n hn ↦ lt_of_mem_toSextets hn]
  exact ofSextets_toSextets s

end Base64
