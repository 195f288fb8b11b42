import ClassG.ForGo.Bytes

/-!
# Python bytes

What the parsers of `sensor-wifi` do to `bytes`: take an item, unpack integers with `struct` and
decode text.  Each may raise, and what it raises is part of what a parser has to answer for, so
these functions return in `Except Raised`.
-/

set_option autoImplicit false

/-- What a parser may raise. -/
inductive Raised
  /-- `IndexError`. -/
  | index
  /-- `struct.error`. -/
  | struct
  /-- An error of its own, a `ValueError`, with a text. -/
  | parse (text : String)
  deriving DecidableEq

namespace PyBytes

/-- `buf[i]`. -/
def item (buf : List Byte) (i : ℕ) : Except Raised ℕ :=
  match buf[i]? with
  | some b => .ok b.val
  | none => .error .index

/-- `buf[i:j]`. -/
def slice (buf : List Byte) (i j : ℕ) : List Byte := (buf.take j).drop i

/-- A little-endian number without a sign. -/
def unsigned : List Byte → ℕ
  | [] => 0
  | b :: bs => b.val + 256 * unsigned bs

/-- A number of `n` bits as one with a sign. -/
def signed (n v : ℕ) : ℤ := if v < 2 ^ (n - 1) then v else v - 2 ^ n

/-- The `n` bytes that `struct.unpack_from` reads. -/
def field (n : ℕ) (buf : List Byte) (offset : ℕ) : Except Raised (List Byte) :=
  if offset + n ≤ buf.length then .ok (slice buf offset (offset + n)) else .error .struct

/-- `unpack_from("<H", buf, offset)`. -/
def unpackH (buf : List Byte) (offset : ℕ) : Except Raised ℕ := unsigned <$> field 2 buf offset

/-- `unpack_from("<I", buf, offset)`. -/
def unpackI (buf : List Byte) (offset : ℕ) : Except Raised ℕ := unsigned <$> field 4 buf offset

/-- `unpack_from("<b", buf, offset)`. -/
def unpackSignedB (buf : List Byte) (offset : ℕ) : Except Raised ℤ :=
  (signed 8 ∘ unsigned) <$> field 1 buf offset

/-- `unpack_from("<i", buf, offset)`. -/
def unpackSignedI (buf : List Byte) (offset : ℕ) : Except Raised ℤ :=
  (signed 32 ∘ unsigned) <$> field 4 buf offset

/-- `str.isspace`, of one character. -/
def isSpace (c : Char) : Bool :=
  (0x09 ≤ c.toNat ∧ c.toNat ≤ 0x0D) ∨ (0x1C ≤ c.toNat ∧ c.toNat ≤ 0x20) ∨
    c.toNat ∈ [0x85, 0xA0, 0x1680, 0x2028, 0x2029, 0x202F, 0x205F, 0x3000] ∨
      (0x2000 ≤ c.toNat ∧ c.toNat ≤ 0x200A)

/-- `str.strip`. -/
def strip (cs : List Char) : List Char :=
  ((cs.dropWhile isSpace).reverse.dropWhile isSpace).reverse

/-- `raw.decode("ascii", errors="replace")`. -/
def decodeASCII (raw : List Byte) : List Char :=
  raw.map fun b ↦ if b.val < 0x80 then .ofNat b.val else .ofNat 0xFFFD

/-- `int(c, 16)`, of one character. -/
def hexDigit (c : Char) : Option ℕ :=
  if '0' ≤ c ∧ c ≤ '9' then some (c.toNat - '0'.toNat)
  else if 'a' ≤ c ∧ c ≤ 'f' then some (c.toNat - 'a'.toNat + 10)
  else if 'A' ≤ c ∧ c ≤ 'F' then some (c.toNat - 'A'.toNat + 10)
  else none

/-- `_decode_string`: text up to the first zero byte, and none if nothing is left of it. -/
def decodeString (raw : List Byte) : Option String :=
  let s := strip (decodeASCII (raw.takeWhile (· ≠ 0)))
  if s = [] then none else some (.ofList s)

/-! ## What is returned -/

/-- What is returned has this property, if nothing is raised. -/
def Returns {α : Type} (x : Except Raised α) (P : α → Prop) : Prop := ∀ a, x = .ok a → P a

variable {α β : Type} {P : α → Prop} {Q : β → Prop}

theorem Returns.pure {a : α} (h : P a) : Returns (.ok a) P := fun _ hb ↦ Except.ok.inj hb ▸ h

theorem Returns.throw (e : Raised) (P : α → Prop) : Returns (.error e) P := fun _ h ↦ nomatch h

theorem Returns.true (x : Except Raised α) : Returns x fun _ ↦ True := fun _ _ ↦ trivial

theorem Returns.bind {x : Except Raised α} {f : α → Except Raised β} (hx : Returns x P)
    (hf : ∀ a, P a → Returns (f a) Q) : Returns (x >>= f) Q := by
  intro b hb
  cases x with
  | error e => cases hb
  | ok a => exact hf a (hx a rfl) b hb

/-! ## Integers and text -/

variable {buf : List Byte} {i n offset : ℕ}

theorem item_of_lt (h : i < buf.length) : item buf i = .ok buf[i].val := by
  rw [item, List.getElem?_eq_getElem h]

theorem field_of_le (h : offset + n ≤ buf.length) :
    field n buf offset = .ok (slice buf offset (offset + n)) := if_pos h

theorem length_slice (h : offset + n ≤ buf.length) :
    (slice buf offset (offset + n)).length = n := by
  rw [slice, List.length_drop, List.length_take]
  omega

theorem length_slice_le (buf : List Byte) (i j : ℕ) : (slice buf i j).length ≤ j - i := by
  rw [slice, List.length_drop, List.length_take]
  omega

theorem unsigned_lt (bs : List Byte) : unsigned bs < 256 ^ bs.length := by
  induction bs with
  | nil => simp [unsigned]
  | cons b bs ih =>
    rw [unsigned, List.length_cons, pow_succ]
    have hb := b.isLt
    omega

theorem unpackH_of_le (h : offset + 2 ≤ buf.length) :
    ∃ v < 2 ^ 16, unpackH buf offset = .ok v := by
  refine ⟨_, ?_, by rw [unpackH, field_of_le h]; rfl⟩
  have hlt := unsigned_lt (slice buf offset (offset + 2))
  rwa [length_slice h] at hlt

theorem unpackI_of_le (h : offset + 4 ≤ buf.length) :
    ∃ v < 2 ^ 32, unpackI buf offset = .ok v := by
  refine ⟨_, ?_, by rw [unpackI, field_of_le h]; rfl⟩
  have hlt := unsigned_lt (slice buf offset (offset + 4))
  rwa [length_slice h] at hlt

theorem signed_mem {v : ℕ} (hn : 0 < n) (h : v < 2 ^ n) :
    -2 ^ (n - 1) ≤ signed n v ∧ signed n v < 2 ^ (n - 1) := by
  obtain ⟨k, rfl⟩ : ∃ k, n = k + 1 := ⟨n - 1, by omega⟩
  have hpos : (0 : ℤ) < 2 ^ k := by positivity
  rw [signed, Nat.add_sub_cancel]
  rw [pow_succ] at h ⊢
  have hcast : ((2 ^ k : ℕ) : ℤ) = 2 ^ k := by push_cast; rfl
  split <;> constructor <;> omega

theorem unpackSignedB_of_le (h : offset + 1 ≤ buf.length) :
    ∃ v : ℤ, (-128 ≤ v ∧ v ≤ 127) ∧ unpackSignedB buf offset = .ok v := by
  refine ⟨_, ?_, by rw [unpackSignedB, field_of_le h]; rfl⟩
  have hlt := unsigned_lt (slice buf offset (offset + 1))
  rw [length_slice h] at hlt
  have hmem := signed_mem (n := 8) (by norm_num) hlt
  rw [Function.comp_apply]
  norm_num at hmem
  omega

theorem unpackSignedI_of_le (h : offset + 4 ≤ buf.length) :
    ∃ v : ℤ, (-2 ^ 31 ≤ v ∧ v < 2 ^ 31) ∧ unpackSignedI buf offset = .ok v := by
  refine ⟨_, ?_, by rw [unpackSignedI, field_of_le h]; rfl⟩
  have hlt := unsigned_lt (slice buf offset (offset + 4))
  rw [length_slice h] at hlt
  exact signed_mem (n := 32) (by norm_num) hlt

theorem length_strip (cs : List Char) : (strip cs).length ≤ cs.length := by
  rw [strip, List.length_reverse]
  have hback := (List.dropWhile_sublist isSpace (l := (cs.dropWhile isSpace).reverse)).length_le
  have hfront := (List.dropWhile_sublist isSpace (l := cs)).length_le
  rw [List.length_reverse] at hback
  omega

/-- Text is no longer than the field it is in. -/
theorem length_decodeString {raw : List Byte} {s : String} (h : s ∈ decodeString raw) :
    s.length ≤ raw.length := by
  rw [decodeString] at h
  split at h
  · cases h
  · obtain rfl := Option.some.inj h
    have hwhile := (List.takeWhile_sublist (· ≠ (0 : Byte)) (l := raw)).length_le
    have hlen := length_strip (decodeASCII (raw.takeWhile (· ≠ 0)))
    rw [decodeASCII, List.length_map] at hlen
    rw [String.length_ofList]
    exact hlen.trans hwhile

end PyBytes
