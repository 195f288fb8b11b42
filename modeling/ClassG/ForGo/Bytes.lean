import Mathlib.Order.Fin.Basic
import Mathlib.Data.List.Lex
import Mathlib.Data.Nat.Log
import Mathlib.Data.Nat.Digits.Defs
import Mathlib.Tactic.Common

/-!
# Byte strings and decimals

A Go string is a sequence of bytes, and `<` on strings compares the bytes from the left, as SQLite
does with `TEXT` under its default collation.  Where a development depends on that order, or on a
string that need not be UTF-8, it takes strings to be `GoBytes`.

Numbers written with leading zeros to a fixed width compare as the numbers do, which is the whole
reason for writing them so: `decimals_append_lt`.
-/

set_option autoImplicit false

/-- A byte. -/
abbrev Byte := Fin 256

instance neZeroByte : NeZero 256 := ⟨by decide⟩

/-- A Go string, as its bytes. -/
abbrev GoBytes := List Byte

namespace GoBytes

/-- A string of ASCII characters, as its bytes. -/
def ofASCII (s : String) : GoBytes := s.toList.map fun c ↦ Fin.ofNat 256 c.toNat

@[simp] theorem cons_lt_cons (b : Byte) (s t : GoBytes) : b :: s < b :: t ↔ s < t := by
  rw [List.cons_lt_cons_iff]
  exact ⟨fun h ↦ (h.resolve_left (Fin.lt_irrefl b)).2, fun h ↦ .inr ⟨rfl, h⟩⟩

/-! ## Digits -/

/-- The last decimal digit of a number. -/
def digit (n : ℕ) : Byte := Fin.ofNat 256 (48 + n % 10)

/-- What a byte stands for if it is a decimal digit. -/
def digitValue (b : Byte) : Option ℕ := if 48 ≤ b.val ∧ b.val ≤ 57 then some (b.val - 48) else none

@[simp] theorem digit_val (n : ℕ) : (digit n).val = 48 + n % 10 :=
  Nat.mod_eq_of_lt (by omega)

theorem digit_lt {m n : ℕ} : digit m < digit n ↔ m % 10 < n % 10 := by
  rw [Fin.lt_def, digit_val, digit_val]
  omega

theorem digit_inj {m n : ℕ} : digit m = digit n ↔ m % 10 = n % 10 := by
  rw [Fin.ext_iff, digit_val, digit_val]
  omega

@[simp] theorem digitValue_digit (n : ℕ) : digitValue (digit n) = some (n % 10) := by
  have h : 48 ≤ (digit n).val ∧ (digit n).val ≤ 57 := by rw [digit_val]; omega
  rw [digitValue, if_pos h, digit_val]
  congr 1
  omega

/-! ## Decimals of a fixed width -/

/-- The last `w` decimal digits of a number. -/
def decimals : ℕ → ℕ → GoBytes
  | 0, _ => []
  | w + 1, n => digit (n / 10 ^ w) :: decimals w n

@[simp] theorem length_decimals (w n : ℕ) : (decimals w n).length = w := by
  induction w with
  | zero => rfl
  | succ w ih => rw [decimals, List.length_cons, ih]

/-- The leading digit and the rest of a number, written to `w + 1` digits. -/
theorem mod_pow_succ (w n : ℕ) :
    n % 10 ^ (w + 1) = n / 10 ^ w % 10 * 10 ^ w + n % 10 ^ w := by
  rw [pow_succ, Nat.mod_mul]
  ring

/-- **Decimals of one width compare as the numbers do.** -/
theorem decimals_append_lt (w m n : ℕ) (s t : GoBytes) :
    decimals w m ++ s < decimals w n ++ t ↔
      m % 10 ^ w < n % 10 ^ w ∨ m % 10 ^ w = n % 10 ^ w ∧ s < t := by
  induction w with
  | zero => simp [decimals, Nat.mod_one]
  | succ w ih =>
    have hm : m % 10 ^ w < 10 ^ w := Nat.mod_lt _ (by positivity)
    have hn : n % 10 ^ w < 10 ^ w := Nat.mod_lt _ (by positivity)
    rw [decimals, decimals, List.cons_append, List.cons_append, List.cons_lt_cons_iff, digit_lt,
      digit_inj, ih, mod_pow_succ, mod_pow_succ w n]
    generalize m / 10 ^ w % 10 = a
    generalize n / 10 ^ w % 10 = b
    rcases lt_trichotomy a b with h | h | h
    · have hlt : a * 10 ^ w + m % 10 ^ w < b * 10 ^ w + n % 10 ^ w := by
        have hab : (a + 1) * 10 ^ w ≤ b * 10 ^ w := Nat.mul_le_mul_right _ h
        rw [Nat.add_mul] at hab
        omega
      simp [h, hlt]
    · subst h
      simp
    · have hgt : b * 10 ^ w + n % 10 ^ w < a * 10 ^ w + m % 10 ^ w := by
        have hab : (b + 1) * 10 ^ w ≤ a * 10 ^ w := Nat.mul_le_mul_right _ h
        rw [Nat.add_mul] at hab
        omega
      simp [h.not_gt, h.ne', hgt.not_gt, hgt.ne']

/-- The same of integers that have no more than `w` digits. -/
theorem decimals_toNat_append_lt {w : ℕ} {m n : ℤ} (hm : 0 ≤ m ∧ m < 10 ^ w)
    (hn : 0 ≤ n ∧ n < 10 ^ w) (s t : GoBytes) :
    decimals w m.toNat ++ s < decimals w n.toNat ++ t ↔ m < n ∨ m = n ∧ s < t := by
  lift m to ℕ using hm.1
  lift n to ℕ using hn.1
  have hm' : m < 10 ^ w := by exact_mod_cast hm.2
  have hn' : n < 10 ^ w := by exact_mod_cast hn.2
  rw [decimals_append_lt, Int.toNat_natCast, Int.toNat_natCast, Nat.mod_eq_of_lt hm',
    Nat.mod_eq_of_lt hn', Nat.cast_lt, Nat.cast_inj]

/-- `atoi` on a string of digits. -/
def value : GoBytes → Option ℕ
  | [] => some 0
  | b :: s => do
    let d ← digitValue b
    let n ← value s
    return d * 10 ^ s.length + n

@[simp] theorem value_decimals (w n : ℕ) : value (decimals w n) = some (n % 10 ^ w) := by
  induction w with
  | zero => simp [decimals, value, Nat.mod_one]
  | succ w ih => simp [decimals, value, ih, mod_pow_succ]

/-- `strconv.Atoi`: an integer of 64 bits. -/
def toInt (s : GoBytes) : Option ℤ := do
  let (negative, ds) := match s with
    | 45 :: ds => (true, ds)
    | 43 :: ds => (false, ds)
    | ds => (false, ds)
  guard (ds ≠ [])
  let n ← value ds
  let v : ℤ := if negative then -n else n
  guard (-2 ^ 63 ≤ v ∧ v < 2 ^ 63)
  return v

/-- A number with leading zeros up to the width `w`, and all its digits if it has more. -/
def padded (w n : ℕ) : GoBytes := decimals (max w (Nat.log 10 n + 1)) n

theorem padded_of_lt {w n : ℕ} (hw : 0 < w) (h : n < 10 ^ w) : padded w n = decimals w n := by
  have hlog : Nat.log 10 n < w := Nat.log_lt_of_lt_pow' hw.ne' h
  rw [padded, max_eq_left hlog]

/-! ## Reading back -/

theorem decimals_append_inj {w m n : ℕ} {s t : GoBytes}
    (h : decimals w m ++ s = decimals w n ++ t) : m % 10 ^ w = n % 10 ^ w ∧ s = t := by
  obtain ⟨hd, ht⟩ := List.append_inj h (by rw [length_decimals, length_decimals])
  have hv := congrArg value hd
  rw [value_decimals, value_decimals] at hv
  exact ⟨Option.some.inj hv, ht⟩

/-- Two texts that go on in the same way after the first hyphen. -/
theorem append_hyphen_inj : ∀ {l l' s t : GoBytes}, 45 ∉ l → 45 ∉ l' →
    l ++ 45 :: s = l' ++ 45 :: t → l = l' ∧ s = t
  | [], [], _, _, _, _, h => ⟨rfl, (List.cons.inj h).2⟩
  | [], b :: l', _, _, _, hl', h => by
    obtain ⟨rfl, -⟩ := List.cons.inj h
    exact absurd List.mem_cons_self hl'
  | b :: l, [], _, _, hl, _, h => by
    obtain ⟨rfl, -⟩ := List.cons.inj h
    exact absurd List.mem_cons_self hl
  | b :: l, b' :: l', _, _, hl, hl', h => by
    obtain ⟨rfl, htail⟩ := List.cons.inj h
    obtain ⟨rfl, hst⟩ := append_hyphen_inj (List.not_mem_of_not_mem_cons hl)
      (List.not_mem_of_not_mem_cons hl') htail
    exact ⟨rfl, hst⟩

@[simp] theorem value_padded (w n : ℕ) : value (padded w n) = some n := by
  have hlt : n < 10 ^ max w (Nat.log 10 n + 1) :=
    (Nat.lt_pow_succ_log_self (by norm_num) n).trans_le
      (Nat.pow_le_pow_right (by norm_num) (le_max_right _ _))
  rw [padded, value_decimals, Nat.mod_eq_of_lt hlt]

theorem hyphen_notMem_decimals (w n : ℕ) : (45 : Byte) ∉ decimals w n := by
  induction w with
  | zero => simp [decimals]
  | succ w ih =>
    rw [decimals, List.mem_cons, not_or]
    refine ⟨fun h ↦ ?_, ih⟩
    have hval := digit_val (n / 10 ^ w)
    rw [← h] at hval
    simp at hval
    omega

end GoBytes
