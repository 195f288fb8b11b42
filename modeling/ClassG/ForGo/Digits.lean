import Mathlib.Data.List.Lex
import Mathlib.Tactic.Common
import Mathlib.Tactic.Positivity
import Mathlib.Tactic.Ring

/-!
# Digits to a fixed width

The last `n` digits of a number in base `b`, leading digit first, as an encoder writes them that has
room for so many.  They are the number (`ofDigits_digits`), a prefix of them is a prefix of the
number (`digits_add`), and two numbers compare as their digits do (`digits_lt_digits`).
-/

set_option autoImplicit false

namespace FixedWidth

/-- The last `n` digits of `v` in base `b`, the leading one first. -/
def digits (b : ℕ) : ℕ → ℕ → List ℕ
  | 0, _ => []
  | n + 1, v => v / b ^ n % b :: digits b n v

/-- The number with these digits. -/
def ofDigits (b : ℕ) (ds : List ℕ) : ℕ := ds.foldl (fun v d ↦ v * b + d) 0

variable {b : ℕ}

@[simp] theorem length_digits (n v : ℕ) : (digits b n v).length = n := by
  induction n with
  | zero => rfl
  | succ n ih => rw [digits, List.length_cons, ih]

theorem lt_of_mem_digits (hb : 0 < b) {n v d : ℕ} (h : d ∈ digits b n v) : d < b := by
  induction n with
  | zero => cases h
  | succ n ih =>
    rcases List.mem_cons.mp h with rfl | h
    · exact Nat.mod_lt _ hb
    · exact ih h

/-- The digits to the width `m + n` are those of the number without its last `n` digits, and
these. -/
theorem digits_add (m n v : ℕ) : digits b (m + n) v = digits b m (v / b ^ n) ++ digits b n v := by
  induction m with
  | zero => rw [Nat.zero_add, digits, List.nil_append]
  | succ m ih =>
    rw [Nat.succ_add, digits, digits, ih, List.cons_append, pow_add, mul_comm, Nat.div_div_eq_div_mul]

/-- The last digit comes last. -/
theorem digits_succ (n v : ℕ) : digits b (n + 1) v = digits b n (v / b) ++ [v % b] := by
  rw [digits_add n 1 v, pow_one, digits, digits, pow_zero, Nat.div_one]

/-- Digits to a width say nothing about what is beyond it. -/
theorem digits_mod (n v : ℕ) : digits b n (v % b ^ n) = digits b n v := by
  suffices h : ∀ k, digits b n (v % b ^ (n + k)) = digits b n v from h 0
  induction n with
  | zero => exact fun _ ↦ rfl
  | succ n ih =>
    intro k
    have hpow : b ^ (n + 1 + k) = b ^ n * b * b ^ k := by rw [pow_add, pow_succ]
    rw [digits, digits, show n + 1 + k = n + (1 + k) by omega, ih, ← show n + 1 + k = n + (1 + k) by
      omega, hpow, mul_assoc, Nat.mod_mul_right_div_self, Nat.mod_mul_right_mod]

theorem foldl_digits (n v start : ℕ) :
    (digits b n v).foldl (fun v d ↦ v * b + d) start = start * b ^ n + v % b ^ n := by
  induction n generalizing start with
  | zero => simp [digits, Nat.mod_one]
  | succ n ih =>
    rw [digits, List.foldl_cons, ih, pow_succ, Nat.mod_mul]
    ring

/-- **The digits are the number**, as far as they go. -/
theorem ofDigits_digits (n v : ℕ) : ofDigits b (digits b n v) = v % b ^ n := by
  rw [ofDigits, foldl_digits, Nat.zero_mul, Nat.zero_add]

/-- **Numbers compare as their digits do.** -/
theorem digits_lt_digits (hb : 0 < b) {n u v : ℕ} (h : u % b ^ n < v % b ^ n) :
    digits b n u < digits b n v := by
  induction n with
  | zero => simp [Nat.mod_one] at h
  | succ n ih =>
    rw [digits, digits, List.cons_lt_cons_iff]
    rw [pow_succ, Nat.mod_mul, Nat.mod_mul] at h
    have hu : u % b ^ n < b ^ n := Nat.mod_lt _ (Nat.pow_pos hb)
    have hv : v % b ^ n < b ^ n := Nat.mod_lt _ (Nat.pow_pos hb)
    rcases lt_trichotomy (u / b ^ n % b) (v / b ^ n % b) with hlt | heq | hgt
    · exact .inl hlt
    · rw [heq] at h
      exact .inr ⟨heq, ih (by omega)⟩
    · have hmul : b ^ n * (v / b ^ n % b + 1) ≤ b ^ n * (u / b ^ n % b) := Nat.mul_le_mul_left _ hgt
      rw [Nat.mul_add, Nat.mul_one] at hmul
      generalize u % b ^ n = x at *
      omega

end FixedWidth
