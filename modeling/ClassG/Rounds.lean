import ClassG.Machine
import Mathlib.Data.List.Count
import Mathlib.Tactic.Linarith

/-!
# Every so often

Some steps of a machine are *ticks*, and a counter goes up at each of them.  Where it would reach
`n` it goes back to `0` instead: the tick is a *turn*.  All other steps leave the counter alone.

* `Run.balance` says how many turns there are, by the counter before and after.
* `Run.one_turn` says that a stretch with `n` ticks has exactly one turn, wherever it begins.
-/

set_option autoImplicit false

namespace Machine

variable {S A : Type} {M : Machine S A}

/-- What a step does to the counter. -/
def Counts (tick turn : Step S A → Bool) (count : S → ℤ) (n : ℤ) (x : Step S A) : Prop :=
  count x.post + (if turn x then n else 0) = count x.pre + if tick x then 1 else 0

variable {tick turn : Step S A → Bool} {count : S → ℤ} {n : ℤ} {stretch older : List (Step S A)}
  {s : S}

/-- The counter and the turns together are as many as the ticks. -/
theorem Run.balance (h : Run M (stretch ++ older) s)
    (hcount : ∀ x ∈ stretch, Counts tick turn count n x) :
    ∃ s₀, Run M older s₀ ∧
      count s + n * stretch.countP turn = count s₀ + stretch.countP tick := by
  induction stretch generalizing s with
  | nil => exact ⟨s, h, by simp⟩
  | cons x stretch ih =>
    obtain ⟨hx, hcount⟩ := List.forall_mem_cons.mp hcount
    obtain ⟨hr, -, rfl⟩ := h.of_cons
    obtain ⟨s₀, h₀, hsum⟩ := ih hr hcount
    refine ⟨s₀, h₀, ?_⟩
    rw [Counts] at hx
    rw [List.countP_cons, List.countP_cons]
    push_cast
    split_ifs at hx ⊢ <;> linarith

/-- **A stretch with `n` ticks has exactly one turn.** -/
theorem Run.one_turn (h : Run M (stretch ++ older) s)
    (hcount : ∀ x ∈ stretch, Counts tick turn count n x)
    (hrange : ∀ {tr s}, Run M tr s → 0 ≤ count s ∧ count s < n)
    (hticks : (stretch.countP tick : ℤ) = n) : stretch.countP turn = 1 := by
  obtain ⟨s₀, h₀, hsum⟩ := h.balance hcount
  obtain ⟨hlow, hhigh⟩ := hrange h
  obtain ⟨hlow₀, hhigh₀⟩ := hrange h₀
  rw [hticks] at hsum
  have hpos : 0 < n := hlow.trans_lt hhigh
  -- The counter is less than a round away from where it was.
  have hless : n * (stretch.countP turn : ℤ) < n * 2 := by linarith
  have hmore : n * 0 < n * (stretch.countP turn : ℤ) := by linarith
  have hless := lt_of_mul_lt_mul_left hless hpos.le
  have hmore := lt_of_mul_lt_mul_left hmore hpos.le
  omega

end Machine
