import Mathlib.Algebra.BigOperators.Field
import Mathlib.Algebra.Order.BigOperators.GroupWithZero.Finset
import Mathlib.Algebra.Order.BigOperators.Ring.Finset
import Mathlib.Algebra.Order.Field.Basic
import Mathlib.Tactic.Linarith

/-!
# Noisy-OR

Independent causes each bring something about with a probability of their own.  `noisyOr` is the
probability that at least one of them does.  It is a function of the set of causes: the order in
which they are listed, and how often, does not show.
-/

set_option autoImplicit false

variable {ι K : Type} [Field K]

/-- The probability that at least one of the causes works. -/
def noisyOr (w : ι → K) (s : Finset ι) : K := 1 - ∏ i ∈ s, (1 - w i)

namespace NoisyOr

variable {w : ι → K} {s t : Finset ι}

@[simp] theorem empty (w : ι → K) : noisyOr w ∅ = 0 := by
  rw [noisyOr, Finset.prod_empty, sub_self]

theorem eq_of_list [DecidableEq ι] {l : List ι} (hl : l.Nodup) (hs : ∀ i, i ∈ l ↔ i ∈ s) :
    1 - (l.map fun i ↦ 1 - w i).prod = noisyOr w s := by
  have hset : l.toFinset = s := Finset.ext fun i ↦ List.mem_toFinset.trans (hs i)
  rw [noisyOr, ← hset, List.prod_toFinset _ hl]

variable [LinearOrder K] [IsStrictOrderedRing K] (hw : ∀ i, 0 ≤ w i ∧ w i ≤ 1)
include hw

theorem nonneg (s : Finset ι) : 0 ≤ noisyOr w s := by
  have hle : ∏ i ∈ s, (1 - w i) ≤ 1 :=
    Finset.prod_le_one (fun i _ ↦ by linarith [hw i]) fun i _ ↦ by linarith [hw i]
  rw [noisyOr]
  linarith

theorem le_one (s : Finset ι) : noisyOr w s ≤ 1 := by
  have hnonneg : 0 ≤ ∏ i ∈ s, (1 - w i) := Finset.prod_nonneg fun i _ ↦ by linarith [hw i]
  rw [noisyOr]
  linarith

/-- Another cause does not make it less likely. -/
theorem mono (h : s ⊆ t) : noisyOr w s ≤ noisyOr w t := by
  have hle : ∏ i ∈ t, (1 - w i) ≤ ∏ i ∈ s, (1 - w i) :=
    Finset.prod_le_prod_of_subset_of_le_one h (fun i _ ↦ by linarith [hw i])
      fun i _ _ ↦ by linarith [hw i]
  rw [noisyOr, noisyOr]
  linarith

end NoisyOr
