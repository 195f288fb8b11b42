import Mathlib.Data.List.DropRight
import Mathlib.Data.List.Sort

/-!
# Ranks in a list

The elements of a list in a linear order, counted from the least: `IsRanked l i v` says that `v`
stands at place `i` of the sorted list, in terms of how many elements are below it.

* `IsRanked.eq`: there is one such element.
* `isRanked_mergeSort`: it is the one that sorting puts there.
* `IsRanked.not_of_few`: it is not among the greatest, if these are few.

And the last elements of a list, as it grows: `rtake_concat`.
-/

set_option autoImplicit false

variable {α : Type*}

/-! ## Ranks -/

section ranks

variable [LinearOrder α] {l l' : List α} {i : ℕ} {v w : α}

/-- An element with at most `i` elements below it, and more than `i` not above it. -/
structure IsRanked (l : List α) (i : ℕ) (v : α) : Prop where
  mem : v ∈ l
  below : l.countP (· < v) ≤ i
  upTo : i < l.countP (· ≤ v)

theorem IsRanked.perm (h : IsRanked l i v) (hl : l.Perm l') : IsRanked l' i v where
  mem := hl.mem_iff.mp h.mem
  below := hl.countP_eq _ ▸ h.below
  upTo := hl.countP_eq _ ▸ h.upTo

/-- Elements of one rank are not above each other. -/
theorem IsRanked.le (hv : IsRanked l i v) (hw : IsRanked l i w) : w ≤ v := by
  by_contra hlt
  have hcount : l.countP (· ≤ v) ≤ l.countP (· < w) :=
    List.countP_mono_left fun u _ hu ↦ by
      simp only [decide_eq_true_eq] at hu ⊢
      exact hu.trans_lt (not_le.mp hlt)
  have := hv.upTo
  have := hw.below
  omega

theorem IsRanked.eq (hv : IsRanked l i v) (hw : IsRanked l i w) : v = w :=
  (hw.le hv).antisymm (hv.le hw)

/-- What stands at a place of a sorted list. -/
theorem isRanked_of_sorted (hl : l.Pairwise (· ≤ ·)) (hv : l[i]? = some v) : IsRanked l i v := by
  obtain ⟨hi, rfl⟩ := List.getElem?_eq_some_iff.mp hv
  refine ⟨List.getElem_mem hi, ?_, ?_⟩
  · have hdrop : (l.drop i).countP (· < l[i]) = 0 := by
      rw [List.countP_eq_zero]
      intro u hu
      obtain ⟨j, hj, rfl⟩ := List.getElem_of_mem hu
      simp only [List.getElem_drop, decide_eq_true_eq, not_lt]
      rcases Nat.eq_zero_or_pos j with rfl | hpos
      · simp
      · exact List.pairwise_iff_getElem.mp hl _ _ _ _ (by omega)
    calc l.countP (· < l[i])
        = (l.take i).countP (· < l[i]) + (l.drop i).countP (· < l[i]) := by
          rw [← List.countP_append, List.take_append_drop]
      _ ≤ i := by
          rw [hdrop, Nat.add_zero]
          exact List.countP_le_length.trans (List.length_take_le _ _)
  · have htake : (l.take (i + 1)).countP (· ≤ l[i]) = i + 1 := by
      rw [List.countP_eq_length.mpr, List.length_take_of_le (by omega)]
      intro u hu
      obtain ⟨j, hj, rfl⟩ := List.getElem_of_mem hu
      rw [List.length_take] at hj
      simp only [List.getElem_take, decide_eq_true_eq]
      rcases Nat.lt_or_ge j i with hlt | hge
      · exact List.pairwise_iff_getElem.mp hl _ _ _ _ hlt
      · have : j = i := by omega
        simp [this]
    have hle : (l.take (i + 1)).countP (· ≤ l[i]) ≤ l.countP (· ≤ l[i]) :=
      (List.take_sublist _ _).countP_le
    omega

/-- What stands at a place once the list is sorted. -/
theorem isRanked_mergeSort (hv : (l.mergeSort (· ≤ ·))[i]? = some v) : IsRanked l i v :=
  (isRanked_of_sorted (List.pairwise_mergeSort' (· ≤ ·) l) hv).perm (l.mergeSort_perm _)

/-- Where all that is marked is above all that is not, too few marked elements do not reach down to
a rank. -/
theorem IsRanked.not_of_few {p : α → Prop} [DecidablePred p]
    (hp : ∀ u u', p u → ¬ p u' → u' < u) (h : IsRanked l i v)
    (hfew : l.countP (p ·) < l.length - i) : ¬ p v := by
  intro hpv
  have hcount : l.countP (fun u ↦ ¬ decide (u < v)) ≤ l.countP (p ·) :=
    List.countP_mono_left fun u _ hu ↦ by
      simp only [not_lt, decide_eq_true_eq] at hu ⊢
      by_contra hpu
      exact (hp v u hpv hpu).not_ge hu
  have hlength := l.length_eq_countP_add_countP (fun u ↦ decide (u < v))
  have := h.below
  omega

end ranks

/-! ## The last elements -/

/-- The last elements of a list, when one is added to it. -/
theorem rtake_concat (l : List α) (x : α) {n : ℕ} (h : 0 < n) :
    (l ++ [x]).rtake n = if l.length < n then l ++ [x] else (l.rtake n).tail ++ [x] := by
  obtain ⟨n, rfl⟩ : ∃ k, n = k + 1 := ⟨n - 1, by omega⟩
  rw [List.rtake_concat_succ]
  split
  · rw [List.rtake, Nat.sub_eq_zero_of_le (by omega), List.drop_zero]
  · rw [List.rtake, List.rtake, List.tail_drop]
    congr 2
    omega

theorem length_rtake (l : List α) (n : ℕ) : (l.rtake n).length = min l.length n := by
  rw [List.rtake, List.length_drop]
  omega
