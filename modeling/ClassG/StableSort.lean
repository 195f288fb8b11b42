import Mathlib.Data.List.Sort

/-!
# Stable sorting

A list sorted by a key, elements with one key in the order that they had.

* `filter_sortOn`: what there is with one key, in its order.
* `getElem?_sortOn_first`, `getElem?_sortOn_last`: what stands where a key starts, and where it ends.
* `countP_sortOn`: how much stands before a place, by the keys alone.
-/

set_option autoImplicit false

variable {α β : Type*} [LinearOrder β] {key : α → β} {l : List α} {a b : α} {k : ℕ}

/-- The list, sorted by the keys of its elements. -/
def sortOn (key : α → β) (l : List α) : List α := l.mergeSort fun a b ↦ key a ≤ key b

@[simp] theorem mem_sortOn : a ∈ sortOn key l ↔ a ∈ l := List.mem_mergeSort

@[simp] theorem length_sortOn : (sortOn key l).length = l.length := List.length_mergeSort l

theorem sortOn_perm (key : α → β) (l : List α) : (sortOn key l).Perm l := List.mergeSort_perm _ _

theorem pairwise_sortOn (key : α → β) (l : List α) :
    (sortOn key l).Pairwise fun a b ↦ key a ≤ key b := by
  refine (List.pairwise_mergeSort (fun a b c hab hbc ↦ ?_) (fun a b ↦ ?_) l).imp fun h ↦ ?_
  · simp only [decide_eq_true_eq] at hab hbc ⊢
    exact hab.trans hbc
  · simp only [Bool.or_eq_true, decide_eq_true_eq]
    exact le_total _ _
  · simpa using h

/-- A sorted list stays as it is. -/
theorem sortOn_of_pairwise (h : l.Pairwise fun a b ↦ key a ≤ key b) : sortOn key l = l :=
  List.mergeSort_of_pairwise (h.imp fun h ↦ by simpa using h)

/-- **Sorting is stable.** -/
theorem filter_sortOn (key : α → β) (l : List α) (m : β) :
    (sortOn key l).filter (key · = m) = l.filter (key · = m) := by
  have hsub : (l.filter (key · = m)).Sublist (sortOn key l) := by
    refine List.sublist_mergeSort (fun a b c hab hbc ↦ ?_) (fun a b ↦ ?_) ?_ List.filter_sublist
    · simp only [decide_eq_true_eq] at hab hbc ⊢
      exact hab.trans hbc
    · simp only [Bool.or_eq_true, decide_eq_true_eq]
      exact le_total _ _
    · refine List.pairwise_of_forall_mem_list fun a ha b hb ↦ ?_
      simp only [List.mem_filter, decide_eq_true_eq] at ha hb ⊢
      exact (ha.2.trans hb.2.symm).le
  have hfilter := hsub.filter (key · = m)
  rw [List.filter_filter] at hfilter
  simp only [Bool.and_self] at hfilter
  exact (hfilter.eq_of_length ((sortOn_perm key l).filter _).length_eq.symm).symm

/-! ## Where a key starts and ends -/

theorem key_getElem_le {i j : ℕ} (hi : (sortOn key l)[i]? = some a)
    (hj : (sortOn key l)[j]? = some b) (hij : i ≤ j) : key a ≤ key b := by
  obtain ⟨hil, rfl⟩ := List.getElem?_eq_some_iff.mp hi
  obtain ⟨hjl, rfl⟩ := List.getElem?_eq_some_iff.mp hj
  rcases hij.eq_or_lt with rfl | hlt
  · exact le_rfl
  · exact List.pairwise_iff_getElem.mp (pairwise_sortOn key l) i j hil hjl hlt

theorem mem_take_iff : a ∈ l.take k ↔ ∃ i < k, l[i]? = some a := by
  rw [List.mem_iff_getElem?]
  refine exists_congr fun i ↦ ?_
  rw [List.getElem?_take]
  split
  · rename_i hi
    exact (and_iff_right hi).symm
  · rename_i hi
    exact iff_of_false (fun h ↦ by cases h) fun h ↦ hi h.1

theorem mem_drop_iff : a ∈ l.drop k ↔ ∃ i, k ≤ i ∧ l[i]? = some a := by
  rw [List.mem_iff_getElem?]
  constructor
  · rintro ⟨i, hi⟩
    exact ⟨k + i, by omega, by rwa [List.getElem?_drop] at hi⟩
  · rintro ⟨i, hki, hi⟩
    exact ⟨i - k, by rwa [List.getElem?_drop, Nat.add_sub_cancel' hki]⟩

theorem take_append_cons_drop (hk : l[k]? = some a) : l = l.take k ++ a :: l.drop (k + 1) := by
  obtain ⟨hlt, rfl⟩ := List.getElem?_eq_some_iff.mp hk
  rw [← List.drop_eq_getElem_cons hlt, List.take_append_drop]

/-- The first with its key. -/
theorem getElem?_sortOn_first (hk : (sortOn key l)[k]? = some a)
    (hbefore : ∀ i < k, ∀ b, (sortOn key l)[i]? = some b → key b < key a) :
    (l.filter (key · = key a)).head? = some a := by
  have htake : ((sortOn key l).take k).filter (key · = key a) = [] := by
    refine List.filter_eq_nil_iff.mpr fun b hb ↦ ?_
    obtain ⟨i, hi, hib⟩ := mem_take_iff.mp hb
    simpa using (hbefore i hi b hib).ne
  rw [← filter_sortOn, take_append_cons_drop hk, List.filter_append, htake, List.nil_append,
    List.filter_cons_of_pos (by simp), List.head?_cons]

/-- The last with its key. -/
theorem getElem?_sortOn_last (hk : (sortOn key l)[k]? = some a)
    (hafter : ∀ i, k < i → ∀ b, (sortOn key l)[i]? = some b → key a < key b) :
    (l.filter (key · = key a)).getLast? = some a := by
  have hdrop : ((sortOn key l).drop (k + 1)).filter (key · = key a) = [] := by
    refine List.filter_eq_nil_iff.mpr fun b hb ↦ ?_
    obtain ⟨i, hi, hib⟩ := mem_drop_iff.mp hb
    simpa using (hafter i hi b hib).ne'
  rw [← filter_sortOn, take_append_cons_drop hk, List.filter_append,
    List.filter_cons_of_pos (by simp), hdrop, List.getLast?_append_cons, List.getLast?_singleton]

/-- What stands up to a place, counted by a property of it that nothing after it has. -/
theorem countP_eq_succ {p : α → Bool} (hk : l[k]? = some a)
    (hupTo : ∀ i ≤ k, ∀ b, l[i]? = some b → p b) (hafter : ∀ i, k < i → ∀ b, l[i]? = some b → ¬p b) :
    l.countP p = k + 1 := by
  have hlt := (List.getElem?_eq_some_iff.mp hk).1
  have htake : (l.take (k + 1)).countP p = k + 1 := by
    rw [List.countP_eq_length.mpr, List.length_take_of_le (by omega)]
    intro b hb
    obtain ⟨i, hi, hib⟩ := mem_take_iff.mp hb
    exact hupTo i (by omega) b hib
  have hdrop : (l.drop (k + 1)).countP p = 0 := by
    rw [List.countP_eq_zero]
    intro b hb
    obtain ⟨i, hi, hib⟩ := mem_drop_iff.mp hb
    exact hafter i (by omega) b hib
  rw [← List.take_append_drop (k + 1) l, List.countP_append, htake, hdrop]

theorem countP_sortOn {p : α → Bool} (hk : (sortOn key l)[k]? = some a)
    (hupTo : ∀ i ≤ k, ∀ b, (sortOn key l)[i]? = some b → p b)
    (hafter : ∀ i, k < i → ∀ b, (sortOn key l)[i]? = some b → ¬p b) : l.countP p = k + 1 := by
  rw [← (sortOn_perm key l).countP_eq p, countP_eq_succ hk hupTo hafter]

/-! ## Places before sorting -/

section places

variable {γ : Type*} {f : γ → Option α} {L : List γ} {m : β}

/-- The first with a key among what a list is turned into, and where that was. -/
theorem head?_filter_filterMap (h : ((L.filterMap f).filter (key · = m)).head? = some a) :
    ∃ (i : ℕ) (c : γ), L[i]? = some c ∧ f c = some a ∧ key a = m ∧
      ∀ (j : ℕ) (c' : γ) (a' : α), L[j]? = some c' → f c' = some a' → key a' = m → i ≤ j := by
  rw [List.filter_filterMap, List.head?_filterMap, List.findSome?_eq_some_iff] at h
  obtain ⟨l₁, c, l₂, rfl, hc, hbefore⟩ := h
  rw [Option.filter_eq_some_iff, decide_eq_true_eq] at hc
  refine ⟨l₁.length, c, by simp, hc.1, hc.2, fun j c' a' hj hc' ha' ↦ ?_⟩
  by_contra hlt
  rw [List.getElem?_append_left (by omega)] at hj
  have := hbefore c' (List.mem_of_getElem? hj)
  simp [hc', ha'] at this

/-- The last. -/
theorem getLast?_filter_filterMap (h : ((L.filterMap f).filter (key · = m)).getLast? = some a) :
    ∃ (i : ℕ) (c : γ), L[i]? = some c ∧ f c = some a ∧ key a = m ∧
      ∀ (j : ℕ) (c' : γ) (a' : α), L[j]? = some c' → f c' = some a' → key a' = m → j ≤ i := by
  rw [List.filter_filterMap, List.getLast?_filterMap, List.findSome?_eq_some_iff] at h
  obtain ⟨l₁, c, l₂, hL, hc, hafter⟩ := h
  rw [Option.filter_eq_some_iff, decide_eq_true_eq] at hc
  have hL' : L = l₂.reverse ++ c :: l₁.reverse := by
    rw [← L.reverse_reverse, hL]
    simp
  subst hL'
  refine ⟨l₂.reverse.length, c, by simp, hc.1, hc.2, fun j c' a' hj hc' ha' ↦ ?_⟩
  by_contra hlt
  rw [List.getElem?_append_right (by omega), List.getElem?_cons, if_neg (by omega)] at hj
  have := hafter c' (List.mem_reverse.mp (List.mem_of_getElem? hj))
  simp [hc', ha'] at this

end places
