import Mathlib.Data.List.Destutter
import Mathlib.Data.List.DropRight

/-!
# Thinning a trail

Points come one at a time, and one is recorded if it is far enough from the last that was.
`List.destutter` is what that leaves of the whole list.  Here it is built from the other end, one
more point at a time (`record`, `destutter_concat`), and in a buffer that only has room for the
last `n` (`recordIn`).

* `foldl_record`: recording the points one after the other gives `List.destutter`.
* `foldl_recordIn`: the buffer has the last `n` points of it, since what a point is compared with
  is never dropped.
-/

set_option autoImplicit false

namespace Thinning

variable {α : Type} (R : α → α → Prop) [DecidableRel R] (n : ℕ) (l : List α) (p : α)

/-- Record a point, if it is far enough from the last. -/
def record : List α :=
  match l.getLast? with
  | some q => if R q p then l ++ [p] else l
  | none => l ++ [p]

/-- Record it in a buffer for `n` points, from which the oldest drops out. -/
def recordIn : List α :=
  match l.getLast? with
  | some q => if R q p then (l ++ [p]).rtake n else l
  | none => (l ++ [p]).rtake n

variable {R n l p}

theorem record_cases : record R l p = l ++ [p] ∨
    record R l p = l ∧ ∃ q, l.getLast? = some q ∧ ¬R q p := by
  rw [record]
  rcases l.getLast? with _ | q
  · exact .inl rfl
  · by_cases hR : R q p
    · exact .inl (if_pos hR)
    · exact .inr ⟨if_neg hR, q, rfl, hR⟩

/-! ## The last points -/

theorem getLast?_rtake (hn : 0 < n) : (l.rtake n).getLast? = l.getLast? := by
  rw [List.rtake_eq_reverse_take_reverse, List.getLast?_reverse, List.head?_take, if_neg hn.ne',
    List.head?_reverse]

theorem rtake_rtake (m : ℕ) : (l.rtake n).rtake m = l.rtake (min m n) := by
  simp only [List.rtake_eq_reverse_take_reverse, List.reverse_reverse, List.take_take]

theorem rtake_suffix : l.rtake n <:+ l := List.drop_suffix ..

theorem length_rtake_le : (l.rtake n).length ≤ n := by
  rw [List.rtake, List.length_drop]
  omega

/-- What has dropped out would have done so anyway. -/
theorem rtake_rtake_concat (hn : 0 < n) : (l.rtake n ++ [p]).rtake n = (l ++ [p]).rtake n := by
  obtain ⟨m, rfl⟩ := Nat.exists_eq_succ_of_ne_zero hn.ne'
  rw [List.rtake_concat_succ, List.rtake_concat_succ, rtake_rtake, min_eq_left m.le_succ]

/-! ## Recording -/

theorem record_cons (a : α) (hl : l ≠ []) : record R (a :: l) p = a :: record R l p := by
  obtain ⟨q, hq⟩ := Option.ne_none_iff_exists'.mp (mt List.getLast?_eq_none_iff.mp hl)
  have hcons : (a :: l).getLast? = some q := by
    rw [List.getLast?_cons, hq, Option.getD_some]
  rw [record, record, hcons, hq]
  dsimp only
  split <;> rfl

theorem destutter'_concat (a : α) :
    (l ++ [p]).destutter' R a = record R (l.destutter' R a) p := by
  induction l generalizing a with
  | nil => exact List.destutter'_singleton R
  | cons b l ih =>
    by_cases hR : R a b
    · rw [List.cons_append, List.destutter'_cons_pos _ hR, List.destutter'_cons_pos _ hR, ih,
        record_cons _ (List.destutter'_ne_nil _ R)]
    · rw [List.cons_append, List.destutter'_cons_neg _ hR, List.destutter'_cons_neg _ hR, ih]

/-- One more point. -/
theorem destutter_concat : (l ++ [p]).destutter R = record R (l.destutter R) p := by
  cases l with
  | nil => rfl
  | cons a l => exact destutter'_concat a

theorem head?_destutter' (l : List α) (a : α) : (l.destutter' R a).head? = some a := by
  induction l with
  | nil => rfl
  | cons b l ih =>
    by_cases hR : R a b
    · rw [List.destutter'_cons_pos _ hR, List.head?_cons]
    · rw [List.destutter'_cons_neg _ hR, ih]

/-- The first point is always recorded. -/
theorem head?_destutter (l : List α) : (l.destutter R).head? = l.head? := by
  cases l with
  | nil => rfl
  | cons a l => exact head?_destutter' l a

theorem foldl_record (l : List α) : l.foldl (record R) [] = l.destutter R := by
  induction l using List.reverseRecOn with
  | nil => rfl
  | append_singleton l p ih => rw [List.foldl_concat, ih, destutter_concat]

/-- Recording a point in the buffer keeps it the last `n` points of the whole. -/
theorem recordIn_rtake (hn : 0 < n) : recordIn R n (l.rtake n) p = (record R l p).rtake n := by
  rw [recordIn, record, getLast?_rtake hn]
  rcases l.getLast? with _ | q
  · exact rtake_rtake_concat hn
  · by_cases hR : R q p
    · simp only [if_pos hR]
      exact rtake_rtake_concat hn
    · simp only [if_neg hR]

/-- **The buffer has the last points of the whole trail.** -/
theorem foldl_recordIn (hn : 0 < n) (l : List α) :
    l.foldl (recordIn R n) [] = (l.destutter R).rtake n := by
  induction l using List.reverseRecOn with
  | nil => exact (List.rtake_nil n).symm
  | append_singleton l p ih =>
    rw [List.foldl_concat, ih, recordIn_rtake hn, destutter_concat]

end Thinning
