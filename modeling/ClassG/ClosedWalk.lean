import Mathlib.Data.List.Rotate
import Mathlib.Algebra.Group.Nat.Even
import Mathlib.Tactic.Common

/-!
# Closed walks

A list of vertices, read as a walk that goes back from the last of them to the first.  What is
counted over its steps does not depend on where the walk begins (`countP_rotate`), on how often it
stays where it is (`countP_repeat`, `countP_close`), or on its direction if the steps count the same
both ways (`countP_reverse`).  And it changes sides an even number of times (`even_changes`).
-/

set_option autoImplicit false

namespace ClosedWalk

variable {α : Type*}

/-- The steps of a walk that goes on from a vertex. -/
def stepsFrom (q : α) : List α → List (α × α)
  | [] => []
  | p :: l => (q, p) :: stepsFrom p l

/-- The steps of a closed walk, the one from the last vertex to the first before the others. -/
def steps (l : List α) : List (α × α) :=
  match l.getLast? with
  | none => []
  | some q => stepsFrom q l

@[simp] theorem steps_nil : steps ([] : List α) = [] := rfl

theorem steps_concat (l : List α) (q : α) : steps (l ++ [q]) = stepsFrom q (l ++ [q]) := by
  rw [steps, List.getLast?_concat]

theorem stepsFrom_append (q p : α) (l t : List α) :
    stepsFrom q (l ++ p :: t) = stepsFrom q (l ++ [p]) ++ stepsFrom p t := by
  induction l generalizing q with
  | nil => rfl
  | cons a l ih => rw [List.cons_append, stepsFrom, ih, List.cons_append, stepsFrom, List.cons_append]

/-- The steps of a closed walk from its first vertex on. -/
theorem steps_cons_perm (p : α) (l : List α) : (steps (p :: l)).Perm (stepsFrom p (l ++ [p])) := by
  rcases List.eq_nil_or_concat l with rfl | ⟨t, q, rfl⟩
  · exact .refl _
  · have hlast : stepsFrom p (t ++ [q] ++ [p]) = stepsFrom p (t ++ [q]) ++ [(q, p)] := by
      rw [List.append_assoc]
      exact stepsFrom_append p q t [p]
    rw [List.concat_eq_append, hlast, ← List.cons_append, steps_concat, List.cons_append, stepsFrom]
    exact (List.perm_append_singleton (q, p) _).symm

theorem mem_stepsFrom {q : α} {l : List α} {e : α × α} (h : e ∈ stepsFrom q l) :
    e.1 ∈ q :: l ∧ e.2 ∈ l := by
  induction l generalizing q with
  | nil => cases h
  | cons p l ih =>
    rcases List.mem_cons.mp h with rfl | h
    · exact ⟨List.mem_cons_self, List.mem_cons_self⟩
    · exact ⟨List.mem_cons_of_mem _ (ih h).1, List.mem_cons_of_mem _ (ih h).2⟩

/-- A step goes from a vertex to a vertex. -/
theorem mem_steps {l : List α} {e : α × α} (h : e ∈ steps l) : e.1 ∈ l ∧ e.2 ∈ l := by
  unfold steps at h
  split at h
  · cases h
  · rename_i q hq
    obtain ⟨h1, h2⟩ := mem_stepsFrom h
    refine ⟨?_, h2⟩
    rcases List.mem_cons.mp h1 with heq | h1
    · exact heq ▸ List.mem_of_getLast? hq
    · exact h1

/-! ## What does not change the steps -/

theorem steps_rotate_one (p : α) (l : List α) : (steps (l ++ [p])).Perm (steps (p :: l)) := by
  rw [steps_concat]
  exact (steps_cons_perm p l).symm

/-- A closed walk may begin anywhere. -/
theorem steps_rotate (l : List α) (n : ℕ) : (steps (l.rotate n)).Perm (steps l) := by
  induction n generalizing l with
  | zero => rw [List.rotate_zero]
  | succ n ih =>
    cases l with
    | nil => simp
    | cons p l =>
      rw [List.rotate_cons_succ]
      exact (ih _).trans (steps_rotate_one p l)

/-- A walk backwards. -/
theorem stepsFrom_reverse (p q : α) (l : List α) :
    (stepsFrom p (l.reverse ++ [q])).Perm ((stepsFrom q (l ++ [p])).map Prod.swap) := by
  induction l generalizing q with
  | nil => exact .refl _
  | cons a l ih =>
    have hlast : stepsFrom p (l.reverse ++ [a] ++ [q]) =
        stepsFrom p (l.reverse ++ [a]) ++ [(a, q)] := by
      rw [List.append_assoc]
      exact stepsFrom_append p a l.reverse [q]
    rw [List.reverse_cons, hlast]
    exact List.perm_append_comm.trans ((ih a).cons (a, q))

/-- A closed walk backwards. -/
theorem steps_reverse (l : List α) : (steps l.reverse).Perm ((steps l).map Prod.swap) := by
  cases l with
  | nil => exact .refl _
  | cons p l =>
    rw [List.reverse_cons, steps_concat]
    exact (stepsFrom_reverse p p l).trans ((steps_cons_perm p l).symm.map _)

section count

variable {f : α × α → Bool}

theorem countP_rotate (l : List α) (n : ℕ) : (steps (l.rotate n)).countP f = (steps l).countP f :=
  (steps_rotate l n).countP_eq f

theorem countP_reverse (hf : ∀ q p, f (q, p) = f (p, q)) (l : List α) :
    (steps l.reverse).countP f = (steps l).countP f := by
  rw [(steps_reverse l).countP_eq, List.countP_map]
  exact List.countP_congr fun e _ ↦ iff_of_eq (congrArg (· = true) (hf e.2 e.1))

/-- A vertex may be visited more than once in a row. -/
theorem countP_repeat (hf : ∀ p, f (p, p) = false) (l : List α) (p : α) (t : List α) (n : ℕ) :
    (steps (l ++ List.replicate (n + 1) p ++ t)).countP f = (steps (l ++ p :: t)).countP f := by
  have hstay (s : List α) (n : ℕ) :
      (stepsFrom p (List.replicate n p ++ s)).countP f = (stepsFrom p s).countP f := by
    induction n with
    | zero => rfl
    | succ n ih => simpa [List.replicate_succ, stepsFrom, hf p] using ih
  have hrotate (s : List α) : (steps (l ++ s)).countP f = (steps (s ++ l)).countP f := by
    rw [← countP_rotate (l ++ s) l.length, List.rotate_append_length_eq]
  rw [List.append_assoc, hrotate, hrotate, List.replicate_succ, List.cons_append, List.cons_append,
    List.cons_append, (steps_cons_perm p _).countP_eq, (steps_cons_perm p _).countP_eq,
    List.append_assoc, List.append_assoc, hstay, List.append_assoc]

/-- A closed walk may say that it goes back to its first vertex. -/
theorem countP_close (hf : ∀ p, f (p, p) = false) (l : List α) :
    (steps (l ++ l.head?.toList)).countP f = (steps l).countP f := by
  cases l with
  | nil => rfl
  | cons p l =>
    rw [List.head?_cons, Option.toList_some, (steps_rotate_one p (p :: l)).countP_eq]
    exact countP_repeat hf [] p l 1

/-- **A closed walk changes sides an even number of times.** -/
theorem even_changes (g : α → Bool) (l : List α) :
    Even ((steps l).countP fun e ↦ g e.1 != g e.2) := by
  have hwalk (q p : α) (l : List α) :
      Even ((stepsFrom q (l ++ [p])).countP fun e ↦ g e.1 != g e.2) ↔ g q = g p := by
    induction l generalizing q with
    | nil => cases hq : g q <;> cases hp : g p <;> simp [stepsFrom, hq, hp]
    | cons a l ih =>
      rw [List.cons_append, stepsFrom, List.countP_cons, Nat.even_add, ih]
      cases hq : g q <;> cases ha : g a <;> cases hp : g p <;> simp
  cases l with
  | nil => simp
  | cons p l => rw [(steps_cons_perm p l).countP_eq, hwalk]

end count

end ClosedWalk
