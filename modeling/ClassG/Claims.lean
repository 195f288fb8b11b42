import ClassG.Program

/-!
# Claims on shared resources

Several threads share resources, and a thread that wants one marks it as taken and takes the mark
away when it is done.  `claimed` reads off the history which resources each thread has, and
`Exclusive` says that the marks are right: a resource is marked exactly if some thread has it, and
no two threads have the same one.

What keeps it is one rule for each kind of event: `Exclusive.skip`, `Exclusive.claim` and
`Exclusive.release`.
-/

set_option autoImplicit false

namespace Claims

variable {ι K : Type} {I : Interface} {R σ κ : Type} [DecidableEq ι] [DecidableEq κ]

/-- Thread `i` has the resource `k`, where `takes` says which events claim a resource (`true`) and
which give one back (`false`). -/
def claimed (takes : What K I R → Option (κ × Bool)) (i : ι) (k : κ) :
    List (Moment ι K I R σ) → Bool
  | [] => false
  | x :: h =>
    match takes x.what with
    | some (k', b) => if x.thread = i ∧ k' = k then b else claimed takes i k h
    | none => claimed takes i k h

/-- The resources that are marked are those that a thread has, and only one has each. -/
structure Exclusive (takes : What K I R → Option (κ × Bool)) (marked : κ → Prop)
    (h : List (Moment ι K I R σ)) : Prop where
  marked_iff : ∀ k, marked k ↔ ∃ i, claimed takes i k h
  single : ∀ i j k, claimed takes i k h → claimed takes j k h → i = j

variable {takes : What K I R → Option (κ × Bool)} {marked marked' : κ → Prop}
  {h : List (Moment ι K I R σ)} {x : Moment ι K I R σ} {i j : ι} {k k' : κ} {b : Bool}

theorem claimed_of_none (hx : takes x.what = none) :
    claimed takes i k (x :: h) = claimed takes i k h := by
  rw [claimed, hx]

theorem claimed_of_some (hx : takes x.what = some (k', b)) :
    claimed takes i k (x :: h) = if x.thread = i ∧ k' = k then b else claimed takes i k h := by
  rw [claimed, hx]

/-- What other threads do does not change what a thread has. -/
theorem claimed_of_ne (hx : x.thread ≠ i) : claimed takes i k (x :: h) = claimed takes i k h := by
  rcases htakes : takes x.what with _ | ⟨k', b⟩
  · exact claimed_of_none htakes
  · rw [claimed_of_some htakes, if_neg fun hand ↦ hx hand.1]

theorem claimed_append {newer : List (Moment ι K I R σ)} (hnewer : ∀ x ∈ newer, x.thread ≠ i) :
    claimed takes i k (newer ++ h) = claimed takes i k h := by
  induction newer with
  | nil => rfl
  | cons x newer ih =>
    rw [List.forall_mem_cons] at hnewer
    rw [List.cons_append, claimed_of_ne hnewer.1, ih hnewer.2]

theorem claimed_of_meanwhile {w w' : World ι K I R σ} (hw : Outline.Meanwhile i w w') :
    claimed takes i k w'.history = claimed takes i k w.history := by
  obtain ⟨newer, hnewer, hother, -⟩ := hw
  rw [hnewer, claimed_append hother]

/-! ## The rules -/

theorem exclusive_nil (hmarked : ∀ k, ¬marked k) :
    Exclusive takes marked ([] : List (Moment ι K I R σ)) where
  marked_iff k := iff_of_false (hmarked k) fun ⟨_, hi⟩ ↦ (nomatch hi)
  single _ _ _ hi := nomatch hi

/-- An event that neither claims nor gives back. -/
theorem Exclusive.skip (hex : Exclusive takes marked h) (hx : takes x.what = none)
    (hmarked : ∀ k, marked' k ↔ marked k) : Exclusive takes marked' (x :: h) where
  marked_iff k := by simpa only [claimed_of_none hx] using (hmarked k).trans (hex.marked_iff k)
  single i j k := by simpa only [claimed_of_none hx] using hex.single i j k

/-- A resource that is not marked is claimed, and marked. -/
theorem Exclusive.claim (hex : Exclusive takes marked h) (hx : takes x.what = some (k, true))
    (hfree : ¬marked k) (hmarked : ∀ k', marked' k' ↔ marked k' ∨ k' = k) :
    Exclusive takes marked' (x :: h) := by
  have hnone (i : ι) : claimed takes i k h = false := by
    by_contra hsome
    exact hfree ((hex.marked_iff k).mpr ⟨i, eq_true_of_ne_false hsome⟩)
  have hiff (i : ι) (k' : κ) :
      claimed takes i k' (x :: h) ↔ claimed takes i k' h ∨ x.thread = i ∧ k' = k := by
    rw [claimed_of_some hx]
    by_cases heq : x.thread = i ∧ k = k'
    · rw [if_pos heq]
      exact iff_of_true rfl (.inr ⟨heq.1, heq.2.symm⟩)
    · rw [if_neg heq]
      exact ⟨.inl, fun hor ↦ hor.resolve_right fun hand ↦ heq ⟨hand.1, hand.2.symm⟩⟩
  constructor
  · intro k'
    rw [hmarked k', hex.marked_iff k']
    simp only [hiff]
    constructor
    · rintro (⟨i, hi⟩ | rfl)
      · exact ⟨i, .inl hi⟩
      · exact ⟨x.thread, .inr ⟨rfl, rfl⟩⟩
    · rintro ⟨i, hi | ⟨-, rfl⟩⟩
      · exact .inl ⟨i, hi⟩
      · exact .inr rfl
  · intro i j k' hi hj
    rw [hiff] at hi hj
    rcases hi with hi | ⟨hi, rfl⟩
    · rcases hj with hj | ⟨-, rfl⟩
      · exact hex.single i j k' hi hj
      · rw [hnone i] at hi
        nomatch hi
    · rcases hj with hj | ⟨hj, -⟩
      · rw [hnone j] at hj
        nomatch hj
      · exact hi.symm.trans hj

/-- A thread gives back a resource that it has, and takes the mark away. -/
theorem Exclusive.release (hex : Exclusive takes marked h) (hx : takes x.what = some (k, false))
    (hhas : claimed takes x.thread k h) (hmarked : ∀ k', marked' k' ↔ marked k' ∧ k' ≠ k) :
    Exclusive takes marked' (x :: h) := by
  have hiff (i : ι) (k' : κ) :
      claimed takes i k' (x :: h) ↔ claimed takes i k' h ∧ ¬(x.thread = i ∧ k' = k) := by
    rw [claimed_of_some hx]
    by_cases heq : x.thread = i ∧ k = k'
    · rw [if_pos heq]
      exact iff_of_false (by simp) fun hand ↦ hand.2 ⟨heq.1, heq.2.symm⟩
    · rw [if_neg heq]
      exact ⟨fun hi ↦ ⟨hi, fun hand ↦ heq ⟨hand.1, hand.2.symm⟩⟩, And.left⟩
  constructor
  · intro k'
    rw [hmarked k', hex.marked_iff k']
    simp only [hiff]
    constructor
    · rintro ⟨⟨i, hi⟩, hne⟩
      exact ⟨i, hi, fun hand ↦ hne hand.2⟩
    · rintro ⟨i, hi, hne⟩
      refine ⟨⟨i, hi⟩, ?_⟩
      rintro rfl
      exact hne ⟨hex.single _ _ _ hhas hi, rfl⟩
  · intro i j k' hi hj
    exact hex.single i j k' ((hiff i k').mp hi).1 ((hiff j k').mp hj).1

end Claims
