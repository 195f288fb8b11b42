import Mathlib.Data.Set.Lattice
import Mathlib.Order.Bounds.Basic
import Mathlib.Tactic.Common

/-!
# Max-hold

What has come is held as its greatest, and as `none` while nothing has: `IsHeld held S`.  One more
is taken in by `keep`, and a row of buckets takes a value into one of them.
-/

set_option autoImplicit false

namespace MaxHold

variable {α ι : Type*} [LinearOrder α]

/-- The greatest of a set, with `none` for the empty one. -/
def IsHeld : Option α → Set α → Prop
  | none, S => S = ∅
  | some v, S => IsGreatest S v

/-- The greater of what is held and what comes. -/
def keep (v : α) : Option α → Option α
  | none => some v
  | some w => if w < v then some v else some w

variable {held held' : Option α} {S T : Set α} {v : α}

@[simp] theorem isHeld_none : IsHeld none S ↔ S = ∅ := Iff.rfl

@[simp] theorem isHeld_some : IsHeld (some v) S ↔ IsGreatest S v := Iff.rfl

theorem IsHeld.eq (h : IsHeld held S) (h' : IsHeld held' S) : held = held' := by
  cases held with
  | none =>
    cases held' with
    | none => rfl
    | some w => exact absurd h'.1 (h ▸ Set.notMem_empty w)
  | some v =>
    cases held' with
    | none => exact absurd h.1 (h' ▸ Set.notMem_empty v)
    | some w => rw [IsGreatest.unique h h']

theorem IsHeld.eq_some_iff (h : IsHeld held S) : held = some v ↔ IsGreatest S v :=
  ⟨fun heq ↦ isHeld_some.mp (heq ▸ h), fun hv ↦ h.eq (isHeld_some.mpr hv)⟩

/-- **What comes is taken in.** -/
theorem IsHeld.keep (h : IsHeld held S) (v : α) : IsHeld (keep v held) (insert v S) := by
  cases held with
  | none =>
    rw [isHeld_none.mp h, insert_empty_eq]
    exact isGreatest_singleton
  | some w =>
    rw [MaxHold.keep]
    split
    · rename_i hlt
      refine ⟨Set.mem_insert v S, fun u hu ↦ ?_⟩
      rcases Set.mem_insert_iff.mp hu with rfl | hu
      · exact le_rfl
      · exact (h.2 hu).trans hlt.le
    · rename_i hge
      refine ⟨Set.mem_insert_of_mem v h.1, fun u hu ↦ ?_⟩
      rcases Set.mem_insert_iff.mp hu with rfl | hu
      · exact not_lt.mp hge
      · exact h.2 hu

/-- What each of several holds is together what is held of them all. -/
theorem isGreatest_iUnion (held : ι → Option α) {S : ι → Set α} (h : ∀ i, IsHeld (held i) (S i))
    (v : α) : IsGreatest {v | ∃ i, held i = some v} v ↔ IsGreatest (⋃ i, S i) v := by
  have hbelow {i : ι} {u : α} (hu : u ∈ S i) : ∃ w, held i = some w ∧ u ≤ w := by
    cases hi : held i with
    | none => exact absurd hu ((isHeld_none.mp (hi ▸ h i)) ▸ Set.notMem_empty u)
    | some w => exact ⟨w, rfl, (isHeld_some.mp (hi ▸ h i)).2 hu⟩
  have habove {i : ι} {w : α} (hw : held i = some w) : w ∈ S i := ((h i).eq_some_iff.mp hw).1
  constructor
  · rintro ⟨⟨i, hi⟩, hmax⟩
    refine ⟨Set.mem_iUnion.mpr ⟨i, habove hi⟩, fun u hu ↦ ?_⟩
    obtain ⟨j, hj⟩ := Set.mem_iUnion.mp hu
    obtain ⟨w, hw, hle⟩ := hbelow hj
    exact hle.trans (hmax ⟨j, hw⟩)
  · rintro ⟨hmem, hmax⟩
    obtain ⟨i, hi⟩ := Set.mem_iUnion.mp hmem
    obtain ⟨w, hw, hle⟩ := hbelow hi
    have heq : w = v := (hmax (Set.mem_iUnion.mpr ⟨i, habove hw⟩)).antisymm hle
    exact ⟨⟨i, heq ▸ hw⟩, fun u hu ↦ hmax (Set.mem_iUnion.mpr (hu.imp fun _ ↦ habove))⟩

/-! ## A row of buckets -/

/-- Each bucket of the row holds what has come to it. -/
def Row (out : List (Option α)) (came : Set (ℕ × α)) : Prop :=
  ∀ i held, out[i]? = some held → IsHeld held {v | (i, v) ∈ came}

variable {out : List (Option α)} {came : Set (ℕ × α)}

theorem row_replicate (n : ℕ) : Row (List.replicate n (none : Option α)) ∅ := by
  intro i held h
  rw [List.getElem?_replicate] at h
  split at h
  · cases h
    rfl
  · cases h

/-- **A value comes to one bucket**, or to none if the row has no such bucket. -/
theorem Row.keep (h : Row out came) (i : ℕ) (v : α) :
    Row (out.modify i (keep v)) (insert (i, v) came) := by
  intro j held hj
  rw [List.getElem?_modify] at hj
  split at hj
  · rename_i hij
    subst hij
    obtain ⟨w, hw, rfl⟩ := Option.map_eq_some_iff.mp hj
    convert (h i w hw).keep v using 1
    ext u
    simp
  · rename_i hij
    simp only [Option.map_eq_map, Option.map_id'] at hj
    convert h j held hj using 1
    ext u
    simp [Ne.symm hij]

end MaxHold
