import Mathlib.Data.List.Induction
import Mathlib.Tactic.Common

/-!
# The pieces of a stream

A stream is cut by a separator into the pieces that have ended and what comes after the last
separator.  The cut is computed one element at a time, as a reader of a stream does, so a reader that
keeps less than the whole stream can be compared with it step by step.
-/

set_option autoImplicit false

namespace Pieces

variable {α : Type*} [DecidableEq α] (sep : α)

/-- One more element of the stream. -/
def step (s : List (List α) × List α) (a : α) : List (List α) × List α :=
  if a = sep then (s.1 ++ [s.2], []) else (s.1, s.2 ++ [a])

/-- The pieces of a stream, and what is left of it. -/
def cut (xs : List α) : List (List α) × List α := xs.foldl (step sep) ([], [])

/-- The pieces that have ended. -/
def ended (xs : List α) : List (List α) := (cut sep xs).1

/-- What comes after the last separator. -/
def unfinished (xs : List α) : List α := (cut sep xs).2

@[simp] theorem ended_nil : ended sep [] = [] := rfl

@[simp] theorem unfinished_nil : unfinished sep [] = [] := rfl

theorem cut_append_singleton (xs : List α) (a : α) :
    cut sep (xs ++ [a]) = step sep (cut sep xs) a := by
  rw [cut, List.foldl_append]
  rfl

/-- A separator ends a piece. -/
@[simp] theorem ended_append_sep (xs : List α) :
    ended sep (xs ++ [sep]) = ended sep xs ++ [unfinished sep xs] := by
  rw [ended, cut_append_singleton, step, if_pos rfl]
  rfl

@[simp] theorem unfinished_append_sep (xs : List α) : unfinished sep (xs ++ [sep]) = [] := by
  rw [unfinished, cut_append_singleton, step, if_pos rfl]

variable {sep}

/-- Any other element is part of the piece. -/
theorem ended_append_of_ne (xs : List α) {a : α} (h : a ≠ sep) :
    ended sep (xs ++ [a]) = ended sep xs := by
  rw [ended, cut_append_singleton, step, if_neg h]
  rfl

theorem unfinished_append_of_ne (xs : List α) {a : α} (h : a ≠ sep) :
    unfinished sep (xs ++ [a]) = unfinished sep xs ++ [a] := by
  rw [unfinished, cut_append_singleton, step, if_neg h]
  rfl

variable (sep)

/-- **The pieces are those of the stream**: with a separator after each of them they are the stream,
and none of them contains the separator. -/
theorem cut_spec (xs : List α) :
    (ended sep xs).flatMap (· ++ [sep]) ++ unfinished sep xs = xs ∧
      (∀ p ∈ ended sep xs, sep ∉ p) ∧ sep ∉ unfinished sep xs := by
  induction xs using List.reverseRecOn with
  | nil => simp
  | append_singleton xs a ih =>
    obtain ⟨hjoin, hended, hleft⟩ := ih
    by_cases h : a = sep
    · subst h
      refine ⟨?_, ?_, by simp⟩
      · rw [ended_append_sep, unfinished_append_sep, List.flatMap_append, List.append_nil]
        rw [List.flatMap_singleton, ← List.append_assoc, hjoin]
      · rw [ended_append_sep]
        intro p hp
        rcases List.mem_append.mp hp with hp | hp
        · exact hended p hp
        · exact List.mem_singleton.mp hp ▸ hleft
    · rw [ended_append_of_ne xs h, unfinished_append_of_ne xs h, ← List.append_assoc, hjoin]
      refine ⟨rfl, hended, fun hmem ↦ ?_⟩
      rcases List.mem_append.mp hmem with hmem | hmem
      · exact hleft hmem
      · exact h (List.mem_singleton.mp hmem).symm

end Pieces
