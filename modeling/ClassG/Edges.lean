import Mathlib.Data.List.Destutter
import Mathlib.Logic.Function.Basic

/-!
# Changes in what is reported

Reports come again and again, of many things at once, and only changes are news: that something is
no longer well, or is well again.  That it is well when it is first heard of is not.

`news` is what a watcher passes on who remembers the last report of each thing.  Of one thing these
are the reports without those that repeat the one before, and without the first if it is good:
`news_of`.
-/

set_option autoImplicit false

namespace Edges

variable {κ : Type} [DecidableEq κ]

/-- The last report of each thing. -/
abbrev Known (κ : Type) := κ → Option Bool

/-- A report is news. -/
def IsNews (last : Option Bool) (ok : Bool) : Prop := last ≠ some ok ∧ (last ≠ none ∨ ok = false)

instance (last : Option Bool) (ok : Bool) : Decidable (IsNews last ok) :=
  inferInstanceAs (Decidable (_ ∧ _))

/-- What is passed on. -/
def news : Known κ → List (κ × Bool) → List (κ × Bool)
  | _, [] => []
  | s, x :: xs =>
    (if IsNews (s x.1) x.2 then [x] else []) ++ news (Function.update s x.1 (some x.2)) xs

/-- The reports of one thing. -/
def about (k : κ) (xs : List (κ × Bool)) : List Bool :=
  (xs.filter fun x ↦ x.1 = k).map Prod.snd

/-- What is news of one thing, after a last report. -/
def turns : Option Bool → List Bool → List Bool
  | none, l => (l.destutter (· ≠ ·)).dropWhile id
  | some b, l => (l.destutter' (· ≠ ·) b).tail

theorem head_destutter' (b : Bool) (l : List Bool) :
    l.destutter' (· ≠ ·) b = b :: (l.destutter' (· ≠ ·) b).tail := by
  induction l generalizing b with
  | nil => rfl
  | cons c l ih =>
    by_cases h : b ≠ c
    · rw [List.destutter'_cons_pos _ h, List.tail_cons]
    · rw [List.destutter'_cons_neg _ h]
      exact ih b

/-- After a good report the next that differs is bad. -/
theorem dropWhile_tail_destutter' (l : List Bool) :
    ((l.destutter' (· ≠ ·) true).tail).dropWhile id = (l.destutter' (· ≠ ·) true).tail := by
  have hchain := List.isChain_destutter' (· ≠ ·) l true
  rw [head_destutter'] at hchain
  rcases htail : (l.destutter' (· ≠ ·) true).tail with _ | ⟨c, t⟩
  · rfl
  · rw [htail, List.isChain_cons_cons] at hchain
    cases c with
    | false => rfl
    | true => exact absurd rfl hchain.1

/-- One more report. -/
theorem turns_cons (last : Option Bool) (ok : Bool) (l : List Bool) :
    turns last (ok :: l) = (if IsNews last ok then [ok] else []) ++ turns (some ok) l := by
  cases last with
  | none =>
    rw [turns, turns, List.destutter_cons']
    cases ok with
    | false =>
      rw [if_pos ⟨nofun, .inr rfl⟩, head_destutter']
      rfl
    | true =>
      rw [if_neg fun h ↦ by simpa using h.2, head_destutter', List.dropWhile_cons_of_pos rfl,
        dropWhile_tail_destutter']
      rfl
  | some b =>
    rw [turns, turns]
    by_cases h : b ≠ ok
    · rw [List.destutter'_cons_pos _ h, if_pos ⟨fun heq ↦ h (Option.some.inj heq), .inl nofun⟩,
        List.tail_cons]
      exact head_destutter' ok l
    · rw [List.destutter'_cons_neg _ h, if_neg fun hnews ↦ h fun heq ↦ hnews.1 (congrArg some heq),
        not_not.mp h]
      rfl

/-- **Of one thing, the changes are passed on**, whatever is reported of others meanwhile. -/
theorem about_news (k : κ) (s : Known κ) (xs : List (κ × Bool)) :
    about k (news s xs) = turns (s k) (about k xs) := by
  induction xs generalizing s with
  | nil => cases hs : s k <;> rfl
  | cons x xs ih =>
    obtain ⟨j, ok⟩ := x
    have happend (l l' : List (κ × Bool)) : about k (l ++ l') = about k l ++ about k l' := by
      rw [about, List.filter_append, List.map_append]
      rfl
    rw [news, happend, ih]
    by_cases hk : j = k
    · subst hk
      have habout : about j ((j, ok) :: xs) = ok :: about j xs := by simp [about]
      rw [habout, turns_cons, Function.update_self]
      refine congrArg (· ++ _) ?_
      split <;> simp [about]
    · have habout : about k ((j, ok) :: xs) = about k xs := by simp [about, hk]
      rw [habout, Function.update_of_ne (Ne.symm hk)]
      have hnone : about k (if IsNews (s j) ok then [(j, ok)] else []) = [] := by
        split <;> simp [about, hk]
      rw [hnone, List.nil_append]

/-- **The changes.** -/
theorem news_of (k : κ) (xs : List (κ × Bool)) :
    about k (news (fun _ ↦ none) xs) = ((about k xs).destutter (· ≠ ·)).dropWhile id :=
  about_news k _ xs

end Edges
