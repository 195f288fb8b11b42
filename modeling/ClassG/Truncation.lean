import Mathlib.Data.List.Basic
import Mathlib.Tactic.Common

/-!
# Reading what is cut short

A reader goes over some input, and over the same input cut short.  Up to some point the two read the
same; from there on the second reads nothing.  `Cut` relates two such computations, as a relational
triple: it says what holds of the two results if the second has not yet run out of input, and what
if it has.

* `Cut.bind` and `Cut.pure` put computations together.
* `Kept` is what is related of one field: it is the same, or it is missing.
* `IsCut` is what comes of it for all fields in their order: those from some point on are missing.
  `Fields.isCut` reads it off.
-/

set_option autoImplicit false

namespace Truncation

variable {σ α β : Type}

/-- Two computations, on states that `R` relates: the flag says that the second has not run out of
input.  Once it has, it stays so. -/
def Cut (R : Bool → σ → σ → Prop) (b : Bool) (x x' : StateM σ α) (P : Bool → α → α → Prop) : Prop :=
  ∀ s s', R b s s' → ∃ b' : Bool, (b' → b) ∧ R b' (x s).2 (x' s').2 ∧ P b' (x s).1 (x' s').1

variable {R : Bool → σ → σ → Prop} {b b' : Bool} {x x' : StateM σ α} {P : Bool → α → α → Prop}
  {Q : Bool → β → β → Prop}

theorem Cut.pure {a a' : α} (h : P b a a') : Cut R b (Pure.pure a) (Pure.pure a') P :=
  fun _ _ hR ↦ ⟨b, id, hR, h⟩

/-- The rule for what is done one after the other. -/
theorem Cut.bind {f f' : α → StateM σ β} (hx : Cut R b x x' P)
    (hf : ∀ (b' : Bool) (a a' : α), (b' → b) → P b' a a' → Cut R b' (f a) (f' a') Q) :
    Cut R b (x >>= f) (x' >>= f') Q := by
  intro s s' hR
  obtain ⟨b₁, hle, hR₁, hP⟩ := hx s s' hR
  obtain ⟨b₂, hle₂, hR₂, hQ⟩ := hf b₁ _ _ hle hP _ _ hR₁
  exact ⟨b₂, fun h ↦ hle (hle₂ h), hR₂, hQ⟩

/-! ## Fields -/

/-- A field is the same, or it is missing. -/
def Kept (b : Bool) (v v' : Option α) : Prop := if b then v' = v else v' = none

theorem Kept.none (b : Bool) : Kept b (none : Option α) none := by cases b <;> rfl

/-- What is made of a field is kept as the field is. -/
theorem Kept.comp {v v' : Option α} (h : Kept b v v') {f : Option α → Option β}
    (hf : f .none = .none) :
    Kept b (f v) (f v') := by
  cases b with
  | true => exact congrArg f h
  | false => exact (congrArg f h).trans hf

theorem Kept.map {v v' : Option α} (h : Kept b v v') (f : α → β) : Kept b (v.map f) (v'.map f) :=
  h.comp rfl

/-- Fields in their order: once one is missing, so are those after it. -/
inductive Fields : Bool → List (Option α) → List (Option α) → Prop
  | nil (b : Bool) : Fields b [] []
  | cons {b b' : Bool} {v v' : Option α} {l l' : List (Option α)} (hle : b' → b) (hv : Kept b' v v')
      (hl : Fields b' l l') : Fields b (v :: l) (v' :: l')

/-- The fields of `l'` are those of `l` up to some point, and from there on they are missing. -/
def IsCut (l' l : List (Option α)) : Prop :=
  ∃ i, l' = l.take i ++ List.replicate (l.length - i) none

theorem Fields.missing {l l' : List (Option α)} (h : Fields false l l') :
    l' = List.replicate l.length none := by
  generalize hb : false = b at h
  induction h with
  | nil => rfl
  | @cons b b' v v' l l' hle hv hl ih =>
    obtain rfl : b' = false := by
      subst hb
      simpa using hle
    rw [ih rfl, List.length_cons, List.replicate_succ]
    exact congrArg (· :: _) hv

theorem Fields.isCut {l l' : List (Option α)} (h : Fields b l l') : IsCut l' l := by
  induction h with
  | nil => exact ⟨0, rfl⟩
  | @cons b b' v v' l l' hle hv hl ih =>
    cases b' with
    | false =>
      refine ⟨0, ?_⟩
      rw [hl.missing, List.take_zero, List.nil_append, Nat.sub_zero, List.length_cons,
        List.replicate_succ]
      exact congrArg (· :: _) hv
    | true =>
      obtain ⟨i, rfl⟩ := ih
      refine ⟨i + 1, ?_⟩
      rw [List.take_succ_cons, List.length_cons, Nat.add_sub_add_right, List.cons_append]
      exact congrArg (· :: _) hv

end Truncation
