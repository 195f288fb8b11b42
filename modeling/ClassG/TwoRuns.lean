import Mathlib.Data.List.Forall2

/-!
# Two runs side by side

Whether what a system says depends on a secret is a question about two of its runs: both are given
the same events, but for the secret, and what they say is compared.

The states of the two runs look alike to an outsider, and an event keeps it so, and is answered the
same, where it meets `C`.  Where it does not, the answers differ.  Then the runs say the same exactly
if `C` is met all along: `Unwinding.outputs_eq_iff`.
-/

set_option autoImplicit false

namespace TwoRuns

variable {S E O : Type} (step : S → E → S × List O)

/-- What is said at each of the events. -/
def outputs : S → List E → List (List O)
  | _, [] => []
  | s, e :: es => (step s e).2 :: outputs (step s e).1 es

/-- Each pair of events meets `C`, in the states that the two runs have come to. -/
def Along (C : S → E → S → E → Prop) : S → List E → S → List E → Prop
  | s, e :: es, s', e' :: es' => C s e s' e' ∧ Along C (step s e).1 es (step s' e').1 es'
  | _, _, _, _ => True

/-- What makes `C` the exact condition, for events that are related by `R`. -/
structure Unwinding (R : E → E → Prop) (C : S → E → S → E → Prop) where
  /-- What an outsider has no means to tell apart. -/
  alike : S → S → Prop
  keeps {s s' e e'} : alike s s' → R e e' → C s e s' e' → alike (step s e).1 (step s' e').1
  quiet {s s' e e'} : alike s s' → R e e' → C s e s' e' → (step s e).2 = (step s' e').2
  loud {s s' e e'} : alike s s' → R e e' → ¬C s e s' e' → (step s e).2 ≠ (step s' e').2

variable {step} {R : E → E → Prop} {C : S → E → S → E → Prop}

/-- Runs that say the same have met `C` all along. -/
theorem Unwinding.along (u : Unwinding step R C) {s s' : S} {es es' : List E}
    (hes : List.Forall₂ R es es') (halike : u.alike s s')
    (h : outputs step s es = outputs step s' es') : Along step C s es s' es' := by
  induction hes generalizing s s' with
  | nil => exact trivial
  | cons he _ ih =>
    obtain ⟨hfirst, hrest⟩ := List.cons.inj h
    have hC := by_contra fun hnot ↦ u.loud halike he hnot hfirst
    exact ⟨hC, ih (u.keeps halike he hC) hrest⟩

/-- Runs that meet `C` all along say the same. -/
theorem Unwinding.outputs_eq (u : Unwinding step R C) {s s' : S} {es es' : List E}
    (hes : List.Forall₂ R es es') (halike : u.alike s s') (h : Along step C s es s' es') :
    outputs step s es = outputs step s' es' := by
  induction hes generalizing s s' with
  | nil => rfl
  | cons he _ ih =>
    obtain ⟨hC, hrest⟩ := h
    rw [outputs, outputs, u.quiet halike he hC, ih (u.keeps halike he hC) hrest]

/-- **Two runs say the same exactly if `C` is met all along.** -/
theorem Unwinding.outputs_eq_iff (u : Unwinding step R C) {s s' : S} {es es' : List E}
    (hes : List.Forall₂ R es es') (halike : u.alike s s') :
    outputs step s es = outputs step s' es' ↔ Along step C s es s' es' :=
  ⟨u.along hes halike, u.outputs_eq hes halike⟩

end TwoRuns
