import ClassG.Machine

/-!
# Endless runs

A `Behavior` is a run of a machine that goes on forever.  What it does in the end depends on whose
turn comes: it is `Fair` to a kind of step if such a step comes sooner or later, unless none is
possible.

* `Behavior.run` makes every moment of a behaviour the end of a run, so that what holds in every
  run holds there.
* `Behavior.leadsTo` is the rule for progress: a number that no step increases, and that the fair
  calls decrease, until the goal is reached; `Behavior.leadsTo_from` is the same from some moment
  on.
-/

set_option autoImplicit false

namespace Machine

variable {S A : Type}

/-- An endless run. -/
structure Behavior (M : Machine S A) where
  state : ℕ → S
  act : ℕ → A
  start : M.init (state 0)
  next : ∀ n, M.next (state n) (act n) (state (n + 1))

namespace Behavior

variable {M : Machine S A} (b : M.Behavior)

/-- The step after the `n`th moment. -/
def step (n : ℕ) : Step S A := ⟨b.state n, b.act n, b.state (n + 1)⟩

/-- The steps before it. -/
def steps : ℕ → List (Step S A)
  | 0 => []
  | n + 1 => b.step n :: steps n

theorem run_steps : ∀ n, M.Run (b.steps n) (b.state n)
  | 0 => .init b.start
  | n + 1 => .step (b.act n) _ (run_steps n) (b.next n)

theorem run (n : ℕ) : ∃ tr, M.Run tr (b.state n) := ⟨_, b.run_steps n⟩

theorem mem_steps {x : Step S A} : ∀ {n : ℕ}, x ∈ b.steps n ↔ ∃ m < n, x = b.step m
  | 0 => by simp [steps]
  | n + 1 => by
    rw [steps, List.mem_cons, mem_steps, Nat.exists_lt_succ_right, or_comm]

/-- Weak fairness: the steps `p` do not stay possible forever without one of them being taken. -/
def Fair (p : S → A → Prop) : Prop :=
  ∀ n, ∃ m, n ≤ m ∧ ((∀ a, ¬p (b.state m) a) ∨ p (b.state m) (b.act m))

/-- Whenever `P` holds, `Q` holds then or later. -/
def LeadsTo (P Q : S → Prop) : Prop := ∀ n, P (b.state n) → ∃ m, n ≤ m ∧ Q (b.state m)

variable {b} {P Q R : S → Prop} {p : S → A → Prop} {v : S → ℕ}

theorem LeadsTo.trans (h : b.LeadsTo P Q) (h' : b.LeadsTo Q R) : b.LeadsTo P R := by
  intro n hn
  obtain ⟨m, hm, hQ⟩ := h n hn
  obtain ⟨l, hl, hR⟩ := h' m hQ
  exact ⟨l, hm.trans hl, hR⟩

/-- Until the goal is reached, `P` holds on and the number does not grow. -/
theorem keeps {n : ℕ} (hstep : ∀ m, n ≤ m → P (b.state m) → Q (b.state (m + 1)) ∨
    (P (b.state (m + 1)) ∧ v (b.state (m + 1)) ≤ v (b.state m))) (hn : P (b.state n)) :
    ∀ d, (∃ m, n ≤ m ∧ Q (b.state m)) ∨
      (P (b.state (n + d)) ∧ v (b.state (n + d)) ≤ v (b.state n))
  | 0 => .inr ⟨hn, le_rfl⟩
  | d + 1 => by
    rcases keeps hstep hn d with hQ | ⟨hP, hv⟩
    · exact .inl hQ
    · rcases hstep (n + d) (Nat.le_add_right ..) hP with hQ | ⟨hP', hv'⟩
      · exact .inl ⟨n + d + 1, by omega, hQ⟩
      · exact .inr ⟨hP', hv'.trans hv⟩

/-- **The rule for progress, from some moment on.**  As long as `P` holds a step of the fair kind is
possible; no step makes the number grow, and those make it less. -/
theorem leadsTo_from (N : ℕ) (v : S → ℕ) (hfair : b.Fair p) (hpossible : ∀ s, P s → ∃ a, p s a)
    (hstep : ∀ n, N ≤ n → P (b.state n) → Q (b.state (n + 1)) ∨
      (P (b.state (n + 1)) ∧ v (b.state (n + 1)) ≤ v (b.state n)))
    (hless : ∀ n, N ≤ n → P (b.state n) → p (b.state n) (b.act n) → Q (b.state (n + 1)) ∨
      (P (b.state (n + 1)) ∧ v (b.state (n + 1)) < v (b.state n)))
    {n : ℕ} (hN : N ≤ n) (hn : P (b.state n)) : ∃ m, n ≤ m ∧ Q (b.state m) := by
  -- by induction on the number, from one fair step to the next
  induction hv : v (b.state n) using Nat.strong_induction_on generalizing n with
  | _ k ih =>
    obtain ⟨m, hm, hact⟩ := hfair n
    obtain ⟨d, rfl⟩ := Nat.exists_eq_add_of_le hm
    rcases keeps (fun m hm ↦ hstep m (hN.trans hm)) hn d with hQ | ⟨hP, hle⟩
    · exact hQ
    · obtain ⟨a, ha⟩ := hpossible _ hP
      rcases hless (n + d) (hN.trans hm) hP (hact.resolve_left fun hnone ↦ hnone a ha) with
        hQ | ⟨hP', hlt⟩
      · exact ⟨n + d + 1, by omega, hQ⟩
      · obtain ⟨l, hl, hQ⟩ := ih _ (by omega) (by omega : N ≤ n + d + 1) hP' rfl
        exact ⟨l, by omega, hQ⟩

/-- **The rule for progress.**  As long as `P` holds a step of the fair kind is possible; no step
makes the number grow, and those make it less. -/
theorem leadsTo (v : S → ℕ) (hfair : b.Fair p) (hpossible : ∀ s, P s → ∃ a, p s a)
    (hstep : ∀ n, P (b.state n) → Q (b.state (n + 1)) ∨
      (P (b.state (n + 1)) ∧ v (b.state (n + 1)) ≤ v (b.state n)))
    (hless : ∀ n, P (b.state n) → p (b.state n) (b.act n) → Q (b.state (n + 1)) ∨
      (P (b.state (n + 1)) ∧ v (b.state (n + 1)) < v (b.state n))) :
    b.LeadsTo P Q := fun n hn ↦
  leadsTo_from 0 v hfair hpossible (fun n _ ↦ hstep n) (fun n _ ↦ hless n) (Nat.zero_le n) hn

end Behavior

end Machine
