import Mathlib.Data.List.Infix
import Mathlib.Tactic.Common

/-!
# Runs of a state machine

A component that answers calls one at a time is a `Machine`: which states it may start in, and
which states a call may take it to.  What such a component promises is almost never a fact about
one call; it is a fact about every `Run`, any sequence of calls from a start state.

A `Run` remembers its steps, latest first, each with the state before it, the call and the state
after it.  Everything a history variable would record is a function of that list, so a property
such as "this was once so" or "the last call of that kind did this" is stated about the trace and
needs no change to the machine.

* `Run.invariant` is the induction rule for properties of the state, and `Run.invariant_of` the
  same rule for the runs whose steps all meet a condition.
* `Run.of_mem` opens a trace at any of its steps, and `Run.suffix` at any of its states.
* `Run.trace_invariant_of` is the rule for properties of the state together with its history.
* `Run.always_iff` is the rule for a property that every step keeps exactly under some condition,
  `Run.always_iff_of` the same rule under another, and `Run.always_iff_past` the same rule for
  steps that depend on what held before.
* `replay` runs a machine whose calls are functions, so that a concrete run can be computed.
-/

set_option autoImplicit false

/-- A state machine: its start states, and what a call may do. -/
structure Machine (S A : Type) where
  /-- The states it may start in. -/
  init : S → Prop
  /-- `next s a s'`: the call `a` may take `s` to `s'`. -/
  next : S → A → S → Prop

namespace Machine

variable {S A : Type}

/-- One step of a run. -/
structure Step (S A : Type) where
  /-- The state before. -/
  pre : S
  /-- The call. -/
  act : A
  /-- The state after. -/
  post : S

/-- `Run M tr s`: the machine has gone through the steps `tr`, latest first, and is in `s`. -/
inductive Run (M : Machine S A) : List (Step S A) → S → Prop
  | init {s : S} (h : M.init s) : Run M [] s
  | step {tr : List (Step S A)} {s : S} (a : A) (s' : S) (hr : Run M tr s)
      (hn : M.next s a s') : Run M (⟨s, a, s'⟩ :: tr) s'

variable {M : Machine S A} {tr : List (Step S A)} {s : S}

/-! ## Opening a run -/

theorem Run.of_cons {x : Step S A} (h : Run M (x :: tr) s) :
    Run M tr x.pre ∧ M.next x.pre x.act x.post ∧ s = x.post := by
  cases h with
  | step a s' hr hn => exact ⟨hr, hn, rfl⟩

/-- Every suffix of a trace is the trace of a run: the machine was once in that state. -/
theorem Run.suffix {tr' : List (Step S A)} (h : Run M tr s) (hs : tr' <:+ tr) :
    ∃ s', Run M tr' s' := by
  induction h with
  | init hi =>
    rw [List.suffix_nil.mp hs]
    exact ⟨_, .init hi⟩
  | step a s' hr hn ih =>
    rcases List.suffix_cons_iff.mp hs with rfl | hs
    · exact ⟨_, .step a s' hr hn⟩
    · exact ih hs

/-- A step of the trace was taken from a state that an earlier part of the run had reached. -/
theorem Run.of_mem {x : Step S A} (h : Run M tr s) (hx : x ∈ tr) :
    ∃ tr', x :: tr' <:+ tr ∧ Run M tr' x.pre ∧ M.next x.pre x.act x.post := by
  obtain ⟨newer, older, rfl⟩ := List.append_of_mem hx
  have hsuf : x :: older <:+ newer ++ x :: older := List.suffix_append ..
  obtain ⟨s', hr⟩ := h.suffix hsuf
  exact ⟨older, hsuf, hr.of_cons.1, hr.of_cons.2.1⟩

/-! ## Induction rules -/

/-- **The rule for runs under a condition.**  If every step of the run meets `C`, it is enough
that the steps meeting `C` keep `I`. -/
theorem Run.trace_invariant_of {C : S → A → Prop} {I : List (Step S A) → S → Prop}
    (h : Run M tr s) (hC : ∀ x ∈ tr, C x.pre x.act) (h0 : ∀ s, M.init s → I [] s)
    (hs : ∀ tr s a s', Run M tr s → I tr s → C s a → M.next s a s' → I (⟨s, a, s'⟩ :: tr) s') :
    I tr s := by
  induction h with
  | init hi => exact h0 _ hi
  | step a s' hr hn ih =>
    rw [List.forall_mem_cons] at hC
    exact hs _ _ a s' hr (ih hC.2) hC.1 hn

theorem Run.invariant_of {C : S → A → Prop} {I : S → Prop} (h : Run M tr s)
    (hC : ∀ x ∈ tr, C x.pre x.act) (h0 : ∀ s, M.init s → I s)
    (hs : ∀ s a s', I s → C s a → M.next s a s' → I s') : I s :=
  h.trace_invariant_of (I := fun _ s ↦ I s) hC h0 fun _ s a s' _ hi hc hn ↦ hs s a s' hi hc hn

/-- **The invariant rule.** -/
theorem Run.invariant {I : S → Prop} (h : Run M tr s) (h0 : ∀ s, M.init s → I s)
    (hs : ∀ s a s', I s → M.next s a s' → I s') : I s :=
  h.invariant_of (C := fun _ _ ↦ True) (fun _ _ ↦ trivial) h0 fun s a s' hi _ hn ↦ hs s a s' hi hn

/-! ## Exact conditions -/

/-- Every step of the trace satisfies `P`, which is shown the steps before it too. -/
def Always (P : List (Step S A) → Step S A → Prop) : List (Step S A) → Prop
  | [] => True
  | x :: older => P older x ∧ Always P older

instance decidableAlways (P : List (Step S A) → Step S A → Prop)
    [∀ older x, Decidable (P older x)] : ∀ tr, Decidable (Always P tr)
  | [] => .isTrue trivial
  | x :: older =>
    have := decidableAlways P older
    inferInstanceAs (Decidable (P older x ∧ Always P older))

/-- What every step shows that comes after steps that meet `C`, and meets it too. -/
theorem Run.always_of {C : S → A → Prop} {P : List (Step S A) → Step S A → Prop} (h : Run M tr s)
    (hC : ∀ x ∈ tr, C x.pre x.act)
    (hs : ∀ tr s a s', Run M tr s → (∀ x ∈ tr, C x.pre x.act) → C s a → M.next s a s' →
      P tr ⟨s, a, s'⟩) : Always P tr := by
  induction h with
  | init => exact trivial
  | step a s' hr hn ih =>
    obtain ⟨hx, hC⟩ := List.forall_mem_cons.mp hC
    exact ⟨hs _ _ a s' hr hC hx hn, ih hC⟩

/-- **The rule for exact conditions.**  In a run whose steps all meet `D`: if each step from a
state with `I` keeps `I` exactly when it meets `C`, then `I` holds throughout exactly when every
step meets `C`. -/
theorem Run.always_iff_of {D : S → A → Prop} {I : List (Step S A) → S → Prop}
    {C : List (Step S A) → S → A → Prop} (h : Run M tr s) (hD : ∀ x ∈ tr, D x.pre x.act)
    (h0 : ∀ s, M.init s → I [] s)
    (hs : ∀ tr s a s', Run M tr s → I tr s → D s a → M.next s a s' →
      (I (⟨s, a, s'⟩ :: tr) s' ↔ C tr s a)) :
    Always (fun older x ↦ I (x :: older) x.post) tr ↔
      Always (fun older x ↦ C older x.pre x.act) tr := by
  suffices hall : (Always (fun older x ↦ I (x :: older) x.post) tr ↔
      Always (fun older x ↦ C older x.pre x.act) tr) ∧
        (Always (fun older x ↦ I (x :: older) x.post) tr → I tr s) from hall.1
  induction h with
  | init hi => exact ⟨Iff.rfl, fun _ ↦ h0 _ hi⟩
  | step a s' hr hn ih =>
    rw [List.forall_mem_cons] at hD
    have ih := ih hD.2
    refine ⟨?_, And.left⟩
    constructor
    · rintro ⟨hI, hA⟩
      exact ⟨(hs _ _ a s' hr (ih.2 hA) hD.1 hn).mp hI, ih.1.mp hA⟩
    · rintro ⟨hC, hB⟩
      have hA := ih.1.mpr hB
      exact ⟨(hs _ _ a s' hr (ih.2 hA) hD.1 hn).mpr hC, hA⟩

theorem Run.always_iff {I : List (Step S A) → S → Prop} {C : List (Step S A) → S → A → Prop}
    (h : Run M tr s) (h0 : ∀ s, M.init s → I [] s)
    (hs : ∀ tr s a s', Run M tr s → I tr s → M.next s a s' →
      (I (⟨s, a, s'⟩ :: tr) s' ↔ C tr s a)) :
    Always (fun older x ↦ I (x :: older) x.post) tr ↔
      Always (fun older x ↦ C older x.pre x.act) tr :=
  h.always_iff_of (D := fun _ _ ↦ True) (fun _ _ ↦ trivial) h0
    fun tr s a s' hr hi _ hn ↦ hs tr s a s' hr hi hn

/-- What holds after every step, and at the start, holds before every step and now. -/
theorem Run.forall_of_always {I : S → Prop} (h : Run M tr s) (h0 : ∀ s, M.init s → I s)
    (hI : Always (fun _ x ↦ I x.post) tr) : I s ∧ ∀ x ∈ tr, I x.pre := by
  induction h with
  | init hi => exact ⟨h0 _ hi, by simp⟩
  | step a s' hr hn ih =>
    obtain ⟨hpost, hI⟩ := hI
    obtain ⟨hpre, hall⟩ := ih hI
    exact ⟨hpost, List.forall_mem_cons.mpr ⟨hpre, hall⟩⟩

/-- The rule for exact conditions, where a step may depend on what held earlier in the run. -/
theorem Run.always_iff_past {I : S → Prop} {C : List (Step S A) → S → A → Prop}
    (h : Run M tr s) (h0 : ∀ s, M.init s → I s)
    (hs : ∀ tr s a s', Run M tr s → I s → (∀ x ∈ tr, I x.pre) → M.next s a s' →
      (I s' ↔ C tr s a)) :
    Always (fun _ x ↦ I x.post) tr ↔ Always (fun older x ↦ C older x.pre x.act) tr := by
  induction h with
  | init hi => exact Iff.rfl
  | step a s' hr hn ih =>
    constructor
    · rintro ⟨hI, hA⟩
      obtain ⟨hpre, hall⟩ := hr.forall_of_always h0 hA
      exact ⟨(hs _ _ a s' hr hpre hall hn).mp hI, ih.mp hA⟩
    · rintro ⟨hC, hB⟩
      have hA := ih.mpr hB
      obtain ⟨hpre, hall⟩ := hr.forall_of_always h0 hA
      exact ⟨(hs _ _ a s' hr hpre hall hn).mpr hC, hA⟩

/-! ## What happened -/

/-- What the steps of a trace show of themselves, in the order in which they were taken. -/
def history {B : Type} (f : Step S A → Option B) (tr : List (Step S A)) : List B :=
  tr.reverse.filterMap f

variable {B : Type} (f : Step S A → Option B)

@[simp] theorem history_nil : history f [] = [] := rfl

theorem history_cons (x : Step S A) (tr : List (Step S A)) :
    history f (x :: tr) = history f tr ++ (f x).toList := by
  rw [history, List.reverse_cons, List.filterMap_append, history]
  cases h : f x <;> simp [h]

theorem history_cons_of_none {x : Step S A} (h : f x = none) (tr : List (Step S A)) :
    history f (x :: tr) = history f tr := by
  rw [history_cons, h, Option.toList_none, List.append_nil]

theorem mem_history {b : B} {tr : List (Step S A)} :
    b ∈ history f tr ↔ ∃ x ∈ tr, f x = some b := by
  simp [history, List.mem_filterMap]

theorem mem_history_cons {b : B} {x : Step S A} {tr : List (Step S A)} :
    b ∈ history f (x :: tr) ↔ b ∈ history f tr ∨ f x = some b := by
  rw [history_cons, List.mem_append, Option.mem_toList]

/-! ## Runs of functions -/

/-- The state after the calls `as`, each of them the function `f`. -/
def replay (f : S → A → S) : S → List A → S
  | s, [] => s
  | s, a :: as => replay f (f s a) as

/-- The steps of `replay`, latest first, in front of those already taken. -/
def replaySteps (f : S → A → S) : S → List A → List (Step S A) → List (Step S A)
  | _, [], tr => tr
  | s, a :: as, tr => replaySteps f (f s a) as (⟨s, a, f s a⟩ :: tr)

/-- Each of the calls `as` is admitted in the state it comes in. -/
def Admits (f : S → A → S) (ok : S → A → Prop) : S → List A → Prop
  | _, [] => True
  | s, a :: as => ok s a ∧ Admits f ok (f s a) as

instance decidableAdmits (f : S → A → S) (ok : S → A → Prop) [∀ s a, Decidable (ok s a)] :
    ∀ (s : S) (as : List A), Decidable (Admits f ok s as)
  | _, [] => .isTrue trivial
  | s, a :: as =>
    have := decidableAdmits f ok (f s a) as
    inferInstanceAs (Decidable (ok s a ∧ Admits f ok (f s a) as))

/-- Calls that are always admitted. -/
theorem Admits.of_forall {f : S → A → S} {ok : S → A → Prop} (h : ∀ s a, ok s a) :
    ∀ (s : S) (as : List A), Admits f ok s as
  | _, [] => trivial
  | s, a :: as => ⟨h s a, of_forall h (f s a) as⟩

theorem Run.replay {f : S → A → S} {ok : S → A → Prop} (hf : ∀ s a, ok s a → M.next s a (f s a)) :
    ∀ {tr : List (Step S A)} {s : S} (as : List A), Run M tr s → Admits f ok s as →
      Run M (replaySteps f s as tr) (Machine.replay f s as)
  | _, _, [], hr, _ => hr
  | _, s, a :: as, hr, h => Run.replay hf as (.step a (f s a) hr (hf s a h.1)) h.2

end Machine
