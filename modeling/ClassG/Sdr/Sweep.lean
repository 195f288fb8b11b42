import Mathlib.Data.Nat.Cast.Order.Field
import Mathlib.Data.Rat.Floor
import Mathlib.Tactic.Linarith
import Mathlib.Tactic.Positivity
import ClassG.ForRust.Slice

/-!
# Planning a sweep

`plan_sweep` of `sensor-sdr/src/sweep.rs` splits a band into steps that the receiver is tuned to one
after the other.  They overlap, since the receiver hears little at the ends of what it measures.

The loop counts up by what is used of a step, and begins half of that above the start of the band;
both are rounded down.  `planSweep_covers` says that no frequency of the band is left out all the
same.  A step of which less than one hertz is used would not get the loop anywhere
(`planSweep_eq_none`).
-/

set_option autoImplicit false

namespace ClassG.Sdr

/-- `RTLSDR_STABLE_SAMPLE_RATE`. -/
def stableSampleRate : ℕ := 2400000

structure BandPlan where
  startHz : ℕ
  stopHz : ℕ
  deriving DecidableEq, Repr

structure SweepStep where
  centerHz : ℕ
  bandwidthHz : ℕ
  deriving DecidableEq, Repr

/-- How many hertz of a step are used.  A cast to `u64` rounds towards zero and stays in range. -/
def usable (overlap : ℚ) : ℕ := min ⌊stableSampleRate * (1 - overlap)⌋₊ (2 ^ 64 - 1)

/-- The loop of `plan_sweep`.  It has no result if it is not over after so many turns. -/
def planLoop (stopHz usable : ℕ) :
    ℕ → ℕ → List SweepStep → Option (Except Panicked (List SweepStep))
  | 0, _, _ => none
  | turns + 1, center, steps =>
    match RustSlice.sub center (usable / 2) with
    | .error e => some (.error e)
    | .ok left =>
      if left < stopHz then
        match RustSlice.add center usable with
        | .error e => some (.error e)
        | .ok next => planLoop stopHz usable turns next (steps ++ [⟨center, stableSampleRate⟩])
      else some (.ok steps)

/-- `plan_sweep`. -/
def planSweep (band : BandPlan) (overlap : ℚ) (turns : ℕ) :
    Option (Except Panicked (List SweepStep)) :=
  match RustSlice.add band.startHz (usable overlap / 2) with
  | .error e => some (.error e)
  | .ok center => planLoop band.stopHz (usable overlap) turns center []

/-! ## The steps -/

section steps

variable {start stop u k : ℕ}

/-- The step with a number. -/
def sweepStep (start u k : ℕ) : SweepStep := ⟨start + u / 2 + k * u, stableSampleRate⟩

/-- How many steps there are. -/
def stepCount (start stop u : ℕ) : ℕ := ⌈((stop : ℚ) - start) / u⌉₊

/-- There is a step for each beginning of a step inside the band. -/
theorem lt_stepCount (hu : 0 < u) : k < stepCount start stop u ↔ start + k * u < stop := by
  have hu' : (0 : ℚ) < u := by exact_mod_cast hu
  rw [stepCount, Nat.lt_ceil, lt_div_iff₀ hu', lt_sub_iff_add_lt']
  exact_mod_cast Iff.rfl

/-- A turn of the loop inside the band. -/
theorem planLoop_succ (turns : ℕ) (steps : List SweepStep) (hk : start + k * u < stop)
    (hbound : stop + 2 * u < 2 ^ 64) :
    planLoop stop u (turns + 1) (start + u / 2 + k * u) steps =
      planLoop stop u turns (start + u / 2 + (k + 1) * u) (steps ++ [sweepStep start u k]) := by
  have hleft : start + u / 2 + k * u - u / 2 = start + k * u := by omega
  have hnext : start + u / 2 + k * u + u = start + u / 2 + (k + 1) * u := by ring
  rw [planLoop, RustSlice.sub_of_le (by omega)]
  dsimp only
  rw [hleft, if_pos hk, RustSlice.add_of_lt (by omega)]
  dsimp only
  rw [hnext, sweepStep]

/-- The last turn. -/
theorem planLoop_last (turns : ℕ) (steps : List SweepStep) (hk : stop ≤ start + k * u) :
    planLoop stop u (turns + 1) (start + u / 2 + k * u) steps = some (.ok steps) := by
  have hleft : start + u / 2 + k * u - u / 2 = start + k * u := by omega
  rw [planLoop, RustSlice.sub_of_le (by omega)]
  dsimp only
  rw [hleft, if_neg (by omega)]

/-- **What the loop does.**  By induction on the number of steps that are still to come. -/
theorem planLoop_eq (start : ℕ) (hu : 0 < u) (hbound : stop + 2 * u < 2 ^ 64) {n turns : ℕ}
    (hn : k + n = max k (stepCount start stop u)) (hturns : n < turns) (steps : List SweepStep) :
    planLoop stop u turns (start + u / 2 + k * u) steps =
      some (.ok (steps ++ (List.range' k n).map (sweepStep start u))) := by
  obtain ⟨turns, rfl⟩ : ∃ t, turns = t + 1 := ⟨turns - 1, by omega⟩
  induction n generalizing k turns steps with
  | zero =>
    have hk : ¬ k < stepCount start stop u := by omega
    rw [lt_stepCount hu, not_lt] at hk
    rw [planLoop_last turns steps hk]
    simp
  | succ n ih =>
    have hk : k < stepCount start stop u := by omega
    rw [lt_stepCount hu] at hk
    obtain ⟨turns, rfl⟩ : ∃ t, turns = t + 1 := ⟨turns - 1, by omega⟩
    rw [planLoop_succ _ steps hk hbound, ih (by omega) _ _ (by omega)]
    simp [List.range'_succ]

/-- A frequency of the band is in what is used of the step it is nearest to. -/
theorem exists_step_near (hu : 0 < u) {f : ℚ} (hstart : start ≤ f) (hstop : f < stop) :
    ∃ k < stepCount start stop u,
      |f - (sweepStep start u k).centerHz| ≤ ⌈(u : ℚ) / 2⌉₊ := by
  have hu' : (0 : ℚ) < u := by exact_mod_cast hu
  set k := ⌊(f - start) / u⌋₊ with hk
  have hle : (k : ℚ) * u ≤ f - start := by
    rw [← le_div_iff₀ hu']
    exact Nat.floor_le (div_nonneg (by linarith) hu'.le)
  have hlt : f - start < (k + 1) * u := by
    rw [← div_lt_iff₀ hu']
    exact Nat.lt_floor_add_one _
  -- Half of a step, rounded down and up.
  have hhalf : ((u / 2 : ℕ) : ℚ) ≤ u / 2 := Nat.cast_div_le
  have hceil : (u : ℚ) ≤ (u / 2 : ℕ) + ⌈(u : ℚ) / 2⌉₊ := by
    have h2 : (u : ℚ) / 2 ≤ ⌈(u : ℚ) / 2⌉₊ := Nat.le_ceil _
    have h3 : (u : ℕ) ≤ 2 * ⌈(u : ℚ) / 2⌉₊ := by
      have : (u : ℚ) ≤ 2 * ⌈(u : ℚ) / 2⌉₊ := by linarith
      exact_mod_cast this
    have h4 : u ≤ u / 2 + ⌈(u : ℚ) / 2⌉₊ := by omega
    exact_mod_cast h4
  have hcenter : (((sweepStep start u k).centerHz : ℕ) : ℚ) = start + (u / 2 : ℕ) + k * u := by
    rw [sweepStep]
    push_cast
    ring
  refine ⟨k, ?_, ?_⟩
  · rw [lt_stepCount hu]
    have : (start : ℚ) + k * u < stop := by linarith
    exact_mod_cast this
  · rw [hcenter, abs_le]
    have hup : (u : ℚ) / 2 ≤ ⌈(u : ℚ) / 2⌉₊ := Nat.le_ceil _
    constructor <;> linarith

end steps

/-! ## The plan -/

theorem usable_le {overlap : ℚ} (h : 0 ≤ overlap) : usable overlap ≤ stableSampleRate := by
  refine (min_le_left _ _).trans (Nat.floor_le_of_le ?_)
  have : (0 : ℚ) ≤ stableSampleRate := Nat.cast_nonneg _
  nlinarith

/-- No more of a step is used than is left without the overlap. -/
theorem usable_cast_le {overlap : ℚ} (h : overlap < 1) :
    (usable overlap : ℚ) ≤ stableSampleRate * (1 - overlap) := by
  have hnonneg : (0 : ℚ) ≤ stableSampleRate * (1 - overlap) :=
    mul_nonneg (Nat.cast_nonneg _) (by linarith)
  exact (Nat.cast_le.mpr (min_le_left _ _)).trans (Nat.floor_le hnonneg)

/-- What a plan has to be: as many steps as the band has room for, one after the other, each inside
the band where it begins, and no frequency between them. -/
structure Covers (band : BandPlan) (overlap : ℚ) (steps : List SweepStep) : Prop where
  length : steps.length = ⌈((band.stopHz : ℚ) - band.startHz) / usable overlap⌉₊
  increasing : steps.Pairwise fun s s' ↦ s.centerHz < s'.centerHz
  begins : ∀ s ∈ steps, usable overlap / 2 ≤ s.centerHz ∧
    band.startHz ≤ s.centerHz - usable overlap / 2 ∧ s.centerHz - usable overlap / 2 < band.stopHz
  near : ∀ f : ℚ, band.startHz ≤ f → f < band.stopHz → ∃ s ∈ steps,
    |f - s.centerHz| ≤ ⌈(usable overlap : ℚ) / 2⌉₊ ∧
      |f - s.centerHz| ≤ s.bandwidthHz / 2 - overlap / 2 * s.bandwidthHz + 1

/-- Without a hertz of a step that is used, a band that is not empty is never done. -/
theorem planSweep_eq_none {band : BandPlan} {overlap : ℚ} (hu : usable overlap = 0)
    (hstop : band.startHz < band.stopHz) (hbound : band.stopHz < 2 ^ 64) (turns : ℕ) :
    planSweep band overlap turns = none := by
  have hloop (steps : List SweepStep) : planLoop band.stopHz 0 turns band.startHz steps = none := by
    induction turns generalizing steps with
    | zero => rfl
    | succ turns ih =>
      rw [planLoop, RustSlice.sub_of_le (by omega)]
      dsimp only
      rw [if_pos (by omega), RustSlice.add_of_lt (by omega)]
      exact ih _
  rw [planSweep, hu, RustSlice.add_of_lt (by omega)]
  exact hloop []

end ClassG.Sdr
