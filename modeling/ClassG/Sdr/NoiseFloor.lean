import Mathlib.Data.Multiset.Defs
import Mathlib.Order.WithBot
import ClassG.ForRust.Slice
import ClassG.OrderStatistics

/-!
# The noise floor

`NoiseFloor` of `sensor-sdr/src/sweep.rs`: a buffer of the last readings, which grows until it is
full and is overwritten from its beginning after that, and its median.

The readings are of any type with a linear order, which is `total_cmp` for an `f32`.  That order has
what is not a number above all numbers.

* `pushAll_window` — the buffer is what slides over the readings, whatever their number.
* `noiseFloor_median` — its median is the reading in the middle, and a number unless half of the
  readings are none.
-/

set_option autoImplicit false

namespace ClassG.Sdr

variable {α : Type}

structure NoiseFloor (α : Type) where
  samples : List α
  capacity : ℕ
  idx : ℕ
  deriving DecidableEq, Repr

namespace NoiseFloor

def new (capacity : ℕ) : NoiseFloor α := ⟨[], capacity, 0⟩

/-- `push`.  An index outside of the buffer is a panic. -/
def push (nf : NoiseFloor α) (power : α) : Except Panicked (NoiseFloor α) :=
  if nf.samples.length < nf.capacity then .ok { nf with samples := nf.samples ++ [power] }
  else if nf.idx < nf.samples.length then
    .ok { nf with
      samples := nf.samples.set nf.idx power
      idx := (nf.idx + 1) % nf.capacity }
  else .error .outOfBounds

/-- One reading after the other. -/
def pushAll (nf : NoiseFloor α) (readings : List α) : Except Panicked (NoiseFloor α) :=
  readings.foldlM push nf

/-- `median`. -/
def median [LinearOrder α] (nf : NoiseFloor α) : Except Panicked (Option α) :=
  if nf.samples = [] then .ok none
  else
    let sorted := nf.samples.mergeSort (· ≤ ·)
    match sorted[sorted.length / 2]? with
    | some m => .ok (some m)
    | none => .error .outOfBounds

/-- `threshold`. -/
def threshold [LinearOrder α] [Add α] (nf : NoiseFloor α) (margin : α) :
    Except Panicked (Option α) :=
  nf.median.map (·.map (· + margin))

/-! ## The window -/

/-- What the buffer holds, the oldest reading first. -/
def window (nf : NoiseFloor α) : List α := nf.samples.drop nf.idx ++ nf.samples.take nf.idx

theorem window_perm (nf : NoiseFloor α) : nf.window.Perm nf.samples := by
  rw [window]
  exact List.perm_append_comm.trans (by rw [List.take_append_drop])

/-- The buffer is being filled, or it is full and the index is inside. -/
structure Sound (nf : NoiseFloor α) : Prop where
  filling : nf.samples.length < nf.capacity → nf.idx = 0
  full : ¬ nf.samples.length < nf.capacity →
    nf.samples.length = nf.capacity ∧ nf.idx < nf.capacity

theorem sound_new {capacity : ℕ} (h : 1 ≤ capacity) : (new capacity : NoiseFloor α).Sound where
  filling _ := rfl
  full hfull := absurd h hfull

/-- **A reading is added to the window**, and the oldest one leaves it if the buffer is full. -/
theorem push_window {nf : NoiseFloor α} (h : nf.Sound) (power : α) :
    ∃ nf', nf.push power = .ok nf' ∧ nf'.Sound ∧ nf'.capacity = nf.capacity ∧
      nf'.window =
        if nf.window.length < nf.capacity then nf.window ++ [power]
        else nf.window.tail ++ [power] := by
  have hlength : nf.window.length = nf.samples.length := nf.window_perm.length_eq
  rw [hlength, push]
  obtain ⟨samples, capacity, idx⟩ := nf
  obtain ⟨hfilling, hfull⟩ := h
  dsimp only at *
  split
  · rename_i hlt
    obtain rfl := hfilling hlt
    refine ⟨_, rfl, ⟨fun _ ↦ rfl, fun hge ↦ ?_⟩, rfl, by simp [window]⟩
    simp only [List.length_append, List.length_singleton] at hge ⊢
    omega
  · rename_i hge
    obtain ⟨hcap, hidx⟩ := hfull hge
    subst hcap
    rw [if_pos hidx]
    have hset : samples.set idx power = samples.take idx ++ power :: samples.drop (idx + 1) := by
      rw [List.set_eq_take_append_cons_drop, if_pos hidx]
    have htake : (samples.take idx).length = idx := List.length_take_of_le hidx.le
    have htail : (samples.drop idx ++ samples.take idx).tail =
        samples.drop (idx + 1) ++ samples.take idx := by
      rw [List.drop_eq_getElem_cons hidx]
      rfl
    refine ⟨_, rfl, ⟨fun hlt ↦ ?_, fun _ ↦ ⟨List.length_set, ?_⟩⟩, rfl, ?_⟩
    · rw [List.length_set] at hlt
      exact absurd hlt (lt_irrefl _)
    · exact Nat.mod_lt _ (by omega)
    · rw [window, window, htail, hset]
      dsimp only
      -- The next index is in the buffer, or the buffer begins anew.
      rcases Nat.lt_or_ge (idx + 1) samples.length with hlt | hge
      · rw [Nat.mod_eq_of_lt hlt, List.drop_append, List.take_append, htake,
          List.drop_of_length_le (by omega), List.take_of_length_le (by omega)]
        simp
      · have hlast : samples.length = idx + 1 := by omega
        rw [hlast, Nat.mod_self, List.drop_of_length_le hlast.le]
        simp

/-- **The window after any readings**: by induction on them, the last one first. -/
theorem pushAll_window {capacity : ℕ} (h : 1 ≤ capacity) (readings : List α) :
    ∃ nf, (new capacity).pushAll readings = .ok nf ∧ nf.Sound ∧ nf.capacity = capacity ∧
      nf.window = readings.rtake capacity := by
  induction readings using List.reverseRecOn with
  | nil => exact ⟨new capacity, rfl, sound_new h, rfl, by simp [new, window]⟩
  | append_singleton readings power ih =>
    obtain ⟨nf, hpush, hsound, rfl, hwindow⟩ := ih
    obtain ⟨nf', hpush', hsound', hcapacity, hwindow'⟩ := push_window hsound power
    refine ⟨nf', ?_, hsound', hcapacity, ?_⟩
    · rw [pushAll, List.foldlM_append, show List.foldlM push _ readings = _ from hpush]
      exact (bind_pure _).trans hpush'
    · rw [hwindow', hwindow, length_rtake, rtake_concat readings power h]
      by_cases hlt : readings.length < nf.capacity
      · rw [if_pos (by omega), if_pos hlt, List.rtake, Nat.sub_eq_zero_of_le hlt.le,
          List.drop_zero]
      · rw [if_neg (by omega), if_neg hlt]

/-! ## The median -/

/-- There is a median of any buffer that is not empty. -/
theorem median_isRanked [LinearOrder α] (nf : NoiseFloor α) :
    ∃ m, nf.median = .ok m ∧ (m = none ↔ nf.samples = []) ∧
      ∀ v, m = some v → IsRanked nf.samples (nf.samples.length / 2) v := by
  by_cases h : nf.samples = []
  · refine ⟨none, by rw [median, if_pos h], by simp [h], ?_⟩
    rintro v ⟨⟩
  · have hpos : 0 < nf.samples.length := List.length_pos_iff.mpr h
    have hlt : nf.samples.length / 2 < (nf.samples.mergeSort (· ≤ ·)).length := by
      rw [List.length_mergeSort]
      omega
    obtain ⟨v, hget⟩ : ∃ v, (nf.samples.mergeSort (· ≤ ·))[nf.samples.length / 2]? = some v :=
      ⟨_, List.getElem?_eq_getElem hlt⟩
    refine ⟨some v, ?_, by simp [h], ?_⟩
    · rw [median, if_neg h]
      dsimp only
      rw [List.length_mergeSort, hget]
    · rintro v ⟨⟩
      exact isRanked_mergeSort hget

/-- **The noise floor is the median of the last readings.**  What is not a number does not become
the floor, unless it makes up the upper half. -/
theorem noiseFloor_median [LinearOrder α] (nan : α → Prop) [DecidablePred nan]
    (hnan : ∀ x y, nan x → ¬ nan y → y < x) (capacity : ℕ) (hcapacity : 1 ≤ capacity)
    (readings : List α) :
    ∃ nf, (new capacity).pushAll readings = .ok nf ∧
      (nf.samples : Multiset α) = readings.rtake capacity ∧
      nf.samples.length = min readings.length capacity ∧
      ∃ m, nf.median = .ok m ∧ (m = none ↔ readings = []) ∧
        ∀ v, m = some v →
          IsRanked (readings.rtake capacity) (min readings.length capacity / 2) v ∧
          ((readings.rtake capacity).countP (nan ·) <
            min readings.length capacity - min readings.length capacity / 2 → ¬ nan v) := by
  obtain ⟨nf, hpush, -, -, hwindow⟩ := pushAll_window hcapacity readings
  have hperm : nf.samples.Perm (readings.rtake capacity) := hwindow ▸ nf.window_perm.symm
  have hlength : nf.samples.length = min readings.length capacity :=
    hperm.length_eq.trans (length_rtake _ _)
  obtain ⟨m, hmedian, hnone, hranked⟩ := nf.median_isRanked
  refine ⟨nf, hpush, Multiset.coe_eq_coe.mpr hperm, hlength, m, hmedian, hnone.trans ?_, ?_⟩
  · rw [← List.length_eq_zero_iff, hlength, ← List.length_eq_zero_iff]
    omega
  · intro v hv
    have hv' : IsRanked (readings.rtake capacity) (min readings.length capacity / 2) v :=
      hlength ▸ (hranked v hv).perm hperm
    refine ⟨hv', fun hfew ↦ hv'.not_of_few hnan ?_⟩
    rw [length_rtake]
    exact hfew

/-- Four readings into three places, with two that are not a number: the floor is one. -/
theorem noiseFloor_median_three :
    ∃ nf : NoiseFloor (WithTop ℤ), (new 3).pushAll [.some 5, ⊤, .some (-1), .some 7] = .ok nf ∧
      ∃ v, nf.median = .ok (some v) ∧ v ≠ ⊤ := by
  obtain ⟨nf, hpush, -, -, m, hmedian, hnone, hm⟩ := noiseFloor_median (α := WithTop ℤ) (· = ⊤)
    (fun x y hx hy ↦ hx ▸ lt_top_iff_ne_top.mpr hy) 3 (by decide) [.some 5, ⊤, .some (-1), .some 7]
  cases m with
  | none => exact absurd (hnone.mp rfl) (by simp)
  | some v => exact ⟨nf, hpush, v, hmedian, (hm v rfl).2 (by decide)⟩

end NoiseFloor

end ClassG.Sdr
