import Mathlib.Algebra.Order.Field.Basic
import Mathlib.Data.Rat.Floor
import ClassG.MaxHold
import ClassG.Spectrum.Service

/-!
# Stitching a sweep

`Stitch` flattens the spectra of the steps into one trace.  Frequencies and levels are rationals.

A cell has its lower end and not its upper one, and the trace ends with the highest frequency
measured: `stitch_faithful_iff` says that no measurement is lost as long as what is there is inside
the DC guards.  It rarely is, and then the last bin of the sweep is in no cell (`stitch_last`).
-/

set_option autoImplicit false

namespace ClassG.Spectrum

open MaxHold

/-! ## Documents with their bins -/

/-- A `DocStep`, with its bins. -/
structure BinnedStep extends DocStep where
  firstBinHz : ℚ
  binWidthHz : ℚ
  binsDBFS : List ℚ
  deriving DecidableEq

/-- What is looked at of a `Doc` to draw it. -/
structure BinnedDoc where
  dcGuardBins : ℤ
  steps : List BinnedStep
  deriving DecidableEq

/-- `Peak`. -/
def BinnedDoc.peak (d : BinnedDoc) : Option (ℚ × ℚ) :=
  Doc.peakOf none (d.steps.map (·.toDocStep))

/-- A band as one line. -/
structure Trace where
  startHz : ℚ := 0
  stopHz : ℚ := 0
  binWidthHz : ℚ := 0
  dbfs : List (Option ℚ) := []
  blind : ℕ := 0
  deriving DecidableEq

/-- `MaxTraceWidth`. -/
def maxTraceWidth : ℤ := 4096

/-- `DefaultTraceWidth`. -/
def defaultTraceWidth : ℤ := 1200

/-! ## Stitch -/

/-- `int(q)`. -/
def toInt (q : ℚ) : ℤ := if 0 ≤ q then ⌊q⌋ else ⌈q⌉

/-- `guardRange`. -/
def guardRange (n : ℕ) (guardBins : ℤ) : ℤ × ℤ :=
  if n = 0 ∨ guardBins < 0 then (0, 0)
  else
    let dc : ℤ := n / 2
    -- the upper end wraps around for a guard next to the greatest `int`
    (max (dc - guardBins) 0, min (Int.bmod (dc + guardBins + 1) (2 ^ 64)) n)

/-- A turn of the loop of `extent`: the span and the narrowest bin so far, with `none` while there
is no step to tell. -/
def extend (acc : Option (ℚ × ℚ × ℚ)) (s : BinnedStep) : Option (ℚ × ℚ × ℚ) :=
  if s.binsDBFS = [] ∨ s.binWidthHz ≤ 0 then acc
  else
    let first := s.firstBinHz
    let last := s.firstBinHz + (s.binsDBFS.length - 1) * s.binWidthHz
    match acc with
    | none => some (first, last, s.binWidthHz)
    | some (lo, hi, binHz) => some (min lo first, max hi last, min binHz s.binWidthHz)

/-- `extent`, with `none` if it is not `ok`. -/
def extent (d : BinnedDoc) : Option (ℚ × ℚ × ℚ) :=
  (d.steps.foldl extend none).filter fun (lo, hi, _) ↦ lo < hi

/-- The frequency of a bin. -/
def BinnedStep.freq (s : BinnedStep) (i : ℕ) : ℚ := s.firstBinHz + i * s.binWidthHz

/-- The bin is outside the guard of its step. -/
def BinnedStep.Heard (s : BinnedStep) (guardBins : ℤ) (i : ℕ) : Prop :=
  ¬((guardRange s.binsDBFS.length guardBins).1 ≤ i ∧ i < (guardRange s.binsDBFS.length guardBins).2)

instance (s : BinnedStep) (guardBins : ℤ) (i : ℕ) : Decidable (s.Heard guardBins i) :=
  inferInstanceAs (Decidable (¬_))

/-- A turn of the inner loop of `Stitch` that is not skipped for the guard. -/
def place (lo cellHz : ℚ) (width : ℤ) (out : List (Option ℚ)) (hz db : ℚ) : List (Option ℚ) :=
  let cell := toInt ((hz - lo) / cellHz)
  if cell < 0 ∨ width ≤ cell then out
  else
    match out[cell.toNat]?.join with
    | none => out.set cell.toNat (some db)
    | some held => if held < db then out.set cell.toNat (some db) else out

/-- The inner loop. -/
def placeStep (lo cellHz : ℚ) (width guardBins : ℤ) (out : List (Option ℚ)) (s : BinnedStep) :
    List (Option ℚ) :=
  s.binsDBFS.zipIdx.foldl (fun out (db, i) ↦
    if s.Heard guardBins i then place lo cellHz width out (s.freq i) db else out) out

/-- The width that is drawn at most. -/
def widthOf (width : ℤ) : ℤ :=
  let width := if width ≤ 0 then defaultTraceWidth else width
  if maxTraceWidth < width then maxTraceWidth else width

/-- `Stitch`. -/
def stitch (d : BinnedDoc) (width : ℤ) : Trace :=
  match extent d with
  | none => {}
  | some (lo, hi, binHz) =>
    let maxCells := toInt ((hi - lo) / binHz)
    let width := if 0 < maxCells ∧ maxCells < widthOf width then maxCells else widthOf width
    let cellHz := (hi - lo) / width
    let out := d.steps.foldl (placeStep lo cellHz width d.dcGuardBins)
      (List.replicate width.toNat none)
    { startHz := lo
      stopHz := hi
      binWidthHz := cellHz
      dbfs := out
      blind := out.countP (·.isNone) }

/-! ## What is measured, and what is drawn -/

/-- The bins outside the guard, with their frequencies. -/
def BinnedStep.heard (s : BinnedStep) (guardBins : ℤ) : List (ℚ × ℚ) :=
  (s.binsDBFS.zipIdx.filter fun (_, i) ↦ s.Heard guardBins i).map fun (db, i) ↦ (s.freq i, db)

/-- The bins of a sweep outside the guards of their steps. -/
def BinnedDoc.heard (d : BinnedDoc) : List (ℚ × ℚ) := d.steps.flatMap fun s ↦ s.heard d.dcGuardBins

/-- The frequencies of all bins. -/
def BinnedStep.measured (s : BinnedStep) : Set ℚ := {hz | ∃ i < s.binsDBFS.length, s.freq i = hz}

def BinnedDoc.measured (d : BinnedDoc) : Set ℚ := {hz | ∃ s ∈ d.steps, hz ∈ s.measured}

/-- A frequency falls in a cell. -/
def Trace.Covers (t : Trace) (i : ℕ) (hz : ℚ) : Prop :=
  t.startHz + i * t.binWidthHz ≤ hz ∧ hz < t.startHz + (i + 1) * t.binWidthHz

/-- The levels of the bins that fall in a cell. -/
def Trace.falling (t : Trace) (d : BinnedDoc) (i : ℕ) : Set ℚ :=
  {db | ∃ hz, (hz, db) ∈ d.heard ∧ t.Covers i hz}

/-- Every step reports the greatest of its own bins. -/
def BinnedDoc.ReportsPeaks (d : BinnedDoc) : Prop := ∀ s ∈ d.steps,
  IsHeld s.peakDBFS {db | ∃ hz, (hz, db) ∈ s.heard d.dcGuardBins} ∧
    s.peakHz.isSome = s.peakDBFS.isSome

/-- No measurement is lost. -/
structure Faithful (d : BinnedDoc) (t : Trace) : Prop where
  placed : ∀ p ∈ d.heard, ∃! i, i < t.dbfs.length ∧ t.Covers i p.1
  cells : ∀ i held, t.dbfs[i]? = some held → IsHeld held (t.falling d i)
  blind : t.blind = t.dbfs.count none
  max : ∀ v, IsGreatest {db | some db ∈ t.dbfs} v ↔ IsGreatest {db | ∃ hz, (hz, db) ∈ d.heard} v
  peak : d.ReportsPeaks → ∀ v, d.peak.map (·.2) = some v ↔ IsGreatest {db | some db ∈ t.dbfs} v

/-! ## The extent -/

/-- What `extend` has made of the frequencies so far. -/
def Spans (acc : Option (ℚ × ℚ × ℚ)) (S : Set ℚ) : Prop :=
  match acc with
  | none => S = ∅
  | some (lo, hi, binHz) => IsLeast S lo ∧ IsGreatest S hi ∧ 0 < binHz

theorem BinnedStep.isLeast_measured {s : BinnedStep} (hw : 0 < s.binWidthHz)
    (hne : s.binsDBFS ≠ []) : IsLeast s.measured s.firstBinHz := by
  refine ⟨⟨0, List.length_pos_iff.mpr hne, by simp [freq]⟩, ?_⟩
  rintro _ ⟨i, -, rfl⟩
  exact le_add_of_nonneg_right (by positivity)

theorem BinnedStep.isGreatest_measured {s : BinnedStep} (hw : 0 < s.binWidthHz)
    (hne : s.binsDBFS ≠ []) :
    IsGreatest s.measured (s.firstBinHz + (s.binsDBFS.length - 1) * s.binWidthHz) := by
  have hlen := List.length_pos_iff.mpr hne
  refine ⟨⟨s.binsDBFS.length - 1, by omega, by rw [freq, Nat.cast_pred hlen]⟩, ?_⟩
  rintro _ ⟨i, hi, rfl⟩
  have hle : (i : ℚ) ≤ s.binsDBFS.length - 1 := by
    rw [← Nat.cast_pred hlen]
    exact_mod_cast Nat.le_sub_one_of_lt hi
  exact add_le_add_right (mul_le_mul_of_nonneg_right hle hw.le) _

/-- A step widens the span by its own. -/
theorem Spans.extend {acc : Option (ℚ × ℚ × ℚ)} {S : Set ℚ} (h : Spans acc S) {s : BinnedStep}
    (hw : 0 < s.binWidthHz) : Spans (extend acc s) (S ∪ s.measured) := by
  rw [Spectrum.extend]
  by_cases hne : s.binsDBFS = []
  · have hnone : s.measured = ∅ := by
      ext hz
      simp [BinnedStep.measured, hne]
    rwa [if_pos (.inl hne), hnone, Set.union_empty]
  · rw [if_neg (not_or.mpr ⟨hne, not_le.mpr hw⟩)]
    have hleast := BinnedStep.isLeast_measured hw hne
    have hgreatest := BinnedStep.isGreatest_measured hw hne
    match acc, h with
    | none, h =>
      rw [show S = ∅ from h, Set.empty_union]
      exact ⟨hleast, hgreatest, hw⟩
    | some (lo, hi, binHz), h =>
      exact ⟨h.1.union hleast, h.2.1.union hgreatest, lt_min h.2.2 hw⟩

theorem spans_foldl {acc : Option (ℚ × ℚ × ℚ)} {S : Set ℚ} (h : Spans acc S)
    {steps : List BinnedStep} (hw : ∀ s ∈ steps, 0 < s.binWidthHz) :
    Spans (steps.foldl Spectrum.extend acc) (S ∪ {hz | ∃ s ∈ steps, hz ∈ s.measured}) := by
  induction steps generalizing acc S with
  | nil => simpa using h
  | cons s steps ih =>
    have hstep := ih (h.extend (hw s List.mem_cons_self))
      fun s' hs' ↦ hw s' (List.mem_cons_of_mem s hs')
    have hset : S ∪ {hz | ∃ s' ∈ s :: steps, hz ∈ s'.measured} =
        S ∪ s.measured ∪ {hz | ∃ s' ∈ steps, hz ∈ s'.measured} := by
      ext hz
      simp [or_assoc]
    rwa [hset]

/-- **The extent is what has been measured.** -/
theorem extent_eq_some {d : BinnedDoc} (hw : ∀ s ∈ d.steps, 0 < s.binWidthHz) {lo hi binHz : ℚ}
    (h : extent d = some (lo, hi, binHz)) :
    IsLeast d.measured lo ∧ IsGreatest d.measured hi ∧ 0 < binHz ∧ lo < hi := by
  obtain ⟨hfold, hlt⟩ := Option.filter_eq_some_iff.mp h
  have hspans := spans_foldl (show Spans none ∅ from rfl) hw
  rw [hfold, Set.empty_union] at hspans
  exact ⟨hspans.1, hspans.2.1, hspans.2.2, of_decide_eq_true hlt⟩

/-- Without an extent there are not two frequencies. -/
theorem extent_eq_none {d : BinnedDoc} (hw : ∀ s ∈ d.steps, 0 < s.binWidthHz)
    (h : extent d = none) {f g : ℚ} (hf : f ∈ d.measured) (hg : g ∈ d.measured) : f ≤ g := by
  have hspans := spans_foldl (show Spans none ∅ from rfl) hw
  rw [Set.empty_union] at hspans
  rw [extent] at h
  cases hfold : d.steps.foldl Spectrum.extend none with
  | none =>
    rw [hfold] at hspans
    exact absurd hf ((show d.measured = ∅ from hspans) ▸ Set.notMem_empty f)
  | some acc =>
    obtain ⟨lo, hi, binHz⟩ := acc
    rw [hfold] at hspans h
    have hle : hi ≤ lo := by simpa using h
    exact (hspans.2.1.2 hf).trans (hle.trans (hspans.1.2 hg))

/-! ## Cells -/

section cells

variable {lo cellHz hz db : ℚ} {width guardBins : ℤ} {out : List (Option ℚ)} {came : Set (ℕ × ℚ)}

/-- The cell of a frequency. -/
def cellOf (lo cellHz hz : ℚ) : ℕ := ⌊(hz - lo) / cellHz⌋₊

theorem cellOf_eq_iff (hcell : 0 < cellHz) (hlo : lo ≤ hz) {i : ℕ} :
    cellOf lo cellHz hz = i ↔ lo + i * cellHz ≤ hz ∧ hz < lo + (i + 1) * cellHz := by
  have hnonneg : 0 ≤ (hz - lo) / cellHz := div_nonneg (sub_nonneg.mpr hlo) hcell.le
  rw [cellOf, Nat.floor_eq_iff hnonneg, le_div_iff₀ hcell, div_lt_iff₀ hcell]
  exact and_congr ⟨fun h ↦ by linarith, fun h ↦ by linarith⟩
    ⟨fun h ↦ by linarith, fun h ↦ by linarith⟩

@[simp] theorem length_place : (place lo cellHz width out hz db).length = out.length := by
  rw [place]
  split
  · rfl
  · split
    · rw [List.length_set]
    · split <;> simp

/-- **A bin above the lower end comes to its cell**, if the trace has it. -/
theorem place_eq (hcell : 0 < cellHz) (hlo : lo ≤ hz) (hwidth : out.length = width) (db : ℚ) :
    place lo cellHz width out hz db = out.modify (cellOf lo cellHz hz) (keep db) := by
  have hnonneg : 0 ≤ (hz - lo) / cellHz := div_nonneg (sub_nonneg.mpr hlo) hcell.le
  have hint : toInt ((hz - lo) / cellHz) = cellOf lo cellHz hz := by
    rw [toInt, if_pos hnonneg, cellOf, Int.natCast_floor_eq_floor hnonneg]
  simp only [place, hint, Int.toNat_natCast]
  generalize cellOf lo cellHz hz = i
  by_cases hi : i < out.length
  · rw [if_neg (by omega), List.modify_eq_set, List.getElem?_eq_getElem hi, Option.join_some,
      Option.getD_some]
    cases hheld : out[i] with
    | none => rfl
    | some held =>
      simp only [keep]
      split
      · rfl
      · rw [← hheld, List.set_getElem_self]
  · rw [if_pos (by omega), List.modify_eq_self (by omega)]

theorem length_foldl_place (l : List (ℚ × ℚ)) :
    (l.foldl (fun out p ↦ place lo cellHz width out p.1 p.2) out).length = out.length := by
  induction l generalizing out with
  | nil => rfl
  | cons p l ih => rw [List.foldl_cons, ih, length_place]

/-- **The cells hold the bins that have come to them.** -/
theorem row_foldl_place (hcell : 0 < cellHz) {l : List (ℚ × ℚ)} (hlo : ∀ p ∈ l, lo ≤ p.1)
    (hwidth : out.length = width) (h : Row out came) :
    Row (l.foldl (fun out p ↦ place lo cellHz width out p.1 p.2) out)
      (came ∪ {q | ∃ p ∈ l, q = (cellOf lo cellHz p.1, p.2)}) := by
  induction l generalizing out came with
  | nil => simpa using h
  | cons p l ih =>
    have hstep := place_eq hcell (hlo p List.mem_cons_self) hwidth p.2
    have hnext := ih (fun q hq ↦ hlo q (List.mem_cons_of_mem p hq))
      (by rw [length_place, hwidth]) (hstep ▸ h.keep (cellOf lo cellHz p.1) p.2)
    have hset : came ∪ {q | ∃ r ∈ p :: l, q = (cellOf lo cellHz r.1, r.2)} =
        insert (cellOf lo cellHz p.1, p.2) came ∪
          {q | ∃ r ∈ l, q = (cellOf lo cellHz r.1, r.2)} := by
      ext q
      simp only [Set.mem_union, Set.mem_insert_iff, Set.mem_ofPred_eq, List.exists_mem_cons_iff]
      tauto
    rwa [hset]

/-- The loops of `Stitch` go through the bins outside the guards. -/
theorem foldl_placeStep (steps : List BinnedStep) :
    steps.foldl (placeStep lo cellHz width guardBins) out =
      (steps.flatMap fun s ↦ s.heard guardBins).foldl
        (fun out p ↦ place lo cellHz width out p.1 p.2) out := by
  rw [List.foldl_flatMap]
  congr 1
  funext out s
  rw [BinnedStep.heard, List.foldl_map, List.foldl_filter]
  simp only [placeStep, decide_eq_true_eq]

end cells

/-! ## Peaks -/

/-- The peak of a step that reports both. -/
def DocStep.reported (s : DocStep) : Set ℚ := {db | s.peakHz.isSome ∧ s.peakDBFS = some db}

theorem isHeld_peakOf {best : Option (ℚ × ℚ)} {S : Set ℚ} (h : IsHeld (best.map (·.2)) S)
    (steps : List DocStep) : IsHeld ((Doc.peakOf best steps).map (·.2))
      (S ∪ {db | ∃ s ∈ steps, db ∈ s.reported}) := by
  induction steps generalizing best S with
  | nil => simpa [Doc.peakOf] using h
  | cons s steps ih =>
    have hset : S ∪ {db | ∃ s' ∈ s :: steps, db ∈ s'.reported} =
        S ∪ s.reported ∪ {db | ∃ s' ∈ steps, db ∈ s'.reported} := by
      ext db
      simp only [Set.mem_union, Set.mem_ofPred_eq, List.exists_mem_cons_iff, or_assoc]
    rw [hset, Doc.peakOf]
    split
    · rename_i hz db hhz hdb
      have hreported : S ∪ s.reported = insert db S := by
        ext v
        simp [DocStep.reported, hhz, hdb, eq_comm]
      rw [hreported]
      have hkeep := h.keep db
      cases best with
      | none => exact ih hkeep
      | some b =>
        simp only [Option.map_some, keep] at hkeep
        split
        · rename_i hlt
          rw [if_pos (by simpa using hlt)] at hkeep
          exact ih hkeep
        · rename_i hge
          rw [if_neg (by simpa using hge)] at hkeep
          exact ih hkeep
    · rename_i hnone
      have hreported : s.reported = ∅ := by
        refine Set.eq_empty_of_forall_notMem fun v hv ↦ ?_
        obtain ⟨hz, hhz⟩ := Option.isSome_iff_exists.mp hv.1
        exact hnone hz v hhz hv.2
      rw [hreported, Set.union_empty]
      exact ih h

/-- **The peak is the greatest bin outside the guards**, if every step reports its own. -/
theorem BinnedDoc.ReportsPeaks.isHeld_peak {d : BinnedDoc} (h : d.ReportsPeaks) {v : ℚ} :
    d.peak.map (·.2) = some v ↔ IsGreatest {db | ∃ hz, (hz, db) ∈ d.heard} v := by
  have hpeak := isHeld_peakOf (show IsHeld ((none : Option (ℚ × ℚ)).map (·.2)) ∅ from rfl)
    (d.steps.map (·.toDocStep))
  rw [peak, hpeak.eq_some_iff, Set.empty_union]
  have hall := isGreatest_iUnion (fun s : {s // s ∈ d.steps} ↦ s.1.peakDBFS)
    (fun s ↦ (h s.1 s.2).1) v
  have hreported : {db | ∃ s ∈ d.steps.map (·.toDocStep), db ∈ s.reported} =
      {db | ∃ s : {s // s ∈ d.steps}, s.1.peakDBFS = some db} := by
    ext db
    simp only [Set.mem_ofPred_eq, List.mem_map, exists_exists_and_eq_and, Subtype.exists,
      exists_prop]
    refine exists_congr fun s ↦ and_congr_right fun hs ↦ ⟨And.right, fun hdb ↦ ⟨?_, hdb⟩⟩
    rw [(h s hs).2, hdb]
    rfl
  have hheard : (⋃ s : {s // s ∈ d.steps}, {db | ∃ hz, (hz, db) ∈ s.1.heard d.dcGuardBins}) =
      {db | ∃ hz, (hz, db) ∈ d.heard} := by
    ext db
    simp only [Set.mem_iUnion, Set.mem_ofPred_eq, heard, List.mem_flatMap, Subtype.exists,
      exists_prop]
    exact ⟨fun ⟨s, hs, hz, hmem⟩ ↦ ⟨hz, s, hs, hmem⟩, fun ⟨hz, s, hs, hmem⟩ ↦ ⟨s, hs, hz, hmem⟩⟩
  rw [hreported, hall, hheard]

/-! ## No measurement is lost -/

theorem BinnedDoc.mem_measured {d : BinnedDoc} {p : ℚ × ℚ} (h : p ∈ d.heard) :
    p.1 ∈ d.measured := by
  obtain ⟨s, hs, hp⟩ := List.mem_flatMap.mp h
  obtain ⟨⟨db, i⟩, hbin, rfl⟩ := List.mem_map.mp hp
  have hi := List.mem_zipIdx_iff_getElem?.mp (List.mem_of_mem_filter hbin)
  exact ⟨s, hs, i, (List.getElem?_eq_some_iff.mp hi).1, rfl⟩

theorem widthOf_pos (width : ℤ) : 0 < widthOf width := by
  simp only [widthOf, defaultTraceWidth, maxTraceWidth]
  split <;> split <;> omega

/-- The trace of a sweep that has an extent. -/
theorem stitch_eq {d : BinnedDoc} {lo hi binHz : ℚ} (h : extent d = some (lo, hi, binHz))
    (width : ℤ) : ∃ n : ℕ, 0 < n ∧ stitch d width =
      let out := d.heard.foldl (fun out p ↦ place lo ((hi - lo) / n) n out p.1 p.2)
        (List.replicate n none)
      ⟨lo, hi, (hi - lo) / n, out, out.countP (·.isNone)⟩ := by
  have hpos := widthOf_pos width
  obtain ⟨n, hn⟩ := Int.eq_ofNat_of_zero_le
    (show 0 ≤ if 0 < toInt ((hi - lo) / binHz) ∧ toInt ((hi - lo) / binHz) < widthOf width then
      toInt ((hi - lo) / binHz) else widthOf width by split <;> omega)
  refine ⟨n, ?_, ?_⟩
  · split at hn <;> omega
  · simp only [stitch, h, hn, foldl_placeStep, BinnedDoc.heard, Int.toNat_natCast, Int.cast_natCast]

/-- What the cells hold decides the rest. -/
theorem faithful_of_placed {d : BinnedDoc} {t : Trace}
    (hplaced : ∀ p ∈ d.heard, ∃! i, i < t.dbfs.length ∧ t.Covers i p.1)
    (hcells : ∀ i held, t.dbfs[i]? = some held → IsHeld held (t.falling d i))
    (hblind : t.blind = t.dbfs.count none) : Faithful d t := by
  have hmax (v : ℚ) : IsGreatest {db | some db ∈ t.dbfs} v ↔
      IsGreatest {db | ∃ hz, (hz, db) ∈ d.heard} v := by
    have hall := isGreatest_iUnion (fun i : Fin t.dbfs.length ↦ t.dbfs[i])
      (fun i ↦ hcells i _ (List.getElem?_eq_getElem i.2)) v
    have hheld : {db | some db ∈ t.dbfs} = {db | ∃ i : Fin t.dbfs.length, t.dbfs[i] = some db} := by
      ext db
      exact List.mem_iff_get
    have hheard : (⋃ i : Fin t.dbfs.length, t.falling d i) = {db | ∃ hz, (hz, db) ∈ d.heard} := by
      ext db
      rw [Set.mem_iUnion]
      constructor
      · rintro ⟨i, hz, hmem, -⟩
        exact ⟨hz, hmem⟩
      · rintro ⟨hz, hmem⟩
        obtain ⟨i, ⟨hi, hcovers⟩, -⟩ := hplaced _ hmem
        exact ⟨⟨i, hi⟩, hz, hmem, hcovers⟩
    rw [hheld, hall, hheard]
  exact ⟨hplaced, hcells, hblind, hmax, fun hpeaks v ↦ by rw [hpeaks.isHeld_peak, hmax]⟩

/-- **No measurement is lost** exactly if no bin outside a guard has the highest frequency. -/
theorem stitch_faithful_iff (d : BinnedDoc) (width : ℤ) (hw : ∀ s ∈ d.steps, 0 < s.binWidthHz) :
    Faithful d (stitch d width) ↔ ∀ p ∈ d.heard, ∃ hz ∈ d.measured, p.1 < hz := by
  have hmeasured {p : ℚ × ℚ} (hp : p ∈ d.heard) := BinnedDoc.mem_measured hp
  cases hextent : extent d with
  | none =>
    have hstitch : stitch d width = {} := by rw [stitch, hextent]
    rw [hstitch]
    refine ⟨fun h p hp ↦ ?_, fun h ↦ ?_⟩
    · obtain ⟨i, ⟨hi, -⟩, -⟩ := h.placed p hp
      cases hi
    · refine faithful_of_placed (fun p hp ↦ ?_) (fun i held hi ↦ by cases hi) rfl
      obtain ⟨hz, hhz, hlt⟩ := h p hp
      exact absurd hlt (extent_eq_none hw hextent hhz (hmeasured hp)).not_gt
  | some acc =>
    obtain ⟨lo, hi, binHz⟩ := acc
    obtain ⟨hlo, hhi, -, hlt⟩ := extent_eq_some hw hextent
    obtain ⟨n, hn, hstitch⟩ := stitch_eq hextent width
    have hcell : 0 < (hi - lo) / n := div_pos (sub_pos.mpr hlt) (by exact_mod_cast hn)
    have hend : lo + n * ((hi - lo) / n) = hi := by
      rw [mul_div_cancel₀ _ (by exact_mod_cast hn.ne')]
      ring
    have hlen : (stitch d width).dbfs.length = n := by
      rw [hstitch]
      simp only [length_foldl_place, List.length_replicate]
    have hcovers {hz : ℚ} (hle : lo ≤ hz) (i : ℕ) :
        (stitch d width).Covers i hz ↔ cellOf lo ((hi - lo) / n) hz = i := by
      rw [cellOf_eq_iff hcell hle, hstitch]
      rfl
    refine ⟨fun h p hp ↦ ?_, fun h ↦ faithful_of_placed (fun p hp ↦ ?_) (fun i held hheld ↦ ?_) ?_⟩
    · obtain ⟨i, ⟨hi', hcover⟩, -⟩ := h.placed p hp
      rw [hlen] at hi'
      rw [hcovers (hlo.2 (hmeasured hp)), cellOf_eq_iff hcell (hlo.2 (hmeasured hp))] at hcover
      have hsucc : ((i : ℚ) + 1) ≤ n := by exact_mod_cast hi'
      exact ⟨hi, hhi.1, hcover.2.trans_le
        ((add_le_add_right (mul_le_mul_of_nonneg_right hsucc hcell.le) lo).trans_eq hend)⟩
    · have hle := hlo.2 (hmeasured hp)
      obtain ⟨hz, hhz, hlthz⟩ := h p hp
      have hbelow : p.1 < hi := hlthz.trans_le (hhi.2 hhz)
      refine ⟨cellOf lo ((hi - lo) / n) p.1, ⟨?_, (hcovers hle _).mpr rfl⟩,
        fun j hj ↦ ((hcovers hle j).mp hj.2).symm⟩
      rw [hlen]
      by_contra hge
      have hfrom := ((cellOf_eq_iff hcell hle).mp rfl).1
      have hcast : (n : ℚ) ≤ cellOf lo ((hi - lo) / n) p.1 := by exact_mod_cast not_lt.mp hge
      have hmul := mul_le_mul_of_nonneg_right hcast hcell.le
      linarith
    · have hrow := row_foldl_place hcell (fun p hp ↦ hlo.2 (hmeasured hp))
        (by rw [List.length_replicate]) (row_replicate n)
      rw [hstitch] at hheld
      have hset : {v | (i, v) ∈ (∅ : Set (ℕ × ℚ)) ∪
          {q | ∃ p ∈ d.heard, q = (cellOf lo ((hi - lo) / n) p.1, p.2)}} =
            (stitch d width).falling d i := by
        ext db
        rw [Set.empty_union]
        constructor
        · rintro ⟨p, hp, heq⟩
          obtain ⟨rfl, rfl⟩ := Prod.mk.inj heq
          exact ⟨p.1, hp, (hcovers (hlo.2 (hmeasured hp)) _).mpr rfl⟩
        · rintro ⟨hz, hp, hcover⟩
          exact ⟨(hz, db), hp, by rw [(hcovers (hlo.2 (hmeasured hp)) i).mp hcover]⟩
      exact hset ▸ hrow i held hheld
    · rw [hstitch, List.count_eq_countP]
      exact List.countP_congr fun held _ ↦ by cases held <;> simp

/-- Two steps, and the last bin inside the guard of its step. -/
def guardedDoc : BinnedDoc where
  dcGuardBins := 0
  steps := [⟨⟨some 2, some (-20)⟩, 0, 1, [-80, -10, -20]⟩, ⟨⟨none, none⟩, 3, 1, [-10]⟩]

theorem stitch_faithful_guarded : Faithful guardedDoc (stitch guardedDoc 1200) :=
  (stitch_faithful_iff guardedDoc 1200 (by decide)).mpr fun p hp ↦
    ⟨3, ⟨_, List.mem_cons_of_mem _ List.mem_cons_self, 0, by decide, by decide +kernel⟩, by
      revert p
      decide +kernel⟩

/-- A step whose strongest bin is the last one. -/
def lastBinDoc : BinnedDoc where
  dcGuardBins := 0
  steps := [⟨⟨some 2, some (-20)⟩, 0, 1, [-80, -10, -20]⟩]

/-- **The last bin is in no cell**, and with it the peak is lost. -/
theorem stitch_last : (∀ s ∈ lastBinDoc.steps, 0 < s.binWidthHz) ∧
    lastBinDoc.peak = some (2, -20) ∧ (stitch lastBinDoc 1200).dbfs = [some (-80), none] ∧
      ¬Faithful lastBinDoc (stitch lastBinDoc 1200) := by
  have hdbfs : (stitch lastBinDoc 1200).dbfs = [some (-80), none] := by decide +kernel
  refine ⟨by decide, by decide, hdbfs, fun h ↦ ?_⟩
  have hheard : lastBinDoc.heard = [(0, -80), (2, -20)] := by decide +kernel
  have hpeak : IsGreatest {db | ∃ hz, (hz, db) ∈ lastBinDoc.heard} (-20) := by
    rw [hheard]
    refine ⟨⟨2, by decide⟩, ?_⟩
    rintro db ⟨hz, hmem⟩
    rcases List.mem_cons.mp hmem with heq | hmem
    · rw [(Prod.mk.inj heq).2]
      norm_num
    · rw [(Prod.mk.inj (List.mem_singleton.mp hmem)).2]
  have hmem := ((h.max (-20)).mpr hpeak).1
  rw [hdbfs] at hmem
  revert hmem
  decide +kernel

end ClassG.Spectrum
