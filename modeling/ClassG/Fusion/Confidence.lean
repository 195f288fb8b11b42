import ClassG.NoisyOr
import ClassG.Fusion.History

/-!
# The confidence of a track

`recomputeConfidence` runs over the evidence, one entry for each class, in whatever order the map
has it.  The entries are the classes of the detections that were folded in, each with its weight
(`evidence_tallied`), so what comes out before it is rounded is the noisy-OR over those classes
(`confidence_noisyOr`).
-/

set_option autoImplicit false

namespace ClassG.Fusion

open Track TrackStore

variable (cfg : Config)

/-- The confidence before it is rounded to three decimals. -/
def Track.rawConfidence (t : Track) : ℚ := 1 - (t.evidence.values.map fun e ↦ 1 - e.weight).prod

/-- What `recomputeConfidence` rounds it to. -/
def rounded (x : ℚ) : ℚ := Track.mathRound (x * 1000) / 1000

/-- The classes of these detections. -/
def classes (ds : List Detection) : Finset String := (ds.map (·.detectionClass)).toFinset

/-! ## The evidence -/

/-- What a track holds of the detections folded into it. -/
structure EvidenceTallied (ds : List Detection) (t : Track) : Prop where
  /-- There is an entry for each of their classes, -/
  keys : ∀ cls, (∃ e, t.evidence.get cls = some e) ↔ cls ∈ classes ds
  /-- which has the weight of the class. -/
  weight : ∀ cls e, t.evidence.get cls = some e → e.weight = cfg.weights cls
  /-- The confidence is that of the entries. -/
  confidence : t.confidence = rounded t.rawConfidence

theorem rounded_zero : rounded 0 = 0 := by decide +kernel

variable {cfg} in
theorem EvidenceTallied.absorbed {ds : List Detection} {t : Track} (h : EvidenceTallied cfg ds t)
    (d : Detection) (seen now : GoTime) (terrain : TerrainResolver) :
    EvidenceTallied cfg (d :: ds) (absorbed cfg d seen now terrain t) := by
  have hget : ∀ cls, (TrackStore.absorbed cfg d seen now terrain t).evidence.get cls =
      if cls = d.detectionClass then
        some { (t.evidence.get cls).getD ⟨cls, d.sensorKind, cfg.weights cls, 0, 0⟩ with
          count := ((t.evidence.get cls).getD ⟨cls, d.sensorKind, cfg.weights cls, 0, 0⟩).count + 1
          lastSeen := d.ts }
      else t.evidence.get cls := by
    intro cls
    rw [TrackStore.absorbed, absorb_evidence, addEvidence]
    dsimp only [recomputeConfidence]
    rw [GoMap.get_put]
    split
    · rename_i hcls
      rw [hcls]
    · rfl
  refine ⟨fun cls ↦ ?_, fun cls e he ↦ ?_, ?_⟩
  · rw [hget, classes, List.map_cons, List.toFinset_cons, Finset.mem_insert, ← classes, ← h.keys]
    by_cases hcls : cls = d.detectionClass
    · rw [if_pos hcls]
      exact iff_of_true ⟨_, rfl⟩ (.inl hcls)
    · rw [if_neg hcls, or_iff_right hcls]
  · rw [hget] at he
    split at he
    · obtain rfl := Option.some.inj he
      rcases hold : t.evidence.get cls with _ | e
      · rfl
      · exact h.weight cls e hold
    · exact h.weight cls e he
  · rw [TrackStore.absorbed, absorb_eq]
    rfl

theorem EvidenceTallied.blank (d : Detection) (seen : GoTime) (n : ℕ) :
    EvidenceTallied cfg [] (blank cfg d seen n) where
  keys _ := iff_of_false (fun ⟨_, he⟩ ↦ by cases he) List.not_mem_nil
  weight _ _ he := by cases he
  confidence := by
    have hraw : (TrackStore.blank cfg d seen n).rawConfidence = 0 := sub_self 1
    rw [hraw, rounded_zero]
    rfl

theorem evidence_tallied : DocumentRule cfg (EvidenceTallied cfg) where
  blank := .blank cfg
  absorbed _ _ d now terrain h := h.absorbed d _ now terrain
  serial _ _ _ h := { h with }
  state _ _ _ h := { h with }
  flag _ _ _ h := { h with }

/-! ## The confidence -/

variable {cfg} in
theorem EvidenceTallied.rawConfidence_eq {ds : List Detection} {t : Track}
    (h : EvidenceTallied cfg ds t) : t.rawConfidence = noisyOr cfg.weights (classes ds) := by
  have hweights : t.evidence.values.map (fun e ↦ 1 - e.weight) =
      t.evidence.keys.map fun cls ↦ 1 - cfg.weights cls :=
    GoMap.map_values fun cls e he ↦ by rw [h.weight cls e he]
  rw [rawConfidence, hweights]
  exact NoisyOr.eq_of_list t.evidence.keys_nodup fun cls ↦ GoMap.mem_keys.trans (h.keys cls)

/-- A call gives a track one more detection, or none. -/
theorem classes_subset (tr : List (Machine.Step TrackStore Op)) (x : Machine.Step TrackStore Op)
    (r : Ref) : classes (folded cfg tr r) ⊆ classes (folded cfg (x :: tr) r) := by
  intro cls hcls
  obtain ⟨d, hd, hclass⟩ := List.mem_map.mp (List.mem_toFinset.mp hcls)
  refine List.mem_toFinset.mpr (List.mem_map.mpr ⟨d, ?_, hclass⟩)
  rw [folded, List.filterMap_cons]
  split
  · exact hd
  · exact List.mem_cons_of_mem _ hd

/-- What is said of the confidence of a track that these detections have been folded into. -/
structure ConfidenceOf (ds : List Detection) (t : Track) : Prop where
  eq : t.rawConfidence = noisyOr cfg.weights (classes ds)
  rounded : t.confidence = rounded t.rawConfidence
  nonneg : 0 ≤ t.rawConfidence
  le_one : t.rawConfidence ≤ 1

/-- **Confidence is noisy-OR over the classes that were seen.**  It is between 0 and 1, no call
lowers it, and it is the same for tracks that were given detections of the same classes: in any
order, any number of times, and from any receivers. -/
theorem confidence_noisyOr (hw : ∀ cls, 0 ≤ cfg.weights cls ∧ cfg.weights cls ≤ 1)
    {tr : List (Machine.Step TrackStore Op)} {σ : TrackStore} (h : (storeMachine cfg).Run tr σ)
    {r : Ref} (hr : r < σ.next) :
    ConfidenceOf cfg (folded cfg tr r) (σ.heap r) ∧
      (∀ op : Op, op.Ok σ → (σ.heap r).rawConfidence ≤ ((op.apply cfg σ).heap r).rawConfidence) ∧
      ∀ tr' σ' r', (storeMachine cfg).Run tr' σ' → r' < σ'.next →
        (∀ cls, (∃ d ∈ folded cfg tr r, d.detectionClass = cls) ↔
          ∃ d ∈ folded cfg tr' r', d.detectionClass = cls) →
        (σ'.heap r').rawConfidence = (σ.heap r).rawConfidence := by
  have htallied := (evidence_tallied cfg).run h r hr
  have heq := htallied.rawConfidence_eq
  refine ⟨⟨heq, htallied.confidence, heq ▸ NoisyOr.nonneg hw _, heq ▸ NoisyOr.le_one hw _⟩,
    fun op hok ↦ ?_, fun tr' σ' r' h' hr' hclasses ↦ ?_⟩
  · have hnext := h.step op _ ⟨hok, rfl⟩
    have hr' : r < (op.apply cfg σ).next :=
      hr.trans_le ((wellIndexed_of_run cfg h).track_lt_next cfg op).1
    rw [heq, ((evidence_tallied cfg).run hnext r hr').rawConfidence_eq]
    exact NoisyOr.mono hw (classes_subset cfg tr _ r)
  · have hsame : classes (folded cfg tr' r') = classes (folded cfg tr r) := by
      ext cls
      simp only [classes, List.mem_toFinset, List.mem_map]
      exact (hclasses cls).symm
    rw [heq, ((evidence_tallied cfg).run h' r' hr').rawConfidence_eq, hsame]

theorem defaultWeights_le_one (cls : String) :
    0 ≤ defaultWeights cls ∧ defaultWeights cls ≤ 1 := by
  unfold defaultWeights
  split <;> decide +kernel

/-- Remote ID and a control link, heard twice. -/
theorem takeOff_confidence :
    let ops := takeOff "S" "m" ++ [.ingestAt 5 { heard "S" "m" 5 with detectionClass := "E" }]
    let tr := stepsOf defaultConfig ops
    let σ := after defaultConfig ops
    ConfidenceOf defaultConfig (folded defaultConfig tr 0) (σ.heap 0) ∧
      (σ.heap 0).rawConfidence = 72 / 100 := by
  intro ops tr σ
  have h := (confidence_noisyOr defaultConfig defaultWeights_le_one
    (run_after (by decide) : (storeMachine defaultConfig).Run tr σ)
    (by decide +kernel : 0 < σ.next)).1
  exact ⟨h, by decide +kernel⟩

end ClassG.Fusion
