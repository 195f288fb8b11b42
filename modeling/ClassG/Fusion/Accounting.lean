import Mathlib.Algebra.BigOperators.Group.Finset.Basic
import ClassG.Fusion.History

/-!
# Detection accounting

A track keeps four accounts of the same detections: how many there were, how many of each class,
how many from each radio and the strongest signal, over all and per radio.  `Accounted` says that
they agree with the list of detections and so with each other.  It is a `DocumentRule`: creation,
promotion from MAC to serial, rejoining and reopening never touch the accounts, and folding a
detection in moves all of them by the same step.
-/

set_option autoImplicit false

namespace ClassG.Fusion

open TrackStore

variable (cfg : Config)

/-! ## Peaks -/

/-- `o` is the strongest of the readings, absent when there is none. -/
def IsPeak (o : Option ℚ) (readings : List (Option ℚ)) : Prop :=
  (∀ v, o = some v → some v ∈ readings) ∧ ∀ w, some w ∈ readings → ∃ v, o = some v ∧ w ≤ v

theorem isPeak_nil : IsPeak none [] := ⟨by simp, by simp⟩

theorem raisePeak_eq_some {peak reading : Option ℚ} {v : ℚ}
    (h : Track.raisePeak peak reading = some v) : peak = some v ∨ reading = some v := by
  cases reading with
  | none => exact .inl h
  | some x =>
    cases peak with
    | none => exact .inr h
    | some p =>
      simp only [Track.raisePeak] at h
      split at h
      · exact .inr h
      · exact .inl h

theorem le_raisePeak {peak reading : Option ℚ} {w : ℚ} (h : peak = some w ∨ reading = some w) :
    ∃ v, Track.raisePeak peak reading = some v ∧ w ≤ v := by
  cases reading with
  | none => exact ⟨w, by simpa [Track.raisePeak] using h, le_rfl⟩
  | some x =>
    cases peak with
    | none => exact ⟨w, by simpa [Track.raisePeak] using h, le_rfl⟩
    | some p =>
      simp only [Track.raisePeak, Option.some_inj] at h ⊢
      by_cases hpx : p < x
      · exact ⟨x, by rw [if_pos hpx], by rcases h with rfl | rfl; exacts [hpx.le, le_rfl]⟩
      · exact ⟨p, by rw [if_neg hpx], by rcases h with rfl | rfl; exacts [le_rfl, not_lt.mp hpx]⟩

/-- Raising the peak and one of the readings alike leaves it the peak. -/
theorem IsPeak.raise {o e : Option ℚ} {rest : List (Option ℚ)} (h : IsPeak o (e :: rest))
    (reading : Option ℚ) :
    IsPeak (Track.raisePeak o reading) (Track.raisePeak e reading :: rest) := by
  constructor
  · intro v hv
    rcases raisePeak_eq_some hv with ho | rfl
    · rcases List.mem_cons.mp (h.1 v ho) with he | hrest
      · rw [← ho.trans he, hv]
        exact List.mem_cons_self
      · exact List.mem_cons_of_mem _ hrest
    · -- the new reading is the peak, so no older one is stronger and it replaces the entry too
      cases he : e with
      | none => exact List.mem_cons_self
      | some w =>
        obtain ⟨p, hp, hwp⟩ := h.2 w (he ▸ List.mem_cons_self)
        rw [hp] at hv
        simp only [Track.raisePeak] at hv ⊢
        by_cases hpv : p < v
        · rw [if_pos (hwp.trans_lt hpv)]
          exact List.mem_cons_self
        · rw [if_neg hpv, Option.some_inj] at hv
          subst hv
          rcases List.mem_cons.mp (h.1 p hp) with hpe | hrest
          · rw [he, Option.some_inj] at hpe
            rw [← hpe, if_neg (lt_irrefl p)]
            exact List.mem_cons_self
          · exact List.mem_cons_of_mem _ hrest
  · intro w hw
    have hold : ∀ u, o = some u → w ≤ u → ∃ v, Track.raisePeak o reading = some v ∧ w ≤ v :=
      fun u hu hwu ↦ by
        obtain ⟨v, hv, huv⟩ := le_raisePeak (.inl hu)
        exact ⟨v, hv, hwu.trans huv⟩
    rcases List.mem_cons.mp hw with he | hrest
    · rcases raisePeak_eq_some he.symm with he | hr
      · obtain ⟨u, hu, hwu⟩ := h.2 w (he ▸ List.mem_cons_self)
        exact hold u hu hwu
      · exact le_raisePeak (.inr hr)
    · obtain ⟨u, hu, hwu⟩ := h.2 w (List.mem_cons_of_mem _ hrest)
      exact hold u hu hwu

theorem isPeak_cons_none {o : Option ℚ} {l : List (Option ℚ)} :
    IsPeak o (none :: l) ↔ IsPeak o l := by
  simp [IsPeak]

theorem IsPeak.perm {o : Option ℚ} {l l' : List (Option ℚ)} (h : IsPeak o l) (hp : l.Perm l') :
    IsPeak o l' :=
  ⟨fun v hv ↦ hp.mem_iff.mp (h.1 v hv), fun w hw ↦ h.2 w (hp.mem_iff.mpr hw)⟩

/-! ## The accounts of one track -/

/-- The accounts a track keeps of the detections `ds`. -/
structure Accounted (ds : List Detection) (t : Track) : Prop where
  detections : t.detectionCount = ds.length
  evidence : t.evidence.sumOf (·.count) = ds.length
  receivers : t.receivers.sumOf (·.detectionCount) = ds.length
  macs : t.identity.macs.Nodup
  peak : IsPeak t.rssidBm (ds.map (·.rf.rssidBm))
  receiverPeaks : IsPeak t.rssidBm (t.receivers.values.map (·.rssidBm))

namespace Accounted

variable {ds : List Detection} {t : Track}

theorem blank (d : Detection) (seen : GoTime) (n : ℕ) : Accounted [] (blank cfg d seen n) where
  detections := rfl
  evidence := rfl
  receivers := rfl
  macs := List.nodup_nil
  peak := isPeak_nil
  receiverPeaks := isPeak_nil

/-- Counting a detection under its class adds one to the sum over the classes. -/
theorem sumOf_addEvidence (t : Track) (cls sensorKind : String) (weight : ℚ) (atTime : GoTime) :
    (t.addEvidence cls sensorKind weight atTime).evidence.sumOf (·.count) =
      t.evidence.sumOf (·.count) + 1 := by
  simp only [Track.addEvidence, Track.recomputeConfidence]
  generalize hv : ({ (t.evidence.get cls).getD _ with count := _, lastSeen := _ } : Evidence) = v
  have h := t.evidence.sumOf_put cls v (·.count)
  subst hv
  cases hg : t.evidence.get cls with
  | none => simpa [hg] using h
  | some e => simp only [hg, Option.map_some, Option.getD_some] at h ⊢; omega

/-- The entry a radio's reading goes to, before and after. -/
theorem noteReceiver_cases (t : Track) {d : Detection} (hd : d.sensorID ≠ "") :
    ∃ r r' : Receiver, (t.noteReceiver d).receivers = t.receivers.put d.sensorID r' ∧
      r'.detectionCount = r.detectionCount + 1 ∧
      r'.rssidBm = Track.raisePeak r.rssidBm d.rf.rssidBm ∧
      (t.receivers.get d.sensorID = some r ∨
        t.receivers.get d.sensorID = none ∧ r.detectionCount = 0 ∧ r.rssidBm = none) := by
  unfold Track.noteReceiver
  rw [if_neg hd]
  cases hg : t.receivers.get d.sensorID with
  | none => exact ⟨_, _, rfl, rfl, rfl, .inr ⟨rfl, rfl, rfl⟩⟩
  | some r => exact ⟨r, _, rfl, rfl, rfl, .inl rfl⟩

/-- Counting a detection under its radio adds one to the sum over the radios. -/
theorem sumOf_noteReceiver (t : Track) {d : Detection} (hd : d.sensorID ≠ "") :
    (t.noteReceiver d).receivers.sumOf (·.detectionCount) =
      t.receivers.sumOf (·.detectionCount) + 1 := by
  obtain ⟨r, r', hput, hcount, -, hg | ⟨hg, h0, -⟩⟩ := noteReceiver_cases t hd
  all_goals
    have h := t.receivers.sumOf_put d.sensorID r' (·.detectionCount)
    rw [hput]
    simp only [hg, Option.map_some, Option.map_none, Option.getD_some, Option.getD_none] at h
    omega

/-- A reading raises the peak of its radio and the peak of the track alike. -/
theorem isPeak_noteReceiver {t : Track} {d : Detection} {o : Option ℚ} (hd : d.sensorID ≠ "")
    (h : IsPeak o (t.receivers.values.map (·.rssidBm))) :
    IsPeak (Track.raisePeak o d.rf.rssidBm)
      ((t.noteReceiver d).receivers.values.map (·.rssidBm)) := by
  obtain ⟨r, r', hput, -, hpeak, hg | ⟨hg, -, h0⟩⟩ := noteReceiver_cases t hd
  · obtain ⟨rest, hperm, hvalues⟩ := GoMap.values_put_of_get_some r' hg
    rw [hput, hvalues, List.map_cons, hpeak]
    exact (h.perm (hperm.map _)).raise _
  · rw [hput, GoMap.values_put_of_get_none r' hg, List.map_cons, hpeak, h0]
    exact (isPeak_cons_none.mpr h).raise _

theorem absorbed {d : Detection} (h : Accounted ds t) (hd : d.sensorID ≠ "") (seen now : GoTime)
    (terrain : TerrainResolver) : Accounted (d :: ds) (absorbed cfg d seen now terrain t) where
  detections := by
    rw [TrackStore.absorbed, Track.absorb_detectionCount, h.detections, List.length_cons]
  evidence := by
    rw [TrackStore.absorbed, Track.absorb_evidence, sumOf_addEvidence, h.evidence,
      List.length_cons]
  receivers := by
    rw [TrackStore.absorbed, Track.absorb_receivers, sumOf_noteReceiver t hd, h.receivers,
      List.length_cons]
  macs := by
    rw [TrackStore.absorbed, Track.absorb_identity, Identity.learn]
    dsimp only
    split
    · rename_i hm
      rw [← List.concat_eq_append]
      exact h.macs.concat hm.2
    · exact h.macs
  peak := by
    rw [TrackStore.absorbed, Track.absorb_rssidBm, List.map_cons]
    have hraise := (isPeak_cons_none.mpr h.peak).raise d.rf.rssidBm
    cases hr : d.rf.rssidBm <;> rwa [hr] at hraise
  receiverPeaks := by
    rw [TrackStore.absorbed, Track.absorb_rssidBm, Track.absorb_receivers]
    exact isPeak_noteReceiver hd h.receiverPeaks

/-- The accounts are a rule for documents whose detections all say which radio heard them. -/
theorem rule : DocumentRule cfg fun ds t ↦ (∀ d ∈ ds, d.sensorID ≠ "") → Accounted ds t where
  blank d seen n _ := blank cfg d seen n
  absorbed ds t d now terrain h hds := by
    rw [List.forall_mem_cons] at hds
    exact (h hds.2).absorbed cfg hds.1 _ _ _
  serial ds t s h hds := { h hds with }
  state ds t s h hds := { h hds with }
  flag ds t b h hds := { h hds with }

end Accounted

/-! ## The accounts of a run -/

/-- The detections of a run that were folded into some track, latest first. -/
def returned (tr : List (Machine.Step TrackStore Op)) : List Detection :=
  tr.filterMap fun x ↦ if (x.act.track cfg x.pre).isSome then x.act.detection else none

/-- A call adds its detection to the list of the track it returns and to no other. -/
theorem length_folded_cons (tr : List (Machine.Step TrackStore Op)) (σ σ' : TrackStore) (op : Op)
    (r : Ref) :
    (folded cfg (⟨σ, op, σ'⟩ :: tr) r).length =
      (folded cfg tr r).length + if op.track cfg σ = some r then 1 else 0 := by
  cases op with
  | ingest d now terrain => rw [folded_ingest, Op.track]; split <;> rfl
  | reap now order => rfl
  | correlateContacts contacts => rfl

theorem length_returned_cons (tr : List (Machine.Step TrackStore Op)) (σ σ' : TrackStore)
    (op : Op) :
    (returned cfg (⟨σ, op, σ'⟩ :: tr)).length =
      (returned cfg tr).length + if (op.track cfg σ).isSome then 1 else 0 := by
  cases op with
  | ingest d now terrain =>
    rw [returned, List.filterMap_cons, ← returned]
    cases h : (Op.ingest d now terrain).track cfg σ <;> simp [Op.detection]
  | reap now order => rfl
  | correlateContacts contacts => rfl

/-- **Every detection for which `Ingest` returns a track is counted once.**  The lists of all
tracks together are as long as the list of the run. -/
theorem sum_folded {tr : List (Machine.Step TrackStore Op)} {σ : TrackStore}
    (h : (storeMachine cfg).Run tr σ) :
    ∑ r ∈ Finset.range σ.next, (folded cfg tr r).length = (returned cfg tr).length := by
  refine h.trace_invariant_of (C := fun _ _ ↦ True)
    (I := fun tr s ↦
      ∑ r ∈ Finset.range s.next, (folded cfg tr r).length = (returned cfg tr).length)
    (fun _ _ ↦ trivial) ?_ ?_
  · rintro s rfl; rfl
  · rintro tr' s op s' hr ih - ⟨-, rfl⟩
    obtain ⟨hle, hlt⟩ := (wellIndexed_of_run cfg hr).track_lt_next cfg op
    have hold : ∑ r ∈ Finset.range (op.apply cfg s).next, (folded cfg tr' r).length =
        (returned cfg tr').length := by
      rw [← ih]
      refine (Finset.sum_subset (Finset.range_mono hle) fun r _ hr' ↦ ?_).symm
      rw [folded_of_next_le cfg hr (not_lt.mp fun h ↦ hr' (Finset.mem_range.mpr h)), List.length_nil]
    simp only [length_folded_cons, length_returned_cons, Finset.sum_add_distrib, hold]
    cases ht : op.track cfg s with
    | none => simp
    | some t =>
      rw [Finset.sum_eq_single t (fun r _ hr ↦ if_neg fun h ↦ hr (Option.some_inj.mp h).symm)
        fun hn ↦ absurd (Finset.mem_range.mpr (hlt t ht)) hn, if_pos rfl]
      rfl

/-- **Detection accounting.**  In a run whose detections all carry a sensor id, every detection
`Ingest` returns a track for is counted in that track and no other, and the accounts of every
track ever made agree with the detections folded into it. -/
theorem detections_accounted {tr : List (Machine.Step TrackStore Op)} {σ : TrackStore}
    (h : (storeMachine cfg).Run tr σ)
    (hid : ∀ x ∈ tr, ∀ d, x.act.detection = some d → d.sensorID ≠ "") :
    (∀ r < σ.next, Accounted (folded cfg tr r) (σ.heap r)) ∧
      ∑ r ∈ Finset.range σ.next, (σ.heap r).detectionCount = (returned cfg tr).length := by
  have hacc : ∀ r < σ.next, Accounted (folded cfg tr r) (σ.heap r) := fun r hr ↦
    (Accounted.rule cfg).run h r hr fun d hd ↦ by
      obtain ⟨x, hx, hdx⟩ := exists_of_mem_folded cfg hd
      exact hid x hx d hdx
  refine ⟨hacc, ?_⟩
  rw [← sum_folded cfg h]
  exact Finset.sum_congr rfl fun r hr ↦ (hacc r (Finset.mem_range.mp hr)).detections

/-- A MAC heard by one radio and promoted to a serial heard by another. -/
def promotion : List Op :=
  [.ingestAt 1 { heard "" "m" 1 with rf := { rssidBm := some (-60) } },
    .ingestAt 2 { heard "S" "m" 2 with sensorID := "wifi-1", rf := { rssidBm := some (-50) } },
    .reapAt 3 [0]]

theorem promotion_accounted :
    (∀ r < (after defaultConfig promotion).next,
      Accounted (folded defaultConfig (stepsOf defaultConfig promotion) r)
        ((after defaultConfig promotion).heap r)) ∧
      ∑ r ∈ Finset.range (after defaultConfig promotion).next,
        ((after defaultConfig promotion).heap r).detectionCount =
          (returned defaultConfig (stepsOf defaultConfig promotion)).length :=
  detections_accounted defaultConfig (run_after (by decide)) (by decide)

end ClassG.Fusion
