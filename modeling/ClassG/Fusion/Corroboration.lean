import ClassG.Fusion.History

/-!
# What it takes to be shown as an aircraft

The confirmation test stands in one branch of `updateState`, and two others lead to a shown track
without it: a `COASTING` track that is heard again is `CONFIRMED`, and `reopen` makes a closed
flight `COASTING`.  The test still holds whenever a track is shown, because what it asks for can
only grow: evidence is never withdrawn, the count and `LastSeen` never go back, and `FirstSeen`
never moves.  A track that has once passed has passed for good, and only tracks that have passed
are remembered (`Corroborated`).
-/

set_option autoImplicit false

namespace ClassG.Fusion

open TrackStore Track

variable (cfg : Config)

/-! ## The test is passed for good -/

section qualified

variable {lc : Lifecycle} {t : Track}

/-- The test reads the evidence, the count and the two ends of the flight. -/
theorem Track.Qualified.of_le {t' : Track} (h : t.Qualified lc)
    (he : ∀ cls e, t.evidence.get cls = some e → ∃ e', t'.evidence.get cls = some e')
    (hd : t.detectionCount ≤ t'.detectionCount) (hl : t.lastSeen ≤ t'.lastSeen)
    (hf : t'.firstSeen = t.firstSeen) : t'.Qualified lc where
  identified := by
    obtain ⟨cls, e, hcls, hc⟩ := identified_iff.mp h.identified
    obtain ⟨e', he'⟩ := he cls e hcls
    exact identified_iff.mpr ⟨cls, e', he', hc⟩
  detections := h.detections.trans (by exact_mod_cast hd)
  span := by
    rw [hf]
    exact h.span.trans (GoTime.sub_le_sub_right hl _)

theorem evidence_addEvidence (t : Track) (cls sensorKind : String) (weight : ℚ) (atTime : GoTime)
    (k : String) :
    (∃ e, (t.addEvidence cls sensorKind weight atTime).evidence.get k = some e) ↔
      k = cls ∨ ∃ e, t.evidence.get k = some e := by
  simp only [addEvidence, recomputeConfidence, GoMap.get_put]
  by_cases hk : k = cls <;> simp [hk]

variable (d : Detection) (seen now : GoTime) (terrain : TerrainResolver)

theorem Track.Qualified.absorbed (h : t.Qualified lc) :
    (absorbed cfg d seen now terrain t).Qualified lc := by
  refine h.of_le (fun cls e he ↦ ?_) ?_ ?_ (absorb_firstSeen ..)
  · rw [TrackStore.absorbed, absorb_evidence]
    exact (evidence_addEvidence ..).mpr (.inr ⟨e, he⟩)
  · rw [TrackStore.absorbed, absorb_detectionCount]
    exact Nat.le_succ _
  · rw [TrackStore.absorbed, absorb_lastSeen]
    exact le_max_left ..

/-- A track that folding a detection in leaves shown was shown before or passes the test. -/
theorem shown_of_absorbed (h : Shown (absorbed cfg d seen now terrain t)) :
    Shown t ∨ (absorbed cfg d seen now terrain t).Qualified cfg.lifecycle := by
  rw [Shown, absorbed, absorb_state] at h
  have hcount := count_eq t d seen (cfg.weights d.detectionClass)
  rcases shown_of_nextState h.symm with hs | hs | hq
  · rw [hcount] at hs; exact .inl (.inr hs)
  · rw [hcount] at hs; exact .inl (.inl hs)
  · refine .inr (hq.of_le (fun cls e he ↦ ⟨e, ?_⟩) (le_of_eq ?_) (le_of_eq ?_) ?_)
    · rw [hcount] at he
      rw [absorbed, absorb_evidence]
      exact he
    · rw [hcount, absorbed, absorb_detectionCount]
    · rw [hcount, absorbed, absorb_lastSeen]
    · rw [hcount, absorbed, absorb_firstSeen]

end qualified

namespace TrackStore

/-- A closed flight that can still be found. -/
def Recalls (σ : TrackStore) (r : Ref) : Prop :=
  (∃ k, σ.closedBySerial.get k = some r) ∨ ∃ k, σ.closedByMAC.get k = some r

theorem recalls_of_resolveClosed {σ : TrackStore} {serial mac : String} {c : Ref}
    (h : σ.resolveClosed serial mac = some c) : σ.Recalls c := by
  rcases Option.or_eq_some_iff.mp h with hs | ⟨-, hm⟩
  · exact .inl ⟨_, (find_eq_some.mp hs).2⟩
  · exact .inr ⟨_, (find_eq_some.mp hm).2⟩

/-- Every track that is shown, and every flight that can be reopened, has passed the test. -/
structure Corroborated (σ : TrackStore) : Prop where
  shown : ∀ r, Shown (σ.heap r) → (σ.heap r).Qualified cfg.lifecycle
  recalled : ∀ r, σ.Recalls r → (σ.heap r).Qualified cfg.lifecycle

namespace Corroborated

variable {cfg} {σ : TrackStore}

theorem init : Corroborated cfg {} where
  shown r h := by rcases h with h | h <;> cases h
  recalled r h := by rcases h with ⟨k, h⟩ | ⟨k, h⟩ <;> cases h

/-- A change that touches neither states nor evidence, and brings no flight back, keeps it. -/
theorem mono {σ' : TrackStore} (h : Corroborated cfg σ)
    (hheap : ∀ r, ((σ.heap r).Qualified cfg.lifecycle → (σ'.heap r).Qualified cfg.lifecycle) ∧
      (σ'.heap r).state = (σ.heap r).state)
    (hrecalls : ∀ r, σ'.Recalls r → σ.Recalls r) : Corroborated cfg σ' := by
  refine ⟨fun r hr ↦ (hheap r).1 (h.shown r ?_), fun r hr ↦
    (hheap r).1 (h.recalled r (hrecalls r hr))⟩
  rwa [Shown, (hheap r).2] at hr

theorem settled (h : Corroborated cfg σ) (d : Detection) (seen : GoTime) :
    Corroborated cfg (σ.settled cfg d seen) := by
  refine h.mono (fun r ↦ ?_) fun r hr ↦ ?_
  · rw [settled_heap]; split
    · exact ⟨fun hq ↦ ⟨hq.1, hq.2, hq.3⟩, rfl⟩
    · exact ⟨id, rfl⟩
  · rwa [Recalls, settled_closedBySerial, settled_closedByMAC] at hr

theorem reopen (h : Corroborated cfg σ) {c : Ref} (hc : σ.Recalls c) :
    Corroborated cfg (σ.reopen c) := by
  have hq : ∀ r, (σ.heap r).Qualified cfg.lifecycle →
      ((σ.reopen c).heap r).Qualified cfg.lifecycle := fun r hr ↦ by
    by_cases hrc : r = c
    · subst hrc
      rw [reopen_heap, Function.update_self]
      exact ⟨hr.1, hr.2, hr.3⟩
    · simpa [hrc] using hr
  refine ⟨fun r hr ↦ hq r ?_, fun r hr ↦ hq r (h.recalled r ?_)⟩
  · by_cases hrc : r = c
    · exact hrc ▸ h.recalled c hc
    · rw [reopen_heap, Function.update_of_ne hrc] at hr
      exact h.shown r hr
  · refine hr.imp (fun ⟨k, hk⟩ ↦ ⟨k, ?_⟩) fun ⟨k, hk⟩ ↦ ⟨k, ?_⟩
    · rw [reopen_closedBySerial, forget_closedBySerial] at hk
      split at hk
      · cases hk
      · exact hk
    · rw [reopen_closedByMAC, forget_closedByMAC] at hk
      split at hk
      · cases hk
      · exact hk

theorem mint (h : Corroborated cfg σ) (hnew : ¬ σ.Recalls σ.next) (d : Detection) (seen : GoTime) :
    Corroborated cfg (σ.mint cfg d seen) := by
  refine ⟨fun r hr ↦ ?_, fun r hr ↦ ?_⟩
  · by_cases hrn : r = σ.next
    · subst hrn
      rw [mint_heap, Function.update_self] at hr
      rcases hr with hr | hr <;> cases hr
    · rw [mint_heap, Function.update_of_ne hrn] at hr ⊢
      exact h.shown r hr
  · have hrn : r ≠ σ.next := by rintro rfl; exact hnew hr
    rw [mint_heap, Function.update_of_ne hrn]
    exact h.recalled r hr

theorem foldIn (h : Corroborated cfg σ) (t : Ref) (d : Detection) (seen now : GoTime)
    (terrain : TerrainResolver) : Corroborated cfg (σ.foldIn cfg t d seen now terrain) := by
  refine ⟨fun r hr ↦ ?_, fun r hr ↦ ?_⟩ <;> by_cases hrt : r = t
  · subst hrt
    rw [foldIn_heap, Function.update_self] at hr ⊢
    rcases shown_of_absorbed cfg d seen now terrain hr with hs | hq
    · exact (h.shown r hs).absorbed ..
    · exact hq
  · rw [foldIn_heap, Function.update_of_ne hrt] at hr ⊢
    exact h.shown r hr
  · subst hrt
    rw [foldIn_heap, Function.update_self]
    exact (h.recalled r hr).absorbed ..
  · rw [foldIn_heap, Function.update_of_ne hrt]
    exact h.recalled r hr

theorem ingest (h : Corroborated cfg σ) (hσ : WellIndexed σ "") (d : Detection) (now : GoTime)
    (terrain : TerrainResolver) : Corroborated cfg (σ.ingest cfg d now terrain).1 := by
  have hs := h.settled d (d.seen now)
  refine ingest_elim cfg σ d now terrain (P := fun s _ ↦ Corroborated cfg s)
    (fun _ ↦ h) (fun _ r _ ↦ hs.foldIn ..) (fun _ c _ hc ↦ (hs.reopen ?_).foldIn ..)
    fun _ _ _ ↦ (hs.mint ?_ d _).foldIn ..
  · have hrc := recalls_of_resolveClosed ((rejoins_eq_some cfg σ d _).mp hc).1
    rwa [Recalls, settled_closedBySerial, settled_closedByMAC]
  · rw [Recalls, settled_closedBySerial, settled_closedByMAC, settled_next]
    rintro (⟨k, hk⟩ | ⟨k, hk⟩)
    · exact (hσ.closedBySerial _ _ hk).1.2.1.false
    · exact (hσ.closedByMAC _ _ hk).1.2.1.false

theorem reap (h : Corroborated cfg σ) (hσ : WellIndexed σ "") {now : GoTime} {order : List Ref}
    (hok : order.Perm σ.all) : Corroborated cfg (σ.reap cfg now order).1 := by
  have hq : ∀ r, (σ.heap r).Qualified cfg.lifecycle →
      ((σ.reap cfg now order).1.heap r).Qualified cfg.lifecycle := fun r hr ↦ by
    rw [reap_heap cfg hok hσ.nodup]; split
    · exact ⟨hr.1, hr.2, hr.3⟩
    · exact hr
  refine ⟨fun r hr ↦ hq r ?_, fun r hr ↦ hq r ?_⟩
  · rw [reap_heap cfg hok hσ.nodup] at hr
    split at hr
    · rcases shown_of_nextState hr.symm with hs | hs | hq'
      · exact h.shown r (.inr hs)
      · exact h.shown r (.inl hs)
      · exact hq'
    · exact h.shown r hr
  · rcases hr with ⟨k, hk⟩ | ⟨k, hk⟩
    · rw [reap_closedBySerial cfg hok hσ.nodup] at hk
      rcases Option.or_eq_some_iff.mp (Option.filter_eq_some_iff.mp hk).1 with hl | ⟨-, ho⟩
      · have hr := (List.mem_filter.mp (List.mem_of_getLast? hl)).2
        exact h.shown r (of_decide_eq_true hr).1.2.1
      · exact h.recalled r (.inl ⟨k, ho⟩)
    · rw [reap_closedByMAC cfg hok hσ.nodup] at hk
      rcases Option.or_eq_some_iff.mp (Option.filter_eq_some_iff.mp hk).1 with hl | ⟨-, ho⟩
      · have hr := (List.mem_filter.mp (List.mem_of_getLast? hl)).2
        exact h.shown r (of_decide_eq_true hr).1.2.1
      · exact h.recalled r (.inr ⟨k, ho⟩)

theorem correlateContacts (h : Corroborated cfg σ) (hσ : WellIndexed σ "")
    (contacts : List ADSBContact) : Corroborated cfg (σ.correlateContacts cfg contacts).1 := by
  refine h.mono (fun r ↦ ?_) fun r hr ↦ ?_
  · rw [correlateContacts_heap cfg contacts hσ.nodup]; split
    · exact ⟨fun hq ↦ ⟨hq.1, hq.2, hq.3⟩, rfl⟩
    · exact ⟨id, rfl⟩
  · rwa [Recalls, correlateContacts_frame] at hr

end Corroborated

theorem corroborated_of_run {tr : List (Machine.Step TrackStore Op)} {σ : TrackStore}
    (h : (storeMachine cfg).Run tr σ) : Corroborated cfg σ := by
  have hinv := h.invariant (I := fun s ↦ WellIndexed s "" ∧ Corroborated cfg s) ?_ ?_
  · exact hinv.2
  · rintro s rfl; exact ⟨.init, .init⟩
  · rintro s op s' ⟨hw, hc⟩ ⟨hok, rfl⟩
    refine ⟨hw.apply cfg hok, ?_⟩
    cases op with
    | ingest d now terrain => exact hc.ingest hw d now terrain
    | reap now order => exact hc.reap hw hok
    | correlateContacts contacts => exact hc.correlateContacts hw contacts

end TrackStore

/-! ## Corroboration of a run -/

/-- A class of evidence is on a track's record because a detection of that class is. -/
theorem evidence_rule : DocumentRule cfg fun ds t ↦
    ∀ cls, (∃ e, t.evidence.get cls = some e) → ∃ d ∈ ds, d.detectionClass = cls where
  blank d seen n cls := by rintro ⟨e, he⟩; cases he
  absorbed ds t d now terrain h cls hcls := by
    rw [TrackStore.absorbed, absorb_evidence, evidence_addEvidence] at hcls
    rcases hcls with rfl | hcls
    · exact ⟨d, List.mem_cons_self, rfl⟩
    · obtain ⟨d', hd', hc⟩ := h cls hcls
      exact ⟨d', List.mem_cons_of_mem _ hd', hc⟩
  serial _ _ _ h := h
  state _ _ _ h := h
  flag _ _ _ h := h

/-- **Corroboration never makes an identification.**  Whenever a track is `CONFIRMED` or
`COASTING` it passes the confirmation test, and some detection folded into it was of a class that
identifies an aircraft. -/
theorem shown_identified {tr : List (Machine.Step TrackStore Op)} {σ : TrackStore}
    (h : (storeMachine cfg).Run tr σ) {r : Ref} (hr : r < σ.next)
    (hs : (σ.heap r).state = .confirmed ∨ (σ.heap r).state = .coasting) :
    (σ.heap r).Qualified cfg.lifecycle ∧
      ∃ d ∈ folded cfg tr r, corroboratingOnlyClasses d.detectionClass = false := by
  have hq := (corroborated_of_run cfg h).shown r hs.symm
  obtain ⟨cls, e, he, hcls⟩ := identified_iff.mp hq.identified
  obtain ⟨d, hd, rfl⟩ := (evidence_rule cfg).run h r hr cls ⟨e, he⟩
  exact ⟨hq, d, hd, hcls⟩

/-- A flight confirmed, closed out of range and picked up again high over its take-off point. -/
def outOfRange : List Op :=
  takeOff "S" "" ++ [.reapAt 400 [0], .ingestAt 500 ((heard "S" "" 500).above 427)]

theorem reopened_identified :
    ((after defaultConfig outOfRange).heap 0).Qualified defaultConfig.lifecycle ∧
      ∃ d ∈ folded defaultConfig (stepsOf defaultConfig outOfRange) 0,
        corroboratingOnlyClasses d.detectionClass = false :=
  shown_identified defaultConfig (run_after (by decide)) (by decide +kernel) (by decide +kernel)

end ClassG.Fusion
