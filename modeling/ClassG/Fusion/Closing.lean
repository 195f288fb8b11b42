import ClassG.Fusion.Index

/-!
# How a flight ends

A flight is meant to end in one place: `Reap` finds the track silent for `CloseAfter`, reports it
`CLOSED`, takes it out of the store and remembers it for an aircraft coming back into range.
`Ingest` ends with the same `updateState`, though, and a detection that is delivered late enough
leaves its own track `CLOSED` there.  Such a track is still live (`closed_live_of_ingest`), and two
things go wrong with it.

* `updateState` has no branch out of `CLOSED` and only the other resume path goes through
  `reopen`, so a later detection that resumes the track counts in a `CLOSED` one.
  `detection_leaves_open_iff` says that this is the only way a detection ends in a closed track.
* `Reap` reports and remembers what it changes, and it changes nothing about such a track: the
  end of the flight goes by unannounced.  `end_kept_iff` says that this is the only way.
-/

set_option autoImplicit false

namespace ClassG.Fusion.TrackStore

open Track

variable (cfg : Config)

/-! ## States a call can lead to -/

/-- Nothing becomes `TENTATIVE` again. -/
theorem nextState_ne_tentative {t : Track} {now : GoTime} {lc : Lifecycle}
    (h : t.state ≠ .tentative) : t.nextState now lc ≠ .tentative := by
  unfold nextState
  by_cases hclose : lc.closeAfter < GoTime.sub now t.lastSeen
  · simp [hclose]
  · by_cases hcoast : lc.coastAfter < GoTime.sub now t.lastSeen
    · by_cases hs : t.state = .confirmed <;> simp [hclose, hcoast, hs, h]
    · cases hs : t.state with
      | tentative => exact absurd hs h
      | _ => simp [hclose, hcoast]

section absorbed

variable {d : Detection} {seen now : GoTime} {terrain : TerrainResolver} {t : Track}

theorem absorbed_state :
    (absorbed cfg d seen now terrain t).state =
      ({ t with lastSeen := max t.lastSeen seen
                detectionCount := t.detectionCount + 1
                evidence := (absorbed cfg d seen now terrain t).evidence } : Track).nextState
        now cfg.lifecycle := by
  rw [absorbed, absorb_state, absorb_evidence, count_eq]
  rfl

/-- Folding a detection in leaves the track `CLOSED` when it was so before, or when the detection
and everything before it are older than `CloseAfter`. -/
theorem absorbed_state_eq_closed_iff :
    (absorbed cfg d seen now terrain t).state = .closed ↔
      cfg.lifecycle.closeAfter < GoTime.sub now (max t.lastSeen seen) ∨ t.state = .closed := by
  rw [absorbed_state]
  exact nextState_eq_closed_iff

theorem absorbed_state_ne_tentative (h : t.state ≠ .tentative) :
    (absorbed cfg d seen now terrain t).state ≠ .tentative := by
  rw [absorbed_state]
  exact nextState_ne_tentative h

end absorbed

section state

variable {σ : TrackStore} {d : Detection} {seen : GoTime} {r : Ref}

@[simp] theorem settled_state :
    ((σ.settled cfg d seen).heap r).state = (σ.heap r).state := by
  rw [settled_heap]; split <;> rfl

/-- A detection joins a `CLOSED` track only by continuing one. -/
theorem joined_state_eq_closed_iff :
    (σ.joined cfg d seen r).state = .closed ↔
      (σ.continues cfg d seen).isSome ∧ (σ.heap r).state = .closed := by
  unfold joined
  cases σ.continues cfg d seen with
  | some _ => simp
  | none => cases σ.rejoins cfg d seen <;> simp [blank]

/-- A track that was `TENTATIVE` before is the only one that can be `TENTATIVE` after. -/
theorem apply_state_ne_tentative (hσ : WellIndexed σ "") {op : Op} (hok : op.Ok σ)
    (hr : r < σ.next) (h : (σ.heap r).state ≠ .tentative) :
    ((op.apply cfg σ).heap r).state ≠ .tentative := by
  cases op with
  | ingest d now terrain =>
    rw [Op.apply]
    by_cases hi : Ignored d
    · rwa [ingest_of_ignored cfg σ now terrain hi]
    rw [ingest_heap cfg σ now terrain hi]
    split
    · rename_i htrack
      refine absorbed_state_ne_tentative cfg ?_
      unfold joined
      rw [ingest_snd cfg σ now terrain hi, Option.some_inj] at htrack
      cases hc : σ.continues cfg d (d.seen now) with
      | some _ => rwa [settled_state]
      | none =>
        cases hj : σ.rejoins cfg d (d.seen now) with
        | some _ => simp
        | none =>
          rw [hc, hj] at htrack
          exact absurd htrack hr.ne'
    · rwa [settled_state]
  | reap now order =>
    rw [Op.apply, reap_heap cfg hok hσ.nodup]
    split
    · exact nextState_ne_tentative h
    · exact h
  | correlateContacts contacts =>
    rw [Op.apply, correlateContacts_heap cfg contacts hσ.nodup]
    split <;> exact h

/-- The tracks live after a detection are those live before and its own. -/
theorem mem_all_of_ingest {d : Detection} {now : GoTime} {terrain : TerrainResolver}
    (h : r ∈ (σ.ingest cfg d now terrain).1.all) :
    r ∈ σ.all ∨ (σ.ingest cfg d now terrain).2 = some r := by
  revert h
  refine ingest_elim cfg σ d now terrain (P := fun s o ↦ r ∈ s.all → r ∈ σ.all ∨ o = some r)
    (fun _ h ↦ .inl h) ?_ ?_ ?_
  · intro _ t _ h
    exact .inl (by simpa using h)
  · intro _ c _ _ h
    rw [foldIn_all, reopen_all, settled_all, List.mem_insert_iff] at h
    exact h.symm.imp_right fun hr ↦ by rw [hr]
  · intro _ _ _ h
    rw [foldIn_all, mint_all, settled_all, settled_next, List.mem_insert_iff] at h
    exact h.symm.imp_right fun hr ↦ by rw [hr]

end state

/-! ## No detection ends in a closed track -/

/-- A detection no older than `CloseAfter` leaves an existing track it is folded into open. -/
def LeavesOpen (σ : TrackStore) : Op → Prop
  | .ingest d now terrain =>
    GoTime.sub now (d.seen now) ≤ cfg.lifecycle.closeAfter →
      ∀ r ∈ (σ.ingest cfg d now terrain).2, r < σ.next →
        ((σ.ingest cfg d now terrain).1.heap r).state ≠ .closed
  | _ => True

instance (σ : TrackStore) : (op : Op) → Decidable (LeavesOpen cfg σ op)
  | .ingest _ _ _ => inferInstanceAs (Decidable (_ → _))
  | .reap _ _ => .isTrue trivial
  | .correlateContacts _ => .isTrue trivial

/-- The detection, no older than `CloseAfter`, finds a live track that is `CLOSED` already and
resumes it. -/
def ResumesClosed (σ : TrackStore) : Op → Prop
  | .ingest d now _ =>
    ¬ Ignored d ∧ GoTime.sub now (d.seen now) ≤ cfg.lifecycle.closeAfter ∧
      ∃ r ∈ σ.found d.identity.serial d.identity.mac,
        (σ.heap r).state = .closed ∧ resumes cfg (σ.heap r) d (d.seen now) = true
  | _ => False

theorem leavesOpen_iff {σ : TrackStore} (hσ : WellIndexed σ "") (op : Op) :
    LeavesOpen cfg σ op ↔ ¬ ResumesClosed cfg σ op := by
  cases op with
  | reap now order => exact ⟨fun _ h ↦ h, fun _ ↦ trivial⟩
  | correlateContacts contacts => exact ⟨fun _ h ↦ h, fun _ ↦ trivial⟩
  | ingest d now terrain =>
    constructor
    · rintro hopen ⟨hi, hle, r, hf, hclosed, hres⟩
      have hc : σ.continues cfg d (d.seen now) = some r :=
        (continues_eq_some cfg σ d _).mpr ⟨hf, fun hfin ↦ hfin.2 hres⟩
      have htrack : (σ.ingest cfg d now terrain).2 = some r := by
        rw [ingest_snd cfg σ now terrain hi, hc]; rfl
      refine hopen hle r htrack (hσ.lt_next r (hσ.found_mem hf)) ?_
      rw [ingest_heap cfg σ now terrain hi, if_pos htrack, absorbed_state_eq_closed_iff]
      exact .inr ((joined_state_eq_closed_iff cfg).mpr ⟨by rw [hc]; rfl, hclosed⟩)
    · intro hnot hle r htrack hr hclosed
      rw [Option.mem_def] at htrack
      have hi := not_ignored_of_ingest htrack
      rw [ingest_heap cfg σ now terrain hi, if_pos htrack, absorbed_state_eq_closed_iff] at hclosed
      rcases hclosed with hlate | hjoined
      · -- the track was seen no longer ago than the detection
        exact absurd (hlate.trans_le (GoTime.sub_le_sub_left (le_max_right _ _) now))
          (not_lt.mpr hle)
      · obtain ⟨hc, hclosed⟩ := (joined_state_eq_closed_iff cfg).mp hjoined
        obtain ⟨t, ht⟩ := Option.isSome_iff_exists.mp hc
        have htr : t = r := by
          rw [ingest_snd cfg σ now terrain hi, ht] at htrack
          exact Option.some_inj.mp htrack
        subst htr
        obtain ⟨hf, hfin⟩ := (continues_eq_some cfg σ d _).mp ht
        exact hnot ⟨hi, hle, t, hf, hclosed, not_not.mp fun hres ↦ hfin ⟨.inl hclosed, hres⟩⟩

/-- **A detection ends in a closed track only by resuming one.**  At every step of every run, a
detection that is not itself older than `CloseAfter` leaves the track it continues or rejoins
open, unless it resumes a live track that is `CLOSED` already. -/
theorem detection_leaves_open_iff {tr : List (Machine.Step TrackStore Op)} {σ : TrackStore}
    (h : (storeMachine cfg).Run tr σ) :
    ∀ x ∈ tr, LeavesOpen cfg x.pre x.act ↔ ¬ ResumesClosed cfg x.pre x.act := by
  intro x hx
  obtain ⟨tr', -, hpre, -, -⟩ := h.of_mem hx
  exact leavesOpen_iff cfg (wellIndexed_of_run cfg hpre) x.act

/-- A confirmed flight, and a detection of it delivered five minutes late. -/
def lateDelivery : List Op :=
  takeOff "S" "" ++ [.ingest (heard "S" "" 5) (clock 310) fun _ _ _ ↦ none]

theorem lateDelivery_leaves_open :
    (storeMachine defaultConfig).Run (stepsOf defaultConfig lateDelivery)
        (after defaultConfig lateDelivery) ∧
      ∀ x ∈ stepsOf defaultConfig lateDelivery,
        LeavesOpen defaultConfig x.pre x.act ↔ ¬ ResumesClosed defaultConfig x.pre x.act :=
  ⟨run_after (by decide),
    detection_leaves_open_iff defaultConfig (run_after (by decide))⟩

/-- **A track left `CLOSED` by a late detection takes the next one and stays `CLOSED`.** -/
theorem closed_track_resumed :
    let ops := lateDelivery ++ [.ingestAt 311 ((heard "S" "" 311).above 427)]
    (storeMachine defaultConfig).Run (stepsOf defaultConfig ops) (after defaultConfig ops) ∧
      Ascending (stepsOf defaultConfig ops) ∧
      ¬ ∀ x ∈ stepsOf defaultConfig ops, LeavesOpen defaultConfig x.pre x.act :=
  ⟨run_after (by decide), by decide, by decide +kernel⟩

/-- The detection, counted in the track, still leaves it silent for longer than `CloseAfter`. -/
def LateFor (x : Machine.Step TrackStore Op) (r : Ref) : Prop :=
  ∃ d now terrain, x.act = .ingest d now terrain ∧ x.act.track cfg x.pre = some r ∧
    cfg.lifecycle.closeAfter < GoTime.sub now (x.post.heap r).lastSeen

/-- **A live track is `CLOSED` only because a late detection left it so.** -/
theorem closed_live_of_ingest {tr : List (Machine.Step TrackStore Op)} {σ : TrackStore}
    (h : (storeMachine cfg).Run tr σ) {r : Ref} (hr : r ∈ σ.all)
    (hclosed : (σ.heap r).state = .closed) : ∃ x ∈ tr, LateFor cfg x r := by
  suffices hall : ∀ r ∈ σ.all, (σ.heap r).state = .closed → ∃ x ∈ tr, LateFor cfg x r from
    hall r hr hclosed
  refine h.trace_invariant_of (C := fun _ _ ↦ True)
    (I := fun tr s ↦ ∀ r ∈ s.all, (s.heap r).state = .closed → ∃ x ∈ tr, LateFor cfg x r)
    (fun _ _ ↦ trivial) ?_ ?_
  · rintro s rfl r hr
    cases hr
  · rintro tr' s op s' hrun ih - ⟨hok, rfl⟩ r hr hclosed
    have hs := wellIndexed_of_run cfg hrun
    have older : r ∈ s.all → (s.heap r).state = .closed →
        ∃ x ∈ (⟨s, op, op.apply cfg s⟩ :: tr'), LateFor cfg x r := fun hm hc ↦ by
      obtain ⟨x, hx, hl⟩ := ih r hm hc
      exact ⟨x, List.mem_cons_of_mem _ hx, hl⟩
    cases op with
    | reap now order =>
      rw [Op.apply] at hr hclosed
      rw [reap_heap cfg hok hs.nodup] at hclosed
      rw [reap_all cfg hok hs.nodup, List.mem_filter] at hr
      rw [if_pos hr.1] at hclosed
      exact absurd hclosed (of_decide_eq_true hr.2)
    | correlateContacts contacts =>
      rw [Op.apply, correlateContacts_frame] at hr
      rw [Op.apply, correlateContacts_heap cfg contacts hs.nodup, if_pos hr] at hclosed
      exact older hr hclosed
    | ingest d now terrain =>
      rw [Op.apply] at hr hclosed
      by_cases hi : Ignored d
      · rw [ingest_of_ignored cfg s now terrain hi] at hr hclosed
        exact older hr hclosed
      by_cases htrack : (s.ingest cfg d now terrain).2 = some r
      · have hclosed' := hclosed
        rw [ingest_heap cfg s now terrain hi, if_pos htrack,
          absorbed_state_eq_closed_iff] at hclosed'
        rcases hclosed' with hlate | hjoined
        · refine ⟨_, List.mem_cons_self, d, now, terrain, rfl, htrack, ?_⟩
          rw [Op.apply, ingest_heap cfg s now terrain hi, if_pos htrack, absorbed, absorb_lastSeen]
          exact hlate
        · obtain ⟨hc, hclosed⟩ := (joined_state_eq_closed_iff cfg).mp hjoined
          obtain ⟨t, ht⟩ := Option.isSome_iff_exists.mp hc
          rw [ingest_snd cfg s now terrain hi, ht, Option.some_inj] at htrack
          subst htrack
          exact older (hs.found_mem ((continues_eq_some cfg s d _).mp ht).1) hclosed
      · rw [ingest_heap cfg s now terrain hi, if_neg htrack, settled_state] at hclosed
        exact older ((mem_all_of_ingest cfg hr).resolve_right htrack) hclosed

end ClassG.Fusion.TrackStore
