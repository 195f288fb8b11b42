import ClassG.Fusion.Reap

/-!
# The indexes point at the right tracks

`WellIndexed` is the invariant of the five maps: a live index entry points at a track in `all`
that owns the key, and an entry of a closed flight points at a `CLOSED` track outside `all` that
owns it.  It holds of every state any run reaches (`Run.wellIndexed`), whatever the times and the
detections.

Inside `Ingest` it is broken for a moment.  Looking a track up by serial gives it the MAC of the
detection before anyone knows whether the detection will go to that track; until `foldIn` has
settled that, the entry under that one MAC is pending.  So the invariant is stated up to a pending
MAC, the stages keep it, and `foldIn` discharges it.
-/

set_option autoImplicit false

namespace ClassG.Fusion.TrackStore

variable (cfg : Config)

/-- A track that has left the live set as a closed flight. -/
def ClosedOff (σ : TrackStore) (r : Ref) : Prop :=
  r ∉ σ.all ∧ r < σ.next ∧ (σ.heap r).state = .closed

theorem ClosedOff.settled {σ : TrackStore} {c : Ref} (h : σ.ClosedOff c) (d : Detection)
    (seen : GoTime) : (σ.settled cfg d seen).ClosedOff c := by
  refine ⟨by simpa using h.1, by simpa using h.2.1, ?_⟩
  rw [settled_heap]
  split <;> exact h.2.2

/-- The maps point at the right tracks, except perhaps the entry under the MAC `pending`. -/
structure WellIndexed (σ : TrackStore) (pending : String) : Prop where
  /-- A track is live once. -/
  nodup : σ.all.Nodup
  /-- The live tracks have been made. -/
  lt_next : ∀ r ∈ σ.all, r < σ.next
  /-- No track lists the empty MAC. -/
  macs : ∀ r, "" ∉ (σ.heap r).identity.macs
  /-- A live serial is the track's own. -/
  bySerial : σ.bySerial.Owned fun s r ↦ s ≠ "" ∧ r ∈ σ.all ∧ (σ.heap r).identity.serial = s
  /-- A live MAC is one of the track's own. -/
  byMAC : σ.byMAC.Owned fun m r ↦
    m ≠ "" ∧ r ∈ σ.all ∧ (m = pending ∨ m ∈ (σ.heap r).identity.macs)
  /-- A remembered serial is the closed flight's own. -/
  closedBySerial : σ.closedBySerial.Owned fun s r ↦
    σ.ClosedOff r ∧ s ≠ "" ∧ (σ.heap r).identity.serial = s
  /-- A remembered MAC is one of the closed flight's own. -/
  closedByMAC : σ.closedByMAC.Owned fun m r ↦ σ.ClosedOff r ∧ m ∈ (σ.heap r).identity.macs

namespace WellIndexed

variable {σ : TrackStore} {pending : String}

theorem init : WellIndexed {} "" where
  nodup := List.nodup_nil
  lt_next := by simp
  macs _ := by simp [default]
  bySerial := .empty _
  byMAC := .empty _
  closedBySerial := .empty _
  closedByMAC := .empty _

theorem found_mem (h : WellIndexed σ pending) {serial mac : String} {r : Ref}
    (hf : σ.found serial mac = some r) : r ∈ σ.all := by
  rcases Option.or_eq_some_iff.mp hf with hs | ⟨-, hm⟩
  · exact (h.bySerial _ _ (find_eq_some.mp hs).2).2.1
  · exact (h.byMAC _ _ (find_eq_some.mp hm).2).2.1

theorem adopts_mem (h : WellIndexed σ pending) {serial mac : String} {r : Ref}
    (ha : σ.adopts serial mac = some r) : r ∈ σ.all :=
  (h.byMAC _ _ (find_eq_some.mp (adopts_eq_some.mp ha).2.1).2).2.1

theorem closed_of_resolveClosed (h : WellIndexed σ pending) {serial mac : String} {c : Ref}
    (hc : σ.resolveClosed serial mac = some c) : σ.ClosedOff c := by
  rcases Option.or_eq_some_iff.mp hc with hs | ⟨-, hm⟩
  · exact (h.closedBySerial _ _ (find_eq_some.mp hs).2).1
  · exact (h.closedByMAC _ _ (find_eq_some.mp hm).2).1

/-! ### Each stage of `Ingest` keeps the invariant up to the detection's MAC -/

theorem resolve (h : WellIndexed σ "") (serial mac : String) :
    WellIndexed (σ.resolve serial mac).1 mac := by
  have hmacs : ∀ r, ((σ.resolve serial mac).1.heap r).identity.macs =
      (σ.heap r).identity.macs := by
    intro r; rw [resolve_heap]; split <;> rfl
  have hclosed : ∀ r, σ.ClosedOff r → (σ.resolve serial mac).1.ClosedOff r ∧
      (σ.resolve serial mac).1.heap r = σ.heap r := by
    intro r hr
    have hne : σ.adopts serial mac ≠ some r := fun ha ↦ hr.1 (h.adopts_mem ha)
    have hheap : (σ.resolve serial mac).1.heap r = σ.heap r := by rw [resolve_heap, if_neg hne]
    exact ⟨⟨by simpa using hr.1, by simpa using hr.2.1, by rw [hheap]; exact hr.2.2⟩, hheap⟩
  refine ⟨by simpa using h.nodup, by simpa using h.lt_next, fun r ↦ hmacs r ▸ h.macs r, ?_, ?_,
    ?_, ?_⟩
  · refine h.bySerial.change fun k r hk ↦ ?_
    rw [resolve_bySerial] at hk
    rw [resolve_all, resolve_heap]
    by_cases ha : σ.adopts serial mac = some r
    · by_cases hks : k = serial
      · subst hks
        exact .inr ⟨(adopts_eq_some.mp ha).1.1, h.adopts_mem ha, by rw [if_pos ha]; rfl⟩
      · -- the adopting track had no serial, so no entry pointed at it
        rw [if_neg hks] at hk
        have hser := (h.bySerial _ _ hk).2.2
        rw [(adopts_eq_some.mp ha).2.2] at hser
        exact absurd hser.symm (h.bySerial _ _ hk).1
    · have hold : σ.bySerial.get k = some r := by
        split at hk
        · rename_i hks
          rcases Option.or_eq_some_iff.mp hk with h' | h'
          · exact absurd h' ha
          · exact h'.2
        · exact hk
      exact .inl ⟨hold, by rw [if_neg ha]; exact id⟩
  · refine h.byMAC.change fun m r hm ↦ ?_
    rw [resolve_byMAC] at hm
    rw [resolve_all, hmacs]
    split at hm
    · rename_i hmm
      refine .inr ⟨hmm.1 ▸ hmm.2, ?_, .inl hmm.1⟩
      rcases Option.or_eq_some_iff.mp hm with h' | h'
      · exact (h.bySerial _ _ (find_eq_some.mp h').2).2.1
      · exact (h.byMAC _ _ h'.2).2.1
    · exact .inl ⟨hm, fun ho ↦ ⟨ho.1, ho.2.1, .inr (ho.2.2.resolve_left ho.1)⟩⟩
  · rw [resolve_closedBySerial]
    exact h.closedBySerial.mono fun k r _ hr ↦
      ⟨(hclosed r hr.1).1, by rw [(hclosed r hr.1).2]; exact hr.2⟩
  · rw [resolve_closedByMAC]
    exact h.closedByMAC.mono fun k r _ hr ↦ ⟨(hclosed r hr.1).1, by rw [hmacs]; exact hr.2⟩

theorem unindex (h : WellIndexed σ pending) (t : Ref) : WellIndexed (σ.unindex t) pending where
  nodup := h.nodup
  lt_next := h.lt_next
  macs := h.macs
  bySerial := h.bySerial.change fun k r hk ↦ by
    rw [unindex_bySerial] at hk
    split at hk
    · simp at hk
    · exact .inl ⟨hk, id⟩
  byMAC := h.byMAC.change fun m r hm ↦ by
    rw [unindex_byMAC] at hm
    split at hm
    · simp at hm
    · exact .inl ⟨hm, id⟩
  closedBySerial := h.closedBySerial
  closedByMAC := h.closedByMAC

theorem settled (h : WellIndexed σ "") (d : Detection) (seen : GoTime) :
    WellIndexed (σ.settled cfg d seen) d.identity.mac := by
  rw [settled_eq]
  split
  · exact (h.resolve ..).unindex _
  · exact h.resolve ..

theorem reopen (h : WellIndexed σ pending) {c : Ref} (hc : σ.ClosedOff c) :
    WellIndexed (σ.reopen c) pending := by
  have hid : ∀ r, ((σ.reopen c).heap r).identity = (σ.heap r).identity := by
    intro r
    by_cases hr : r = c
    · subst hr; simp
    · simp [hr]
  have hmem : ∀ r, r ∈ (σ.reopen c).all ↔ r = c ∨ r ∈ σ.all := by simp
  have hclosed : ∀ r, r ≠ c → σ.ClosedOff r → (σ.reopen c).ClosedOff r := by
    intro r hr ho
    exact ⟨by rw [hmem]; rintro (h' | h'); exacts [hr h', ho.1 h'], ho.2.1, by
      rw [reopen_heap, Function.update_of_ne hr]; exact ho.2.2⟩
  refine ⟨h.nodup.insert, ?_, fun r ↦ hid r ▸ h.macs r, ?_, ?_, ?_, ?_⟩
  · intro r hr
    rcases (hmem r).mp hr with rfl | hr
    · exact hc.2.1
    · exact h.lt_next r hr
  · refine h.bySerial.change fun k r hk ↦ ?_
    rw [reopen_bySerial] at hk
    rw [hmem, hid]
    split at hk
    · rename_i hks
      rw [Option.some_inj] at hk
      subst hk
      exact .inr ⟨hks.2, .inl rfl, hks.1.symm⟩
    · exact .inl ⟨hk, fun ho ↦ ⟨ho.1, .inr ho.2.1, ho.2.2⟩⟩
  · refine h.byMAC.change fun m r hm ↦ ?_
    rw [reopen_byMAC] at hm
    rw [hmem, hid]
    split at hm
    · rename_i hmm
      rw [Option.some_inj] at hm
      subst hm
      exact .inr ⟨fun h0 ↦ h.macs _ (h0 ▸ hmm), .inl rfl, .inr hmm⟩
    · exact .inl ⟨hm, fun ho ↦ ⟨ho.1, .inr ho.2.1, ho.2.2⟩⟩
  · refine h.closedBySerial.change fun k r hk ↦ ?_
    rw [reopen_closedBySerial, forget_closedBySerial] at hk
    split at hk
    · simp at hk
    · rename_i hne
      have hr : r ≠ c := by
        rintro rfl
        have hkey := (h.closedBySerial _ _ hk).2
        exact hne ⟨⟨hkey.2.symm, hkey.1⟩, hk⟩
      exact .inl ⟨hk, fun ho ↦ ⟨hclosed r hr ho.1, by rw [hid]; exact ho.2⟩⟩
  · refine h.closedByMAC.change fun m r hm ↦ ?_
    rw [reopen_closedByMAC, forget_closedByMAC] at hm
    split at hm
    · simp at hm
    · rename_i hne
      have hr : r ≠ c := by
        rintro rfl
        exact hne ⟨(h.closedByMAC _ _ hm).2, hm⟩
      exact .inl ⟨hm, fun ho ↦ ⟨hclosed r hr ho.1, by rw [hid]; exact ho.2⟩⟩

theorem mint (h : WellIndexed σ pending) (d : Detection) (seen : GoTime) :
    WellIndexed (σ.mint cfg d seen) pending := by
  have hheap : ∀ r, r < σ.next → (σ.mint cfg d seen).heap r = σ.heap r := fun r hr ↦ by
    rw [mint_heap, Function.update_of_ne hr.ne]
  have hmem : ∀ r, r ∈ (σ.mint cfg d seen).all ↔ r = σ.next ∨ r ∈ σ.all := by simp
  have hclosed : ∀ r, σ.ClosedOff r → (σ.mint cfg d seen).ClosedOff r := fun r hr ↦
    ⟨by rw [hmem]; rintro (h' | h'); exacts [hr.2.1.ne h', hr.1 h'], hr.2.1.trans (by simp),
      by rw [hheap r hr.2.1]; exact hr.2.2⟩
  refine ⟨h.nodup.insert, ?_, ?_, ?_, ?_, ?_, ?_⟩
  · intro r hr
    rcases (hmem r).mp hr with rfl | hr
    · simp
    · exact (h.lt_next r hr).trans (by simp)
  · intro r
    by_cases hr : r = σ.next
    · subst hr; simp [blank]
    · rw [mint_heap, Function.update_of_ne hr]; exact h.macs r
  · refine h.bySerial.change fun k r hk ↦ ?_
    rw [mint_bySerial] at hk
    split at hk
    · rename_i hks
      rw [Option.some_inj] at hk
      subst hk
      exact .inr ⟨hks.2, (hmem _).mpr (.inl rfl), by simp [blank, hks.1]⟩
    · refine .inl ⟨hk, fun ho ↦ ⟨ho.1, (hmem r).mpr (.inr ho.2.1), ?_⟩⟩
      rw [hheap r (h.lt_next r ho.2.1)]; exact ho.2.2
  · refine h.byMAC.mono fun m r _ ho ↦ ⟨ho.1, (hmem r).mpr (.inr ho.2.1), ?_⟩
    rw [hheap r (h.lt_next r ho.2.1)]; exact ho.2.2
  · refine h.closedBySerial.mono fun k r _ ho ↦ ⟨hclosed r ho.1, ?_⟩
    rw [hheap r ho.1.2.1]; exact ho.2
  · refine h.closedByMAC.mono fun m r _ ho ↦ ⟨hclosed r ho.1, ?_⟩
    rw [hheap r ho.1.2.1]; exact ho.2

/-- **Folding the detection in settles the pending MAC**: the track it goes to lists it. -/
theorem foldIn {d : Detection} (h : WellIndexed σ d.identity.mac) {t : Ref} (ht : t ∈ σ.all)
    (seen now : GoTime) (terrain : TerrainResolver) :
    WellIndexed (σ.foldIn cfg t d seen now terrain) "" := by
  have hother : ∀ r, r ≠ t → (σ.foldIn cfg t d seen now terrain).heap r = σ.heap r := fun r hr ↦ by
    rw [foldIn_heap, Function.update_of_ne hr]
  have hid : ((σ.foldIn cfg t d seen now terrain).heap t).identity =
      (σ.heap t).identity.learn d.identity := by simp [absorbed]
  have hclosed : ∀ r, σ.ClosedOff r → r ≠ t := fun r hr h' ↦ hr.1 (h' ▸ ht)
  have hoff : ∀ r, σ.ClosedOff r → (σ.foldIn cfg t d seen now terrain).ClosedOff r := fun r hr ↦
    ⟨hr.1, hr.2.1, by rw [hother r (hclosed r hr)]; exact hr.2.2⟩
  refine ⟨h.nodup, h.lt_next, ?_, ?_, ?_, ?_, ?_⟩
  · intro r
    by_cases hr : r = t
    · subst hr
      rw [hid]
      simp only [Identity.learn]
      split
      · rename_i hm; simp [h.macs r, Ne.symm hm.1]
      · exact h.macs r
    · rw [hother r hr]; exact h.macs r
  · refine h.bySerial.change fun k r hk ↦ ?_
    rw [foldIn_bySerial] at hk
    split at hk
    · rename_i hks
      rw [Option.some_inj] at hk
      subst hk
      refine .inr ⟨hks.2.1, ht, ?_⟩
      rw [hid, Identity.learn]
      simp [← hks.1, hks.2.1, hks.2.2]
    · refine .inl ⟨hk, fun ho ↦ ⟨ho.1, ho.2.1, ?_⟩⟩
      by_cases hr : r = t
      · subst hr
        rw [hid, Identity.learn]
        simp [ho.2.2, ho.1]
      · rw [hother r hr]; exact ho.2.2
  · refine h.byMAC.change fun m r hm ↦ ?_
    rw [foldIn_byMAC] at hm
    split at hm
    · rename_i hmm
      rw [Option.some_inj] at hm
      subst hm
      refine .inr ⟨hmm.2, ht, .inr ?_⟩
      rw [hid, Identity.learn, ← hmm.1]
      simp only
      split
      · simp
      · rename_i hn; exact not_not.mp fun hnot ↦ hn ⟨hmm.2, hnot⟩
    · rename_i hmm
      refine .inl ⟨hm, fun ho ↦ ⟨ho.1, ho.2.1, .inr ?_⟩⟩
      have hmem : m ∈ (σ.heap r).identity.macs := ho.2.2.resolve_left fun he ↦ hmm ⟨he, ho.1⟩
      by_cases hr : r = t
      · subst hr
        rw [hid, Identity.learn]
        simp only
        split
        · exact List.mem_append_left _ hmem
        · exact hmem
      · rw [hother r hr]; exact hmem
  · exact h.closedBySerial.mono fun k r _ ho ↦
      ⟨hoff r ho.1, by rw [hother r (hclosed r ho.1)]; exact ho.2⟩
  · exact h.closedByMAC.mono fun m r _ ho ↦
      ⟨hoff r ho.1, by rw [hother r (hclosed r ho.1)]; exact ho.2⟩

/-! ### Each call keeps the invariant -/

theorem ingest (h : WellIndexed σ "") (d : Detection) (now : GoTime) (terrain : TerrainResolver) :
    WellIndexed (σ.ingest cfg d now terrain).1 "" := by
  have hs := h.settled cfg d (d.seen now)
  refine ingest_elim cfg σ d now terrain (P := fun s _ ↦ WellIndexed s "") (fun _ ↦ h) ?_ ?_ ?_
  · intro _ r hr
    refine hs.foldIn cfg ?_ _ _ _
    rw [settled_all]
    exact h.found_mem ((continues_eq_some cfg σ d _).mp hr).1
  · intro _ c _ hc
    have hcl := h.closed_of_resolveClosed ((rejoins_eq_some cfg σ d _).mp hc).1
    exact (hs.reopen (hcl.settled cfg d _)).foldIn cfg (by simp) _ _ _
  · intro _ _ _
    exact (hs.mint cfg d _).foldIn cfg (by simp) _ _ _

theorem reap (h : WellIndexed σ "") {order : List Ref} (hok : order.Perm σ.all) (now : GoTime) :
    WellIndexed (σ.reap cfg now order).1 "" := by
  have hid : ∀ r, ((σ.reap cfg now order).1.heap r).identity = (σ.heap r).identity := fun r ↦ by
    rw [reap_heap cfg hok h.nodup]; split <;> rfl
  have hmem : ∀ r, r ∈ (σ.reap cfg now order).1.all ↔
      r ∈ σ.all ∧ ¬ Closes cfg now (σ.heap r) := fun r ↦ by
    rw [reap_all cfg hok h.nodup]; simp
  -- a closed flight stays one, and a track that closes becomes one
  have hold : ∀ r, σ.ClosedOff r → (σ.reap cfg now order).1.ClosedOff r := fun r hr ↦
    ⟨fun hm ↦ hr.1 ((hmem r).mp hm).1, by simpa using hr.2.1, by
      rw [reap_heap cfg hok h.nodup, if_neg hr.1]; exact hr.2.2⟩
  have hnew : ∀ r ∈ σ.all, Closes cfg now (σ.heap r) →
      (σ.reap cfg now order).1.ClosedOff r := fun r hr hc ↦
    ⟨fun hm ↦ ((hmem r).mp hm).2 hc, by simpa using h.lt_next r hr, by
      rw [reap_heap cfg hok h.nodup, if_pos hr]; exact hc⟩
  refine ⟨?_, ?_, fun r ↦ hid r ▸ h.macs r, ?_, ?_, ?_, ?_⟩
  · rw [reap_all cfg hok h.nodup]; exact h.nodup.filter _
  · intro r hr
    rw [reap_next]
    exact h.lt_next r ((hmem r).mp hr).1
  · refine h.bySerial.change fun k r hk ↦ ?_
    rw [reap_bySerial cfg hok h.nodup] at hk
    split at hk
    · simp at hk
    · rename_i hn
      refine .inl ⟨hk, fun ho ↦ ⟨ho.1, (hmem r).mpr ⟨ho.2.1, fun hc ↦ ?_⟩, hid r ▸ ho.2.2⟩⟩
      exact hn ⟨r, ho.2.1, hc, ho.2.2.symm, ho.1⟩
  · refine h.byMAC.change fun m r hm ↦ ?_
    rw [reap_byMAC cfg hok h.nodup] at hm
    split at hm
    · simp at hm
    · rename_i hn
      refine .inl ⟨hm, fun ho ↦ ?_⟩
      have hmac := ho.2.2.resolve_left ho.1
      exact ⟨ho.1, (hmem r).mpr ⟨ho.2.1, fun hc ↦ hn ⟨r, ho.2.1, hc, hmac⟩⟩,
        .inr (hid r ▸ hmac)⟩
  · intro k r hk
    rw [reap_closedBySerial cfg hok h.nodup] at hk
    rw [hid]
    rcases Option.or_eq_some_iff.mp (Option.filter_eq_some_iff.mp hk).1 with hl | ⟨-, ho⟩
    · have hr := List.mem_filter.mp (List.mem_of_getLast? hl)
      simp only [decide_eq_true_eq] at hr
      exact ⟨hnew r (hok.mem_iff.mp hr.1) hr.2.1.1, hr.2.2.2, hr.2.2.1.symm⟩
    · exact ⟨hold r (h.closedBySerial _ _ ho).1, (h.closedBySerial _ _ ho).2⟩
  · intro m r hm
    rw [reap_closedByMAC cfg hok h.nodup] at hm
    rw [hid]
    rcases Option.or_eq_some_iff.mp (Option.filter_eq_some_iff.mp hm).1 with hl | ⟨-, ho⟩
    · have hr := List.mem_filter.mp (List.mem_of_getLast? hl)
      simp only [decide_eq_true_eq] at hr
      exact ⟨hnew r (hok.mem_iff.mp hr.1) hr.2.1.1, hr.2.2⟩
    · exact ⟨hold r (h.closedByMAC _ _ ho).1, (h.closedByMAC _ _ ho).2⟩

theorem correlateContacts (h : WellIndexed σ "") (contacts : List ADSBContact) :
    WellIndexed (σ.correlateContacts cfg contacts).1 "" := by
  have hid : ∀ r, ((σ.correlateContacts cfg contacts).1.heap r).identity = (σ.heap r).identity ∧
      ((σ.correlateContacts cfg contacts).1.heap r).state = (σ.heap r).state := fun r ↦ by
    rw [correlateContacts_heap cfg contacts h.nodup]; split <;> exact ⟨rfl, rfl⟩
  rw [correlateContacts_frame]
  refine ⟨h.nodup, h.lt_next, fun r ↦ (hid r).1 ▸ h.macs r, ?_, ?_, ?_, ?_⟩
  · exact h.bySerial.mono fun k r _ ho ↦ ⟨ho.1, ho.2.1, (hid r).1 ▸ ho.2.2⟩
  · exact h.byMAC.mono fun m r _ ho ↦ ⟨ho.1, ho.2.1, (hid r).1 ▸ ho.2.2⟩
  · exact h.closedBySerial.mono fun k r _ ho ↦
      ⟨⟨ho.1.1, ho.1.2.1, (hid r).2 ▸ ho.1.2.2⟩, (hid r).1 ▸ ho.2⟩
  · exact h.closedByMAC.mono fun m r _ ho ↦
      ⟨⟨ho.1.1, ho.1.2.1, (hid r).2 ▸ ho.1.2.2⟩, (hid r).1 ▸ ho.2⟩

theorem apply (h : WellIndexed σ "") {op : Op} (hok : op.Ok σ) :
    WellIndexed (op.apply cfg σ) "" := by
  cases op with
  | ingest d now terrain => exact h.ingest cfg d now terrain
  | reap now order => exact h.reap cfg hok now
  | correlateContacts contacts => exact h.correlateContacts cfg contacts

/-- The track a call returns has been made, and no call unmakes one. -/
theorem track_lt_next (h : WellIndexed σ "") (op : Op) :
    σ.next ≤ (op.apply cfg σ).next ∧
      ∀ t, op.track cfg σ = some t → t < (op.apply cfg σ).next := by
  cases op with
  | ingest d now terrain =>
    refine ingest_elim cfg σ d now terrain
      (P := fun s o ↦ σ.next ≤ s.next ∧ ∀ t, o = some t → t < s.next) ?_ ?_ ?_ ?_
    · intro _
      exact ⟨le_rfl, by simp⟩
    · rintro - r hr
      rw [foldIn_next, settled_next]
      refine ⟨le_rfl, ?_⟩
      rintro t ⟨⟩
      exact h.lt_next _ (h.found_mem ((continues_eq_some cfg σ d _).mp hr).1)
    · rintro - c - hc
      rw [foldIn_next, reopen_next, settled_next]
      refine ⟨le_rfl, ?_⟩
      rintro t ⟨⟩
      exact (h.closed_of_resolveClosed ((rejoins_eq_some cfg σ d _).mp hc).1).2.1
    · rintro - - -
      rw [foldIn_next, mint_next, settled_next]
      refine ⟨Nat.le_succ _, ?_⟩
      rintro t ⟨⟩
      exact Nat.lt_succ_self _
  | reap now order => exact ⟨(reap_next ..).ge, by simp [Op.track]⟩
  | correlateContacts contacts =>
    refine ⟨?_, by simp [Op.track]⟩
    rw [Op.apply, correlateContacts_frame]

end WellIndexed

/-- **Every state of every run is well indexed.** -/
theorem wellIndexed_of_run {tr : List (Machine.Step TrackStore Op)} {σ : TrackStore}
    (h : (storeMachine cfg).Run tr σ) : WellIndexed σ "" := by
  refine h.invariant (I := fun s ↦ WellIndexed s "") ?_ fun s op s' hi hn ↦ ?_
  · rintro s rfl; exact .init
  · rw [hn.2]; exact hi.apply cfg hn.1

end ClassG.Fusion.TrackStore
