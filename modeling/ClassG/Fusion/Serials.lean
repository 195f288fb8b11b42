import ClassG.Fusion.Index

/-!
# One live track for each serial

`WellIndexed` says that an index entry points at a track that owns its key.  It does not say that
a serial has one owner: a track found by MAC may carry a serial that is indexed for another.
`Keyed` is the missing half, that whatever `byMAC` reaches is what `bySerial` holds under its
serial, and from it no two tracks the indexes reach share one.

Two things break it.  `Reap` deletes by key, so closing a finished flight takes the serial entry
of the flight that replaced it, while the MAC entry of that flight stays.  And `reopen` writes the
serial of the closed flight without asking whether a newer flight has it, which it may when the
closed flight is found by MAC.  `SerialFree` excludes both; every other path through `Ingest`
keeps `Keyed` by itself.
-/

set_option autoImplicit false

namespace ClassG.Fusion.TrackStore

variable (cfg : Config)

/-- A track that the indexes of live tracks reach. -/
def Indexed (σ : TrackStore) (r : Ref) : Prop :=
  (∃ k, σ.bySerial.get k = some r) ∨ ∃ m, σ.byMAC.get m = some r

/-- What the five maps promise their readers. -/
structure WellFormed (σ : TrackStore) : Prop where
  /-- A live serial finds a live track that carries it. -/
  bySerial : σ.bySerial.Owned fun s r ↦ r ∈ σ.all ∧ (σ.heap r).identity.serial = s
  /-- A live MAC finds a live track that was heard on it. -/
  byMAC : σ.byMAC.Owned fun m r ↦ r ∈ σ.all ∧ m ∈ (σ.heap r).identity.macs
  /-- The remembered flights are closed. -/
  closedBySerial : σ.closedBySerial.Owned fun _ r ↦ (σ.heap r).state = .closed ∧ r ∉ σ.all
  closedByMAC : σ.closedByMAC.Owned fun _ r ↦ (σ.heap r).state = .closed ∧ r ∉ σ.all
  /-- No serial is shared. -/
  unique : ∀ r r', σ.Indexed r → σ.Indexed r' → (σ.heap r).identity.serial ≠ "" →
    (σ.heap r).identity.serial = (σ.heap r').identity.serial → r = r'

/-- The call closes no track whose serial is indexed for a track it leaves open, and reopens no
flight whose serial is indexed for a track it leaves live. -/
def SerialFree (σ : TrackStore) : Op → Prop
  | .reap now _ => ∀ a ∈ σ.all, Closes cfg now (σ.heap a) →
      ∀ b ∈ σ.bySerial.get (σ.heap a).identity.serial, Closes cfg now (σ.heap b)
  | .ingest d now _ => ¬ Ignored d → σ.continues cfg d (d.seen now) = none →
      ∀ c ∈ σ.rejoins cfg d (d.seen now), ∀ b ∈ σ.bySerial.get (σ.heap c).identity.serial,
        σ.finishes cfg d (d.seen now) = some b
  | .correlateContacts _ => True

instance (σ : TrackStore) : (op : Op) → Decidable (SerialFree cfg σ op)
  | .reap _ _ => inferInstanceAs (Decidable (∀ _ ∈ _, _ → _))
  | .ingest _ _ _ => inferInstanceAs (Decidable (_ → _))
  | .correlateContacts _ => .isTrue trivial

/-! ## Keyed indexes -/

/-- What a MAC finds is what its serial finds, except perhaps under the MAC `pending`. -/
def Keyed (σ : TrackStore) (pending : String) : Prop :=
  σ.byMAC.Owned fun m r ↦ m ≠ pending → (σ.heap r).identity.serial ≠ "" →
    σ.bySerial.get (σ.heap r).identity.serial = some r

namespace Keyed

variable {cfg} {σ : TrackStore}

/-- Tracks the indexes reach are told apart by their serials. -/
theorem unique (h : Keyed σ "") (hσ : WellIndexed σ "") {r r' : Ref} (hr : σ.Indexed r)
    (hr' : σ.Indexed r') (hne : (σ.heap r).identity.serial ≠ "")
    (heq : (σ.heap r).identity.serial = (σ.heap r').identity.serial) : r = r' := by
  have hkey : ∀ x, σ.Indexed x → (σ.heap x).identity.serial ≠ "" →
      σ.bySerial.get (σ.heap x).identity.serial = some x := by
    rintro x (⟨k, hk⟩ | ⟨m, hm⟩) hx
    · rw [(hσ.bySerial _ _ hk).2.2]
      exact hk
    · exact h m x hm (hσ.byMAC _ _ hm).1 hx
  have hx := hkey r hr hne
  have hx' := hkey r' hr' (heq ▸ hne)
  rw [heq, hx'] at hx
  exact (Option.some_inj.mp hx).symm

/-- The live track a lookup returns is what its serial finds. -/
theorem of_found (h : Keyed σ "") (hσ : WellIndexed σ "") {serial mac : String} {r : Ref}
    (hf : σ.found serial mac = some r) (hne : (σ.heap r).identity.serial ≠ "") :
    σ.bySerial.get (σ.heap r).identity.serial = some r := by
  rcases Option.or_eq_some_iff.mp hf with hs | ⟨-, hm⟩
  · have hk := (find_eq_some.mp hs).2
    rw [(hσ.bySerial _ _ hk).2.2]
    exact hk
  · obtain ⟨hm0, hm⟩ := find_eq_some.mp hm
    exact h _ r hm hm0 hne

theorem resolve (h : Keyed σ "") (hσ : WellIndexed σ "") (serial mac : String) :
    Keyed (σ.resolve serial mac).1 "" := by
  intro m r hm hm0 hne
  rw [resolve_byMAC] at hm
  rw [resolve_heap] at hne ⊢
  rw [resolve_bySerial]
  by_cases ha : σ.adopts serial mac = some r
  · rw [if_pos ha, ha]
    exact (if_pos rfl).trans rfl
  · rw [if_neg ha] at hne ⊢
    have hk : σ.bySerial.get (σ.heap r).identity.serial = some r := by
      split at hm
      · rcases Option.or_eq_some_iff.mp hm with hs | ⟨-, hm⟩
        · have hk := (find_eq_some.mp hs).2
          rw [(hσ.bySerial _ _ hk).2.2]
          exact hk
        · exact h m r hm hm0 hne
      · exact h m r hm hm0 hne
    split
    · rename_i hks
      -- a serial that is being adopted is in nobody's entry
      cases hadopt : σ.adopts serial mac with
      | none => exact hk
      | some a =>
        rw [hks, (adopts_eq_some.mp hadopt).1.2] at hk
        cases hk
    · exact hk

theorem settled (h : Keyed σ "") (hσ : WellIndexed σ "") (d : Detection) (seen : GoTime) :
    Keyed (σ.settled cfg d seen) d.identity.mac := by
  have hres := h.resolve hσ d.identity.serial d.identity.mac
  have hwell := hσ.resolve d.identity.serial d.identity.mac
  rw [settled_eq]
  split
  · rename_i a ha
    intro m r hm hmac hne
    rw [unindex_byMAC] at hm
    split at hm
    · cases hm
    rename_i hmm
    have hkr := hres m r hm (hwell.byMAC _ _ hm).1 hne
    rw [unindex_heap] at hne ⊢
    rw [unindex_bySerial, if_neg]
    · exact hkr
    · rintro ⟨heq, -⟩
      -- the finished track is what its own serial finds, so the entry would be its own
      have hfound := ((finishes_eq_some cfg σ d seen).mp ha).1
      have hka : ((σ.resolve d.identity.serial d.identity.mac).1).bySerial.get
          (((σ.resolve d.identity.serial d.identity.mac).1).heap a).identity.serial = some a := by
        by_cases had : σ.adopts d.identity.serial d.identity.mac = some a
        · rw [resolve_heap, if_pos had, resolve_bySerial, had]
          exact (if_pos rfl).trans rfl
        · have hsa : (σ.heap a).identity.serial ≠ "" := by
            rwa [heq, resolve_heap, if_neg had] at hne
          have hk := h.of_found hσ hfound hsa
          rw [resolve_heap, if_neg had]
          exact resolve_bySerial_of_some hk
      rw [heq, hka, Option.some_inj] at hkr
      subst hkr
      rcases (hwell.byMAC _ _ hm).2.2 with hp | hin
      · exact hmac hp
      · exact hmm hin
  · exact fun m r hm _ ↦ hres m r hm (hwell.byMAC _ _ hm).1

/-- With no live track to continue, the serial of the detection is nobody's. -/
theorem settled_bySerial_eq_none {d : Detection} {seen : GoTime}
    (hσ : WellIndexed σ "") (hc : σ.continues cfg d seen = none) (hne : d.identity.serial ≠ "") :
    (σ.settled cfg d seen).bySerial.get d.identity.serial = none := by
  cases hf : σ.found d.identity.serial d.identity.mac with
  | none =>
    have hs : σ.bySerial.get d.identity.serial = none := by
      rw [← find_of_ne _ hne]
      exact (Option.or_eq_none_iff.mp hf).1
    have ha : σ.adopts d.identity.serial d.identity.mac = none := by
      rw [adopts, if_pos ⟨hne, hs⟩, (Option.or_eq_none_iff.mp hf).2]
      rfl
    have hfin : σ.finishes cfg d seen = none := by rw [finishes, hf]; rfl
    rw [settled_eq, hfin, resolve_bySerial, if_pos rfl, ha, hs]
    rfl
  | some a =>
    have hfin : σ.finishes cfg d seen = some a := by
      refine (finishes_eq_some cfg σ d seen).mpr ⟨hf, not_not.mp fun hn ↦ ?_⟩
      rw [(continues_eq_some cfg σ d seen).mpr ⟨hf, hn⟩] at hc
      cases hc
    rw [settled_eq, hfin, unindex_bySerial]
    split
    · rfl
    rename_i hkey
    -- a track that was found without the serial being its own was found by MAC
    have hs : σ.bySerial.get d.identity.serial = none := by
      rcases Option.or_eq_some_iff.mp hf with hs | ⟨hs, -⟩
      · refine absurd ⟨?_, hne⟩ hkey
        have hk := (find_eq_some.mp hs).2
        have ha : σ.adopts d.identity.serial d.identity.mac ≠ some a := by simp [adopts, hk]
        rw [resolve_heap, if_neg ha, (hσ.bySerial _ _ hk).2.2]
      · rwa [find_of_ne _ hne] at hs
    rw [resolve_bySerial, if_pos rfl, hs]
    cases ha : σ.adopts d.identity.serial d.identity.mac with
    | none => rfl
    | some x =>
      have hm := (adopts_eq_some.mp ha).2.1
      have hx : x = a := by
        rw [found, find_of_ne _ hne, hs, Option.none_or, hm, Option.some_inj] at hf
        exact hf
      subst hx
      exact absurd ⟨by rw [resolve_heap, if_pos ha]; rfl, hne⟩ hkey

/-- A serial that only the finished track had, if any, is nobody's once the lookup is settled. -/
theorem settled_bySerial_of_free {d : Detection} {seen : GoTime} {k : String}
    (hσ : WellIndexed σ "")
    (hnone : d.identity.serial ≠ "" →
      (σ.settled cfg d seen).bySerial.get d.identity.serial = none)
    (hfree : ∀ b ∈ σ.bySerial.get k, σ.finishes cfg d seen = some b) (hne : k ≠ "") :
    (σ.settled cfg d seen).bySerial.get k = none := by
  by_cases hks : k = d.identity.serial
  · subst hks
    exact hnone hne
  have hres : (σ.resolve d.identity.serial d.identity.mac).1.bySerial.get k = σ.bySerial.get k := by
    rw [resolve_bySerial, if_neg hks]
  rw [settled_eq]
  cases hb : σ.bySerial.get k with
  | none =>
    split
    · rw [unindex_bySerial, hres, hb, ite_self]
    · rw [hres, hb]
  | some b =>
    have hser := (hσ.bySerial _ _ hb).2.2
    have had : σ.adopts d.identity.serial d.identity.mac ≠ some b := fun had ↦
      hne (hser.symm.trans (adopts_eq_some.mp had).2.2)
    rw [hfree b hb]
    dsimp only
    rw [unindex_bySerial, resolve_heap, if_neg had]
    exact if_pos ⟨hser.symm, hne⟩

theorem reopen {mac : String} (h : Keyed σ mac) {c : Ref}
    (hfree : (σ.heap c).identity.serial ≠ "" →
      σ.bySerial.get (σ.heap c).identity.serial = none) : Keyed (σ.reopen c) mac := by
  have hid : ∀ r, ((σ.reopen c).heap r).identity = (σ.heap r).identity := fun r ↦ by
    by_cases hr : r = c
    · subst hr; simp
    · simp [hr]
  intro m r hm hmac hne
  rw [reopen_byMAC] at hm
  rw [hid] at hne ⊢
  rw [reopen_bySerial]
  split at hm
  · rw [Option.some_inj] at hm
    subst hm
    exact if_pos ⟨rfl, hne⟩
  · have hk := h m r hm hmac hne
    rw [if_neg, hk]
    rintro ⟨heq, -⟩
    rw [heq, hfree (heq ▸ hne)] at hk
    cases hk

theorem mint {mac : String} (h : Keyed σ mac) (hσ : WellIndexed σ mac) {d : Detection}
    (hfree : d.identity.serial ≠ "" → σ.bySerial.get d.identity.serial = none) (seen : GoTime) :
    Keyed (σ.mint cfg d seen) mac := by
  intro m r hm hmac hne
  rw [mint_byMAC] at hm
  have hr : r ≠ σ.next := (hσ.lt_next r (hσ.byMAC _ _ hm).2.1).ne
  rw [mint_heap, Function.update_of_ne hr] at hne ⊢
  have hk := h m r hm hmac hne
  rw [mint_bySerial, if_neg, hk]
  rintro ⟨heq, -⟩
  rw [heq, hfree (heq ▸ hne)] at hk
  cases hk

/-- Folding the detection in settles the pending MAC, and a serial it gives to the track was
nobody's. -/
theorem foldIn {d : Detection} (h : Keyed σ d.identity.mac) (hσ : WellIndexed σ d.identity.mac)
    {t : Ref} (seen now : GoTime) (terrain : TerrainResolver)
    (ht : (σ.heap t).identity.serial ≠ "" →
      σ.bySerial.get (σ.heap t).identity.serial = some t)
    (hfree : (σ.heap t).identity.serial = "" → d.identity.serial ≠ "" →
      σ.bySerial.get d.identity.serial = none) :
    Keyed (σ.foldIn cfg t d seen now terrain) "" := by
  -- the track itself is what its serial finds, the one it had or the one it is given
  have hself : ((σ.foldIn cfg t d seen now terrain).heap t).identity.serial ≠ "" →
      (σ.foldIn cfg t d seen now terrain).bySerial.get
        ((σ.foldIn cfg t d seen now terrain).heap t).identity.serial = some t := by
    intro hne
    rw [foldIn_bySerial]
    rw [foldIn_heap, Function.update_self, absorbed, Track.absorb_identity, Identity.learn] at hne ⊢
    dsimp only at hne ⊢
    by_cases hl : d.identity.serial ≠ "" ∧ (σ.heap t).identity.serial = ""
    · simp only [if_pos hl]
      exact if_pos ⟨trivial, hl.1, hl.2⟩
    · simp only [if_neg hl] at hne ⊢
      rw [if_neg fun hk ↦ hne hk.2.2]
      exact ht hne
  intro m r hm _ hne
  rw [foldIn_byMAC] at hm
  by_cases hrt : r = t
  · subst hrt
    exact hself hne
  split at hm
  · rename_i hmm
    exact absurd (Option.some_inj.mp hm).symm hrt
  · rename_i hmm
    rw [foldIn_heap, Function.update_of_ne hrt] at hne ⊢
    have hk := h m r hm (fun hmac ↦ hmm ⟨hmac, (hσ.byMAC _ _ hm).1⟩) hne
    rw [foldIn_bySerial, if_neg, hk]
    rintro ⟨heq, -, hts⟩
    rw [heq, hfree hts (heq ▸ hne)] at hk
    cases hk

/-! ### Each call keeps the indexes keyed -/

theorem ingest (h : Keyed σ "") (hσ : WellIndexed σ "") {d : Detection} {now : GoTime}
    {terrain : TerrainResolver} (hfree : SerialFree cfg σ (.ingest d now terrain)) :
    Keyed (σ.ingest cfg d now terrain).1 "" := by
  have hk : Keyed (σ.settled cfg d (d.seen now)) d.identity.mac := h.settled hσ d (d.seen now)
  have hw := hσ.settled cfg d (d.seen now)
  refine ingest_elim cfg σ d now terrain (P := fun s _ ↦ Keyed s "") (fun _ ↦ h) ?_ ?_ ?_
  · intro _ t ht
    have hf := ((continues_eq_some cfg σ d _).mp ht).1
    have hfin : σ.finishes cfg d (d.seen now) = none := by
      cases hfin : σ.finishes cfg d (d.seen now) with
      | none => rfl
      | some a =>
        have ha := (finishes_eq_some cfg σ d _).mp hfin
        rw [hf, Option.some_inj] at ha
        exact absurd (ha.1 ▸ ha.2) ((continues_eq_some cfg σ d _).mp ht).2
    have hres := h.resolve hσ d.identity.serial d.identity.mac
    rw [settled_eq, hfin] at hk hw ⊢
    dsimp only at hk hw ⊢
    -- a track without a serial that is found by a detection with one adopts it in the lookup
    by_cases had : σ.adopts d.identity.serial d.identity.mac = some t
    · have hser : ((σ.resolve d.identity.serial d.identity.mac).1.heap t).identity.serial =
          d.identity.serial := by rw [resolve_heap, if_pos had]; rfl
      refine hk.foldIn hw _ _ _ (fun _ ↦ ?_) fun h0 hne ↦ absurd (hser.symm.trans h0) hne
      rw [hser, resolve_bySerial, if_pos rfl, had]
      rfl
    · have hheap : (σ.resolve d.identity.serial d.identity.mac).1.heap t = σ.heap t := by
        rw [resolve_heap, if_neg had]
      refine hk.foldIn hw _ _ _ (fun hne ↦ ?_) fun h0 hne ↦ ?_
      · rw [hheap] at hne ⊢
        exact resolve_bySerial_of_some (h.of_found hσ hf hne)
      · rw [hheap] at h0
        rcases Option.or_eq_some_iff.mp hf with hs | ⟨hs, hm⟩
        · have hs := (find_eq_some.mp hs).2
          exact absurd ((hσ.bySerial _ _ hs).2.2.symm.trans h0) hne
        · rw [find_of_ne _ hne] at hs
          exact absurd (adopts_eq_some.mpr ⟨⟨hne, hs⟩, hm, h0⟩) had
  · intro hi c hc hrc
    have hnone := fun hne ↦ settled_bySerial_eq_none hσ hc hne
    have hcl := hσ.closed_of_resolveClosed ((rejoins_eq_some cfg σ d _).mp hrc).1
    have hcs : (σ.settled cfg d (d.seen now)).heap c = σ.heap c := by
      rw [settled_heap, if_neg fun had ↦ hcl.1 (hσ.adopts_mem had)]
    have hcfree : ((σ.settled cfg d (d.seen now)).heap c).identity.serial ≠ "" →
        (σ.settled cfg d (d.seen now)).bySerial.get
          ((σ.settled cfg d (d.seen now)).heap c).identity.serial = none := by
      rw [hcs]
      exact settled_bySerial_of_free hσ hnone (hfree hi hc c hrc)
    have hkeep : ((σ.settled cfg d (d.seen now)).reopen c).heap c =
        { σ.heap c with state := .coasting } := by rw [reopen_heap, Function.update_self, hcs]
    refine (hk.reopen hcfree).foldIn (hw.reopen (hcl.settled cfg d _)) _ _ _ (fun hne ↦ ?_)
      fun h0 hne ↦ ?_
    · rw [hkeep] at hne ⊢
      rw [reopen_bySerial, hcs]
      exact if_pos ⟨rfl, hne⟩
    · rw [hkeep] at h0
      rw [reopen_bySerial, hcs, if_neg fun hkey ↦ hkey.2 (hkey.1.trans h0)]
      exact hnone hne
  · intro _ hc _
    have hnone := fun hne ↦ settled_bySerial_eq_none hσ hc hne
    have hnew : ((σ.settled cfg d (d.seen now)).mint cfg d (d.seen now)).heap σ.next =
        blank cfg d (d.seen now) σ.next := by
      rw [mint_heap, settled_next, Function.update_self]
    refine (hk.mint hw hnone _).foldIn (hw.mint cfg d _) _ _ _ (fun hne ↦ ?_) fun h0 hne ↦ ?_
    · rw [hnew] at hne ⊢
      rw [mint_bySerial, settled_next]
      exact if_pos ⟨rfl, hne⟩
    · rw [hnew] at h0
      exact absurd h0 hne

theorem reap (h : Keyed σ "") (hσ : WellIndexed σ "") {now : GoTime} {order : List Ref}
    (hok : order.Perm σ.all) (hfree : SerialFree cfg σ (.reap now order)) :
    Keyed (σ.reap cfg now order).1 "" := by
  have hid : ∀ r, ((σ.reap cfg now order).1.heap r).identity = (σ.heap r).identity := fun r ↦ by
    rw [reap_heap cfg hok hσ.nodup]; split <;> rfl
  intro m r hm hm0 hne
  rw [reap_byMAC cfg hok hσ.nodup] at hm
  rw [hid] at hne ⊢
  split at hm
  · cases hm
  rename_i hopen
  have hk := h m r hm hm0 hne
  have ho := hσ.byMAC _ _ hm
  rw [reap_bySerial cfg hok hσ.nodup, if_neg, hk]
  rintro ⟨a, ha, hc, heq, -⟩
  -- the closing track shares the serial, so the track it is indexed for closes with it
  have hcr := hfree a ha hc r (heq ▸ hk)
  exact hopen ⟨r, ho.2.1, hcr, ho.2.2.resolve_left hm0⟩

theorem apply (h : Keyed σ "") (hσ : WellIndexed σ "") {op : Op} (hok : op.Ok σ)
    (hfree : SerialFree cfg σ op) : Keyed (op.apply cfg σ) "" := by
  cases op with
  | ingest d now terrain => exact h.ingest hσ hfree
  | reap now order => exact h.reap hσ hok hfree
  | correlateContacts contacts =>
    have hid : ∀ r, ((σ.correlateContacts cfg contacts).1.heap r).identity =
        (σ.heap r).identity := fun r ↦ by
      rw [correlateContacts_heap cfg contacts hσ.nodup]; split <;> rfl
    rw [Op.apply, correlateContacts_frame]
    intro m r hm hm0 hne
    dsimp only at hm hne ⊢
    rw [hid] at hne ⊢
    exact h m r hm hm0 hne

end Keyed

/-! ## Well-formed indexes of a run -/

/-- **The indexes are well formed and no serial is shared**, in every state of a run whose calls
are `SerialFree`. -/
theorem wellFormed_of_run {tr : List (Machine.Step TrackStore Op)} {σ : TrackStore}
    (h : (storeMachine cfg).Run tr σ) (hfree : ∀ x ∈ tr, SerialFree cfg x.pre x.act) :
    WellFormed σ := by
  have hinv := h.invariant_of (C := fun s op ↦ SerialFree cfg s op)
    (I := fun s ↦ WellIndexed s "" ∧ Keyed s "") hfree ?_ ?_
  · obtain ⟨hw, hk⟩ := hinv
    exact ⟨hw.bySerial.mono fun _ _ _ ho ↦ ho.2,
      hw.byMAC.mono fun _ _ _ ho ↦ ⟨ho.2.1, ho.2.2.resolve_left ho.1⟩,
      hw.closedBySerial.mono fun _ _ _ ho ↦ ⟨ho.1.2.2, ho.1.1⟩,
      hw.closedByMAC.mono fun _ _ _ ho ↦ ⟨ho.1.2.2, ho.1.1⟩,
      fun r r' hr hr' hne heq ↦ hk.unique hw hr hr' hne heq⟩
  · rintro s rfl
    exact ⟨.init, .empty _⟩
  · rintro s op s' ⟨hw, hk⟩ hf ⟨hok, rfl⟩
    exact ⟨hw.apply cfg hok, hk.apply hw hok hf⟩

/-- A flight under one MAC closes, a second take-off of the same serial is heard on another MAC. -/
def secondMAC : List Op :=
  takeOff "S" "m0" ++ [.reapAt 400 [0], .ingestAt 410 (heard "S" "m1" 410)]

theorem secondMAC_wellFormed : WellFormed (after defaultConfig secondMAC) :=
  wellFormed_of_run defaultConfig (run_after (by decide +kernel)) (by decide +kernel)

/-- **Reopening by MAC gives a serial a second owner.**  The first flight is heard again in the
air on its MAC alone: both flights are live, both are indexed, and both carry the serial. -/
theorem serial_shared :
    let ops := secondMAC ++ [.ingestAt 420 ((heard "" "m0" 420).above 427)]
    (storeMachine defaultConfig).Run (stepsOf defaultConfig ops) (after defaultConfig ops) ∧
      Ascending (stepsOf defaultConfig ops) ∧ ¬ WellFormed (after defaultConfig ops) := by
  refine ⟨run_after (by decide), by decide, fun h ↦ ?_⟩
  exact absurd (h.unique 0 1 (.inr ⟨"m0", by decide +kernel⟩) (.inr ⟨"m1", by decide +kernel⟩)
    (by decide +kernel) (by decide +kernel)) (by decide)

end ClassG.Fusion.TrackStore
