import ClassG.Fusion.Closing

/-!
# What holds a track suppressed

The track store and the contact store together, under any interleaving of their calls.  A pass of
`CorrelateContacts` takes the contacts that are active at that moment and decides the flag of every
live track anew, so a flag that is set should always be explained by the last pass: some contact
matched the track's fix then (`Explained`).

It is, except for one path.  A pass looks at live tracks only, and a flight that closes with its
flag set keeps it while it is remembered; `reopen` puts it back among the live tracks as it was,
and however many passes have found nothing in the meantime, it re-enters suppressed.  The result,
`flags_explained_iff`, is that the flags are explained in every state of a run exactly if no
detection rejoins a flight whose flag the last pass does not explain.
-/

set_option autoImplicit false

namespace ClassG.Fusion

open TrackStore

variable (cfg : Config) (cc : ContactConfig)

/-- The two stores of the fusion service. -/
structure Stores where
  tracks : TrackStore := {}
  contacts : ContactStore := {}

/-- A call on one of the stores. -/
inductive Call
  | ingest (d : Detection) (now : GoTime) (terrain : TerrainResolver)
  | reap (now : GoTime) (order : List Ref)
  | observe (d : Detection)
  | reapContacts (now : GoTime)
  /-- `CorrelateContacts(contacts.Active())`. -/
  | correlate

namespace Call

/-- What the call asks of the track store, if anything. -/
def op (s : Stores) : Call → Option Op
  | ingest d now terrain => some (.ingest d now terrain)
  | reap now order => some (.reap now order)
  | observe _ => none
  | reapContacts _ => none
  | correlate => some (.correlateContacts s.contacts.active)

/-- The contacts after the call. -/
def contactsAfter (s : Stores) : Call → ContactStore
  | observe d => (s.contacts.observe cc d).1
  | reapContacts now => (s.contacts.reap cc now).1
  | _ => s.contacts

/-- The stores after the call. -/
def apply (s : Stores) (c : Call) : Stores where
  tracks := ((c.op s).map (Op.apply cfg s.tracks)).getD s.tracks
  contacts := c.contactsAfter cc s

/-- `Reap` visits every live track once. -/
def Ok (s : Stores) : Call → Prop
  | reap _ order => order.Perm s.tracks.all
  | _ => True

instance (s : Stores) : (c : Call) → Decidable (c.Ok s)
  | ingest _ _ _ => .isTrue trivial
  | reap _ order => inferInstanceAs (Decidable (order.Perm s.tracks.all))
  | observe _ => .isTrue trivial
  | reapContacts _ => .isTrue trivial
  | correlate => .isTrue trivial

/-- The call is a pass of `CorrelateContacts`. -/
def isPass : Call → Bool
  | correlate => true
  | _ => false

end Call

/-- The two stores as a machine. -/
def storesMachine : Machine Stores Call where
  init s := s = {}
  next s c s' := c.Ok s ∧ s' = c.apply cfg cc s

/-- A call that does not touch the track store leaves it, and any other is one of its own. -/
theorem tracks_apply (s : Stores) (c : Call) :
    (c.op s = none ∧ (c.apply cfg cc s).tracks = s.tracks) ∨
      ∃ op, c.op s = some op ∧ (c.apply cfg cc s).tracks = op.apply cfg s.tracks := by
  cases h : c.op s with
  | none => exact .inl ⟨rfl, by simp [Call.apply, h]⟩
  | some op => exact .inr ⟨op, rfl, by simp [Call.apply, h]⟩

theorem ok_of_op {s : Stores} {c : Call} {op : Op} (hc : c.Ok s) (h : c.op s = some op) :
    op.Ok s.tracks := by
  cases c with
  | reap now order => cases h; exact hc
  | ingest d now terrain => cases h; trivial
  | correlate => cases h; trivial
  | observe d => cases h
  | reapContacts now => cases h

theorem tracks_wellIndexed {tr : List (Machine.Step Stores Call)} {s : Stores}
    (h : (storesMachine cfg cc).Run tr s) : WellIndexed s.tracks "" := by
  refine h.invariant (I := fun s ↦ WellIndexed s.tracks "") ?_ ?_
  · rintro s rfl; exact .init
  · rintro s c s' hi ⟨hok, rfl⟩
    rcases tracks_apply cfg cc s c with ⟨-, ht⟩ | ⟨op, hop, ht⟩
    · rw [ht]; exact hi
    · rw [ht]; exact hi.apply cfg (ok_of_op hok hop)

/-! ## Explained flags -/

/-- Some contact matched the track in the most recent pass. -/
def Matched (tr : List (Machine.Step Stores Call)) (r : Ref) : Prop :=
  ∃ x ∈ tr.find? fun x ↦ x.act.isPass, r ∈ x.pre.tracks.all ∧
    matchesAny cfg x.pre.contacts.active (x.pre.tracks.heap r) = true

instance (tr : List (Machine.Step Stores Call)) (r : Ref) : Decidable (Matched cfg tr r) :=
  inferInstanceAs (Decidable (∃ _ ∈ _, _))

/-- Every flag that is set on a live track was set by the most recent pass. -/
def Explained (tr : List (Machine.Step Stores Call)) (s : Stores) : Prop :=
  ∀ r ∈ s.tracks.all, (s.tracks.heap r).adsbCorrelated = true → Matched cfg tr r

/-- The call rejoins no closed flight whose flag is set without the most recent pass having
matched it. -/
def RejoinsExplained (tr : List (Machine.Step Stores Call)) (s : Stores) : Call → Prop
  | .ingest d now _ => ¬ Ignored d → s.tracks.continues cfg d (d.seen now) = none →
      ∀ c ∈ s.tracks.rejoins cfg d (d.seen now),
        (s.tracks.heap c).adsbCorrelated = true → Matched cfg tr c
  | _ => True

instance (tr : List (Machine.Step Stores Call)) (s : Stores) :
    (c : Call) → Decidable (RejoinsExplained cfg tr s c)
  | .ingest _ _ _ => inferInstanceAs (Decidable (_ → _))
  | .reap _ _ => .isTrue trivial
  | .observe _ => .isTrue trivial
  | .reapContacts _ => .isTrue trivial
  | .correlate => .isTrue trivial

theorem matched_cons_of_not_pass {x : Machine.Step Stores Call} (hx : x.act.isPass = false)
    (tr : List (Machine.Step Stores Call)) (r : Ref) :
    Matched cfg (x :: tr) r ↔ Matched cfg tr r := by
  rw [Matched, Matched, List.find?_cons_of_neg (by simp [hx])]

theorem matched_cons_of_pass {x : Machine.Step Stores Call} (hx : x.act.isPass = true)
    (tr : List (Machine.Step Stores Call)) (r : Ref) :
    Matched cfg (x :: tr) r ↔ r ∈ x.pre.tracks.all ∧
      matchesAny cfg x.pre.contacts.active (x.pre.tracks.heap r) = true := by
  have hfind : List.find? (fun x ↦ x.act.isPass) (x :: tr) = some x := List.find?_cons_of_pos hx
  rw [Matched, hfind]
  simp

/-- Folding a detection in keeps the flag: of a new track it is clear, of any other as it was. -/
theorem ingest_adsbCorrelated {σ : TrackStore} {d : Detection} {now : GoTime}
    {terrain : TerrainResolver} (hi : ¬ Ignored d) {r : Ref} (hr : r < σ.next) :
    ((σ.ingest cfg d now terrain).1.heap r).adsbCorrelated = (σ.heap r).adsbCorrelated := by
  have hsettled : ((σ.settled cfg d (d.seen now)).heap r).adsbCorrelated =
      (σ.heap r).adsbCorrelated := by
    rw [settled_heap]; split <;> rfl
  rw [ingest_heap cfg σ now terrain hi]
  split
  · rename_i htrack
    rw [ingest_snd cfg σ now terrain hi, Option.some_inj] at htrack
    rw [absorbed, Track.absorb_adsbCorrelated, joined]
    cases hc : σ.continues cfg d (d.seen now) with
    | some _ => exact hsettled
    | none =>
      cases hj : σ.rejoins cfg d (d.seen now) with
      | some _ => exact hsettled
      | none =>
        rw [hc, hj] at htrack
        exact absurd htrack hr.ne'
  · exact hsettled

theorem ingest_adsbCorrelated_new {σ : TrackStore} {d : Detection} {now : GoTime}
    {terrain : TerrainResolver} (hi : ¬ Ignored d)
    (htrack : (σ.ingest cfg d now terrain).2 = some σ.next)
    (hc : σ.continues cfg d (d.seen now) = none) (hj : σ.rejoins cfg d (d.seen now) = none) :
    ((σ.ingest cfg d now terrain).1.heap σ.next).adsbCorrelated = false := by
  rw [ingest_heap cfg σ now terrain hi, if_pos htrack, absorbed, Track.absorb_adsbCorrelated,
    joined, hc, hj]
  rfl

/-- An `Ingest` keeps the flags explained exactly if it rejoins no flight whose flag is not. -/
theorem explained_ingest_iff {tr : List (Machine.Step Stores Call)} {s : Stores}
    (hs : WellIndexed s.tracks "") (he : Explained cfg tr s) {d : Detection} {now : GoTime}
    {terrain : TerrainResolver} :
    Explained cfg tr ((Call.ingest d now terrain).apply cfg cc s) ↔
      RejoinsExplained cfg tr s (.ingest d now terrain) := by
  have htracks : ((Call.ingest d now terrain).apply cfg cc s).tracks =
      (s.tracks.ingest cfg d now terrain).1 := rfl
  rw [Explained, htracks]
  constructor
  · intro h hi hc c hj hflag
    have hoff := hs.closed_of_resolveClosed
      ((rejoins_eq_some cfg s.tracks d (d.seen now)).mp hj).1
    refine h c ?_ ?_
    · refine ingest_elim cfg s.tracks d now terrain (P := fun σ _ ↦ c ∈ σ.all)
        (fun h ↦ absurd h hi) (fun _ r hr ↦ ?_) (fun _ c' _ hj' ↦ ?_) fun _ _ hj' ↦ ?_
      · rw [hc] at hr; cases hr
      · rw [hj'] at hj
        rw [foldIn_all, reopen_all]
        exact List.mem_insert_iff.mpr (.inl (Option.some_inj.mp hj).symm)
      · rw [hj'] at hj; cases hj
    · rw [ingest_adsbCorrelated cfg hi hoff.2.1]
      exact hflag
  · intro h r hr hflag
    by_cases hi : Ignored d
    · rw [ingest_of_ignored cfg s.tracks now terrain hi] at hr hflag
      exact he r hr hflag
    by_cases hm : r ∈ s.tracks.all
    · rw [ingest_adsbCorrelated cfg hi (hs.lt_next r hm)] at hflag
      exact he r hm hflag
    -- the only track that can have become live is the one the detection went to
    have htrack := (mem_all_of_ingest cfg hr).resolve_left hm
    have htrack' := htrack
    rw [ingest_snd cfg s.tracks now terrain hi, Option.some_inj] at htrack'
    cases hc : s.tracks.continues cfg d (d.seen now) with
    | some t =>
      rw [hc] at htrack'
      have ht := hs.found_mem ((continues_eq_some cfg s.tracks d _).mp hc).1
      exact absurd (htrack' ▸ ht) hm
    | none =>
      cases hj : s.tracks.rejoins cfg d (d.seen now) with
      | some c =>
        rw [hc, hj] at htrack'
        have hoff := hs.closed_of_resolveClosed
          ((rejoins_eq_some cfg s.tracks d (d.seen now)).mp hj).1
        have hback : c = r := htrack'
        subst hback
        rw [ingest_adsbCorrelated cfg hi hoff.2.1] at hflag
        exact h hi hc c hj hflag
      | none =>
        rw [hc, hj] at htrack'
        have hnew : s.tracks.next = r := htrack'
        subst hnew
        rw [ingest_adsbCorrelated_new cfg hi htrack hc hj] at hflag
        cases hflag

/-- **One call** keeps the flags explained exactly if it rejoins no flight whose flag is not. -/
theorem explained_apply_iff {tr : List (Machine.Step Stores Call)} {s : Stores}
    (hs : WellIndexed s.tracks "") (he : Explained cfg tr s) {c : Call} (hok : c.Ok s) :
    Explained cfg (⟨s, c, c.apply cfg cc s⟩ :: tr) (c.apply cfg cc s) ↔
      RejoinsExplained cfg tr s c := by
  have hold : c.isPass = false → (Explained cfg (⟨s, c, c.apply cfg cc s⟩ :: tr)
      (c.apply cfg cc s) ↔ Explained cfg tr (c.apply cfg cc s)) := fun hp ↦ by
    simp only [Explained, matched_cons_of_not_pass cfg (x := ⟨s, c, c.apply cfg cc s⟩) hp]
  cases c with
  | ingest d now terrain => exact (hold rfl).trans (explained_ingest_iff cfg cc hs he)
  | observe d => exact (hold rfl).trans (iff_of_true he trivial)
  | reapContacts now => exact (hold rfl).trans (iff_of_true he trivial)
  | reap now order =>
    refine (hold rfl).trans (iff_of_true (fun r hr hflag ↦ ?_) trivial)
    have htracks : ((Call.reap now order).apply cfg cc s).tracks =
        (s.tracks.reap cfg now order).1 := rfl
    rw [htracks] at hr hflag
    rw [reap_all cfg hok hs.nodup, List.mem_filter] at hr
    rw [reap_heap cfg hok hs.nodup, if_pos hr.1] at hflag
    exact he r hr.1 hflag
  | correlate =>
    refine iff_of_true (fun r hr hflag ↦ (matched_cons_of_pass cfg rfl tr r).mpr ?_) trivial
    have htracks : (Call.correlate.apply cfg cc s).tracks =
        (s.tracks.correlateContacts cfg s.contacts.active).1 := rfl
    rw [htracks] at hr hflag
    rw [correlateContacts_frame] at hr
    rw [correlateContacts_heap cfg _ hs.nodup, if_pos hr] at hflag
    exact ⟨hr, hflag⟩

/-- **Suppression is explained by the last pass, except across a rejoin.**  In a run of the two
stores, every live track that is flagged was matched by a contact in the most recent pass, in each
of the states of the run, if and only if no detection rejoins a closed flight that is flagged
without having been matched in the pass that was then the most recent. -/
theorem flags_explained_iff {tr : List (Machine.Step Stores Call)} {s : Stores}
    (h : (storesMachine cfg cc).Run tr s) :
    Machine.Always (fun older x ↦ Explained cfg (x :: older) x.post) tr ↔
      Machine.Always (fun older x ↦ RejoinsExplained cfg older x.pre x.act) tr := by
  refine h.always_iff ?_ ?_
  · rintro s rfl r hr
    cases hr
  · rintro tr s c s' hr he ⟨hok, rfl⟩
    exact explained_apply_iff cfg cc (tracks_wellIndexed cfg cc hr) he hok

/-! ### A stale flag -/

/-- The calls `calls`, latest first. -/
def callsOf (cs : List Call) : List (Machine.Step Stores Call) :=
  Machine.replaySteps (fun s c ↦ c.apply defaultConfig {} s) {} cs []

/-- The stores after the calls. -/
def storesAfter (cs : List Call) : Stores :=
  Machine.replay (fun s c ↦ c.apply defaultConfig {} s) {} cs

theorem run_storesAfter {cs : List Call}
    (h : Machine.Admits (fun s c ↦ c.apply defaultConfig {} s) (fun s c ↦ c.Ok s) {} cs) :
    (storesMachine defaultConfig {}).Run (callsOf cs) (storesAfter cs) :=
  Machine.Run.replay (M := storesMachine defaultConfig {}) (fun _ _ hok ↦ ⟨hok, rfl⟩) cs
    (.init rfl) h

/-- An aircraft that sends Remote ID and ADS-B takes off, is matched, and both fall silent. -/
def matchedFlight : List Call :=
  [.ingest ((heard "S" "" 1).above 47) (clock 1) fun _ _ _ ↦ none,
    .ingest ((heard "S" "" 4).above 60) (clock 4) fun _ _ _ ↦ none,
    .observe { (heard "" "" 4).above 60 with
      detectionClass := classADSB, adsb := some { icao := "A1B2C3" } },
    .correlate, .reapContacts (clock 400), .reap (clock 400) [0], .correlate]

theorem matchedFlight_explained :
    Machine.Always (fun older x ↦ Explained defaultConfig (x :: older) x.post)
      (callsOf matchedFlight) :=
  (flags_explained_iff defaultConfig {} (run_storesAfter (by decide +kernel))).mpr
    (by decide)

/-- **The flight comes back suppressed** although its contact has expired and the last pass
matched nothing. -/
theorem reopened_suppressed :
    let calls := matchedFlight ++
      [.ingest ((heard "S" "" 500).above 427) (clock 500) fun _ _ _ ↦ none]
    (storesMachine defaultConfig {}).Run (callsOf calls) (storesAfter calls) ∧
      0 ∈ (storesAfter calls).tracks.all ∧
      ((storesAfter calls).tracks.heap 0).adsbCorrelated = true ∧
      (storesAfter calls).contacts.active = [] ∧
      ¬ Explained defaultConfig (callsOf calls) (storesAfter calls) := by
  refine ⟨run_storesAfter (by decide +kernel), by decide +kernel, by decide +kernel,
    by decide, fun h ↦ ?_⟩
  exact absurd (h 0 (by decide +kernel) (by decide +kernel)) (by decide +kernel)

end ClassG.Fusion
