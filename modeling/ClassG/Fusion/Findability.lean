import ClassG.Fusion.Index

/-!
# Which calls an index entry survives

An open flight is worth tracking only as long as its next detection finds it.  The entry under its
serial, or under the MAC it was last heard on, should go when the flight itself is over and not
before: `KeepsEntries` says so of one call, and `Findable` says what an entry is good for.

`unindex` and `Reap` delete by key, not by owner.  A finished flight that a second take-off left
behind in `all` still carries the serial of the flight that replaced it, and when the timer closes
the first, the second is lost from the index.  `KeysStillOwn` is the condition under which
deleting by key deletes no other track's entry, and `entries_kept` is the result for the runs
whose calls all meet it.
-/

set_option autoImplicit false

namespace ClassG.Fusion.TrackStore

variable (cfg : Config)

/-- The call unindexes or closes this track. -/
def Ends (σ : TrackStore) : Op → Ref → Prop
  | .ingest d now _, r => ¬ Ignored d ∧ σ.finishes cfg d (d.seen now) = some r
  | .reap now _, r => r ∈ σ.all ∧ Closes cfg now (σ.heap r)
  | .correlateContacts _, _ => False

instance (σ : TrackStore) : (op : Op) → (r : Ref) → Decidable (Ends cfg σ op r)
  | .ingest _ _ _, _ => inferInstanceAs (Decidable (_ ∧ _))
  | .reap _ _, _ => inferInstanceAs (Decidable (_ ∧ _))
  | .correlateContacts _, _ => .isFalse id

/-- The call keeps the entries of every track it does not end: each still points at its track, or
the call has given the key to the track its detection went to. -/
structure KeepsEntries (σ : TrackStore) (op : Op) (σ' : TrackStore) : Prop where
  bySerial : ∀ k r, σ.bySerial.get k = some r → ¬ Ends cfg σ op r →
    σ'.bySerial.get k = some r ∨ ∃ t, op.track cfg σ = some t ∧ σ'.bySerial.get k = some t
  byMAC : ∀ k r, σ.byMAC.get k = some r → ¬ Ends cfg σ op r →
    σ'.byMAC.get k = some r ∨ ∃ t, op.track cfg σ = some t ∧ σ'.byMAC.get k = some t

/-- An indexed track is found: the next detection carrying its serial, or its MAC and no serial
that is another live track's, is folded into it while its flight lasts. -/
structure Findable (σ : TrackStore) : Prop where
  bySerial : ∀ d now terrain r, d.detectionClass ≠ classADSB →
    σ.bySerial.get d.identity.serial = some r → ¬ flightIsOver cfg (σ.heap r) (d.seen now) →
    (σ.ingest cfg d now terrain).2 = some r
  byMAC : ∀ d now terrain r, d.detectionClass ≠ classADSB →
    find σ.bySerial d.identity.serial = none → σ.byMAC.get d.identity.mac = some r →
    ¬ flightIsOver cfg (σ.heap r) (d.seen now) → (σ.ingest cfg d now terrain).2 = some r

/-- No key of a track the call ends is indexed for a track it does not end.  The MAC of the
detection itself does not count: whoever has it, the call gives it to the detection's track. -/
def KeysStillOwn (σ : TrackStore) (op : Op) : Prop :=
  ∀ a ∈ σ.all, Ends cfg σ op a →
    (∀ r ∈ σ.bySerial.get (σ.heap a).identity.serial, Ends cfg σ op r) ∧
      ∀ m ∈ (σ.heap a).identity.macs, m ≠ op.mac → ∀ r ∈ σ.byMAC.get m, Ends cfg σ op r

instance (σ : TrackStore) (op : Op) : Decidable (KeysStillOwn cfg σ op) :=
  inferInstanceAs (Decidable (∀ _ ∈ _, _ → _))

/-! ## An indexed track is found -/

theorem WellIndexed.findable {σ : TrackStore} (h : WellIndexed σ "") : Findable cfg σ where
  bySerial d now terrain r hd hs ho := by
    have hne := (h.bySerial _ _ hs).1
    have hc : σ.continues cfg d (d.seen now) = some r :=
      (continues_eq_some cfg σ d _).mpr
        ⟨by rw [found, find_of_ne _ hne, hs, Option.some_or], fun hf ↦ ho hf.1⟩
    rw [ingest_snd cfg σ now terrain (not_or.mpr ⟨hd, fun hi ↦ hne hi.1⟩), hc]
    rfl
  byMAC d now terrain r hd hs hm ho := by
    have hne := (h.byMAC _ _ hm).1
    have hc : σ.continues cfg d (d.seen now) = some r :=
      (continues_eq_some cfg σ d _).mpr
        ⟨by rw [found, hs, find_of_ne _ hne, hm, Option.none_or], fun hf ↦ ho hf.1⟩
    rw [ingest_snd cfg σ now terrain (not_or.mpr ⟨hd, fun hi ↦ hne hi.2⟩), hc]
    rfl

/-! ## What a call does to the entries of other tracks -/

section entries

variable {cfg} {σ : TrackStore} {d : Detection} {seen : GoTime} {k : String} {r : Ref}

/-- Settling the lookup keeps every serial entry that no finished track shares. -/
theorem settled_bySerial_of_some (h : σ.bySerial.get k = some r)
    (hown : ∀ a, σ.finishes cfg d seen = some a → k = (σ.heap a).identity.serial → False) :
    (σ.settled cfg d seen).bySerial.get k = some r := by
  rw [settled_eq]
  split
  · rename_i a ha
    rw [unindex_bySerial, resolve_heap]
    by_cases hadopt : σ.adopts d.identity.serial d.identity.mac = some a
    · -- a serial adopted by this lookup was in nobody's entry
      have hks : k ≠ d.identity.serial := by
        rintro rfl
        rw [(adopts_eq_some.mp hadopt).1.2] at h
        cases h
      rw [if_pos hadopt, if_neg fun hk ↦ hks hk.1]
      exact resolve_bySerial_of_some h
    · rw [if_neg hadopt, if_neg fun hk ↦ hown a ha hk.1]
      exact resolve_bySerial_of_some h
  · exact resolve_bySerial_of_some h

/-- Settling the lookup keeps every MAC entry that no finished track shares, other than the one
under the detection's own MAC. -/
theorem settled_byMAC_of_some (h : σ.byMAC.get k = some r) (hk : k ≠ d.identity.mac)
    (hown : ∀ a, σ.finishes cfg d seen = some a → k ∈ (σ.heap a).identity.macs → False) :
    (σ.settled cfg d seen).byMAC.get k = some r := by
  rw [settled_eq]
  split
  · rename_i a ha
    have hmacs : ((σ.resolve d.identity.serial d.identity.mac).1.heap a).identity.macs =
        (σ.heap a).identity.macs := by rw [resolve_heap]; split <;> rfl
    rw [unindex_byMAC, hmacs, if_neg fun hm ↦ hown a ha hm, resolve_byMAC_of_ne hk, h]
  · rw [resolve_byMAC_of_ne hk, h]

variable (now : GoTime) (terrain : TerrainResolver) (t : Ref)

theorem foldIn_bySerial_of_some (h : σ.bySerial.get k = some r ∨ σ.bySerial.get k = some t) :
    (σ.foldIn cfg t d seen now terrain).bySerial.get k = some r ∨
      (σ.foldIn cfg t d seen now terrain).bySerial.get k = some t := by
  rw [foldIn_bySerial]; split
  · exact .inr rfl
  · exact h

theorem foldIn_byMAC_of_some (h : σ.byMAC.get k = some r ∨ σ.byMAC.get k = some t) :
    (σ.foldIn cfg t d seen now terrain).byMAC.get k = some r ∨
      (σ.foldIn cfg t d seen now terrain).byMAC.get k = some t := by
  rw [foldIn_byMAC]; split
  · exact .inr rfl
  · exact h

end entries

theorem keepsEntries_ingest {σ : TrackStore} (hσ : WellIndexed σ "") {d : Detection}
    {now : GoTime} {terrain : TerrainResolver} (hown : KeysStillOwn cfg σ (.ingest d now terrain)) :
    KeepsEntries cfg σ (.ingest d now terrain) (σ.ingest cfg d now terrain).1 := by
  by_cases hi : Ignored d
  · rw [ingest_of_ignored cfg σ now terrain hi]
    exact ⟨fun k r hk _ ↦ .inl hk, fun k r hk _ ↦ .inl hk⟩
  have hfin : ∀ a, σ.finishes cfg d (d.seen now) = some a → a ∈ σ.all := fun a ha ↦
    hσ.found_mem ((finishes_eq_some cfg σ d _).mp ha).1
  have hserial : ∀ k r, σ.bySerial.get k = some r → ¬ Ends cfg σ (.ingest d now terrain) r →
      (σ.settled cfg d (d.seen now)).bySerial.get k = some r := fun k r hk hr ↦
    settled_bySerial_of_some hk fun a ha hka ↦ hr ((hown a (hfin a ha) ⟨hi, ha⟩).1 r (hka ▸ hk))
  have hmac : ∀ k r, k ≠ d.identity.mac → σ.byMAC.get k = some r →
      ¬ Ends cfg σ (.ingest d now terrain) r →
      (σ.settled cfg d (d.seen now)).byMAC.get k = some r := fun k r hne hk hr ↦
    settled_byMAC_of_some hk hne fun a ha hka ↦
      hr ((hown a (hfin a ha) ⟨hi, ha⟩).2 k hka hne r hk)
  -- the detection's own MAC goes to the detection's track in every case
  have hpending : ∀ (s : TrackStore) (t : Ref) k r, σ.byMAC.get k = some r →
      k = d.identity.mac →
      (s.foldIn cfg t d (d.seen now) now terrain).byMAC.get k = some t := fun s t k r hk hkm ↦ by
    rw [foldIn_byMAC, if_pos ⟨hkm, (hσ.byMAC _ _ hk).1⟩]
  suffices hall : ∀ s o, s = (σ.ingest cfg d now terrain).1 → o = (σ.ingest cfg d now terrain).2 →
      ∃ t, o = some t ∧
        (∀ k r, σ.bySerial.get k = some r → ¬ Ends cfg σ (.ingest d now terrain) r →
          s.bySerial.get k = some r ∨ s.bySerial.get k = some t) ∧
        ∀ k r, σ.byMAC.get k = some r → ¬ Ends cfg σ (.ingest d now terrain) r →
          s.byMAC.get k = some r ∨ s.byMAC.get k = some t by
    obtain ⟨t, ht, hs, hm⟩ := hall _ _ rfl rfl
    exact ⟨fun k r hk hr ↦ (hs k r hk hr).imp_right fun h ↦ ⟨t, ht, h⟩,
      fun k r hk hr ↦ (hm k r hk hr).imp_right fun h ↦ ⟨t, ht, h⟩⟩
  rintro s o rfl rfl
  refine ingest_elim cfg σ d now terrain
    (P := fun s o ↦ ∃ t, o = some t ∧
      (∀ k r, σ.bySerial.get k = some r → ¬ Ends cfg σ (.ingest d now terrain) r →
        s.bySerial.get k = some r ∨ s.bySerial.get k = some t) ∧
      ∀ k r, σ.byMAC.get k = some r → ¬ Ends cfg σ (.ingest d now terrain) r →
        s.byMAC.get k = some r ∨ s.byMAC.get k = some t)
    (fun h ↦ absurd h hi) ?_ ?_ ?_
  · intro _ t _
    refine ⟨t, rfl, fun k r hk hr ↦ ?_, fun k r hk hr ↦ ?_⟩
    · exact foldIn_bySerial_of_some now terrain t (.inl (hserial k r hk hr))
    · by_cases hkm : k = d.identity.mac
      · exact .inr (hpending _ t k r hk hkm)
      · exact foldIn_byMAC_of_some now terrain t (.inl (hmac k r hkm hk hr))
  · intro _ c _ _
    refine ⟨c, rfl, fun k r hk hr ↦ ?_, fun k r hk hr ↦ ?_⟩
    · refine foldIn_bySerial_of_some now terrain c ?_
      rw [reopen_bySerial]; split
      · exact .inr rfl
      · exact .inl (hserial k r hk hr)
    · by_cases hkm : k = d.identity.mac
      · exact .inr (hpending _ c k r hk hkm)
      · refine foldIn_byMAC_of_some now terrain c ?_
        rw [reopen_byMAC]; split
        · exact .inr rfl
        · exact .inl (hmac k r hkm hk hr)
  · intro _ _ _
    refine ⟨σ.next, rfl, fun k r hk hr ↦ ?_, fun k r hk hr ↦ ?_⟩
    · refine foldIn_bySerial_of_some now terrain _ ?_
      rw [mint_bySerial, settled_next]; split
      · exact .inr rfl
      · exact .inl (hserial k r hk hr)
    · by_cases hkm : k = d.identity.mac
      · exact .inr (hpending _ _ k r hk hkm)
      · exact foldIn_byMAC_of_some now terrain _ (.inl (hmac k r hkm hk hr))

theorem keepsEntries_reap {σ : TrackStore} (hσ : WellIndexed σ "") {now : GoTime}
    {order : List Ref} (hok : order.Perm σ.all) (hown : KeysStillOwn cfg σ (.reap now order)) :
    KeepsEntries cfg σ (.reap now order) (σ.reap cfg now order).1 where
  bySerial k r hk hr := by
    rw [reap_bySerial cfg hok hσ.nodup, if_neg, hk]
    · exact .inl rfl
    · rintro ⟨a, ha, hc, hka, -⟩
      exact hr ((hown a ha ⟨ha, hc⟩).1 r (hka ▸ hk))
  byMAC k r hk hr := by
    rw [reap_byMAC cfg hok hσ.nodup, if_neg, hk]
    · exact .inl rfl
    · rintro ⟨a, ha, hc, hka⟩
      exact hr ((hown a ha ⟨ha, hc⟩).2 k hka (hσ.byMAC _ _ hk).1 r hk)

theorem keepsEntries_apply {σ : TrackStore} (hσ : WellIndexed σ "") {op : Op} (hok : op.Ok σ)
    (hown : KeysStillOwn cfg σ op) : KeepsEntries cfg σ op (op.apply cfg σ) := by
  cases op with
  | ingest d now terrain => exact keepsEntries_ingest cfg hσ hown
  | reap now order => exact keepsEntries_reap cfg hσ hok hown
  | correlateContacts contacts =>
    rw [Op.apply, correlateContacts_frame]
    exact ⟨fun k r hk _ ↦ .inl hk, fun k r hk _ ↦ .inl hk⟩

/-! ## Index integrity of a run -/

/-- **Entries outlive other flights.**  In a run in which no call ends a track whose key is
indexed for another, every entry goes only with the track it points at, and what the indexes hold
is found. -/
theorem entries_kept {tr : List (Machine.Step TrackStore Op)} {σ : TrackStore}
    (h : (storeMachine cfg).Run tr σ) (hown : ∀ x ∈ tr, KeysStillOwn cfg x.pre x.act) :
    ∀ x ∈ tr, KeepsEntries cfg x.pre x.act x.post ∧ Findable cfg x.post := by
  intro x hx
  obtain ⟨tr', -, hpre, hok, hpost⟩ := h.of_mem hx
  have hw := wellIndexed_of_run cfg hpre
  rw [hpost]
  exact ⟨keepsEntries_apply cfg hw hok (hown x hx), (hw.apply cfg hok).findable cfg⟩

/-- A serial heard twice, quiet for longer than `CloseAfter`, and heard again on the ground. -/
def secondTakeOff : List Op :=
  [.ingestAt 1 (heard "S" "" 1), .ingestAt 4 (heard "S" "" 4), .ingestAt 400 (heard "S" "" 400)]

/-- The second take-off ends the first flight, which still has its serial to itself. -/
theorem second_flight_findable :
    (storeMachine defaultConfig).Run (stepsOf defaultConfig secondTakeOff)
        (after defaultConfig secondTakeOff) ∧
      ∀ x ∈ stepsOf defaultConfig secondTakeOff,
        KeepsEntries defaultConfig x.pre x.act x.post ∧ Findable defaultConfig x.post :=
  ⟨run_after (by decide), entries_kept defaultConfig (run_after (by decide)) (by decide)⟩

/-- **The timer takes the second flight's entry with the first flight.**  The second flight is
live, its entry is gone, and its next detection starts a third. -/
theorem second_flight_lost :
    let ops := secondTakeOff ++ [.reapAt 401 [0, 1]]
    (storeMachine defaultConfig).Run (stepsOf defaultConfig ops) (after defaultConfig ops) ∧
      Ascending (stepsOf defaultConfig ops) ∧
      (after defaultConfig secondTakeOff).bySerial.get "S" = some 1 ∧
      ¬ Ends defaultConfig (after defaultConfig secondTakeOff) (.reapAt 401 [0, 1]) 1 ∧
      1 ∈ (after defaultConfig ops).all ∧ (after defaultConfig ops).bySerial.get "S" = none ∧
      (Op.ingestAt 402 (heard "S" "" 402)).track defaultConfig (after defaultConfig ops) =
        some 2 :=
  ⟨run_after (by decide), by decide, by decide, by decide, by decide, by decide, by decide⟩

end ClassG.Fusion.TrackStore
