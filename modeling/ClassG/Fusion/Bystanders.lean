import ClassG.Fusion.Index

/-!
# The tracks a detection does not go to

`Ingest` looks a live track up before it knows whether the detection will go to it, and looking it
up is not free: a track that is found by MAC and has no serial adopts the detection's
(`resolve`).  If it then turns out that the track's flight is over, the detection goes elsewhere
and the serial stays.

`ingest_bystander` says that this is all that can happen to the document of another track, and
`bystanders_unchanged_iff` when nothing does.
-/

set_option autoImplicit false

namespace ClassG.Fusion.TrackStore

variable (cfg : Config)

/-- The call leaves the documents of the other tracks as they are. -/
def BystandersUnchanged (σ : TrackStore) (d : Detection) (now : GoTime)
    (terrain : TerrainResolver) : Prop :=
  ∀ r < σ.next, (σ.ingest cfg d now terrain).2 ≠ some r →
    (σ.ingest cfg d now terrain).1.heap r = σ.heap r

/-- The detection has a serial for a track that is found by MAC and has finished its flight. -/
def NamesFinished (σ : TrackStore) (d : Detection) (now : GoTime) : Prop :=
  ∃ t, σ.adopts d.identity.serial d.identity.mac = some t ∧
    Finished cfg (σ.heap t) d (d.seen now)

variable {σ : TrackStore} {d : Detection} {now : GoTime} {terrain : TerrainResolver}

/-- **What a call does to the document of another track.**  At most it gives it the serial of the
detection. -/
theorem ingest_bystander {r : Ref} (hr : (σ.ingest cfg d now terrain).2 ≠ some r) :
    (σ.ingest cfg d now terrain).1.heap r = σ.heap r ∨
      ¬Ignored d ∧ σ.adopts d.identity.serial d.identity.mac = some r ∧
        (σ.ingest cfg d now terrain).1.heap r = (σ.heap r).withSerial d.identity.serial := by
  by_cases hi : Ignored d
  · rw [ingest_of_ignored cfg σ now terrain hi]
    exact .inl rfl
  · rw [ingest_heap cfg σ now terrain hi, if_neg hr, settled_heap]
    split
    · rename_i hadopts
      exact .inr ⟨hi, hadopts, rfl⟩
    · exact .inl rfl

/-- The track that adopts the serial is the live one that is found. -/
theorem found_of_adopts {serial mac : String} {t : Ref} (h : σ.adopts serial mac = some t) :
    σ.found serial mac = some t := by
  obtain ⟨⟨hserial, hnone⟩, hmac, -⟩ := adopts_eq_some.mp h
  rw [found, find_of_ne _ hserial, hnone, Option.none_or, hmac]

/-- Its document changes. -/
theorem withSerial_ne_of_adopts {serial mac : String} {t : Ref}
    (h : σ.adopts serial mac = some t) : (σ.heap t).withSerial serial ≠ σ.heap t := by
  obtain ⟨⟨hserial, -⟩, -, hnone⟩ := adopts_eq_some.mp h
  intro heq
  have hsame : serial = (σ.heap t).identity.serial := congrArg (·.identity.serial) heq
  exact hserial (hsame.trans hnone)

/-- A detection does not go to the finished flight that is found for it. -/
theorem ingest_ne_of_finished (hσ : WellIndexed σ "") {t : Ref}
    (hfound : σ.found d.identity.serial d.identity.mac = some t)
    (hfinished : Finished cfg (σ.heap t) d (d.seen now)) :
    (σ.ingest cfg d now terrain).2 ≠ some t := by
  have hlive := hσ.found_mem hfound
  intro hgoes
  have hi := not_ignored_of_ingest hgoes
  have hcontinues : σ.continues cfg d (d.seen now) = none := by
    rw [continues, hfound]
    exact if_neg (by simpa using hfinished)
  rw [ingest_snd cfg σ now terrain hi, hcontinues, Option.none_or] at hgoes
  rcases hrejoins : σ.rejoins cfg d (d.seen now) with _ | c
  · rw [hrejoins] at hgoes
    exact (hσ.lt_next t hlive).ne (Option.some.inj hgoes).symm
  · rw [hrejoins] at hgoes
    obtain rfl := Option.some.inj hgoes
    exact (hσ.closed_of_resolveClosed ((rejoins_eq_some cfg σ d _).mp hrejoins).1).1 hlive

/-- And it goes to the one that is found and has not. -/
theorem ingest_of_not_finished (hi : ¬Ignored d) {t : Ref}
    (hfound : σ.found d.identity.serial d.identity.mac = some t)
    (hfinished : ¬Finished cfg (σ.heap t) d (d.seen now)) :
    (σ.ingest cfg d now terrain).2 = some t := by
  rw [ingest_snd cfg σ now terrain hi,
    (continues_eq_some cfg σ d _).mpr ⟨hfound, hfinished⟩, Option.some_or, Option.getD_some]

/-- **When a call leaves the other tracks alone.**  It does unless it names a finished flight: one
that is found by MAC, has no serial of its own, and is over. -/
theorem bystanders_unchanged_iff {tr : List (Machine.Step TrackStore Op)}
    (h : (storeMachine cfg).Run tr σ) (d : Detection) (now : GoTime) (terrain : TerrainResolver) :
    BystandersUnchanged cfg σ d now terrain ↔ Ignored d ∨ ¬NamesFinished cfg σ d now := by
  have hσ := wellIndexed_of_run cfg h
  constructor
  · intro hunchanged
    refine or_iff_not_imp_left.mpr fun hi ↦ ?_
    rintro ⟨t, hadopts, hfinished⟩
    have hfound := found_of_adopts hadopts
    have hother : (σ.ingest cfg d now terrain).2 ≠ some t :=
      ingest_ne_of_finished cfg hσ hfound hfinished
    have hsame := hunchanged t (hσ.lt_next t (hσ.found_mem hfound)) hother
    rw [ingest_heap cfg σ now terrain hi, if_neg hother, settled_heap, if_pos hadopts] at hsame
    exact withSerial_ne_of_adopts hadopts hsame
  · intro hcond r _ hother
    rcases ingest_bystander cfg hother with hsame | ⟨hi, hadopts, -⟩
    · exact hsame
    · -- the track that adopts the serial has not finished, so the detection goes to it
      refine absurd (ingest_of_not_finished cfg hi (found_of_adopts hadopts) fun hfinished ↦ ?_)
        hother
      exact hcond.resolve_left hi ⟨r, hadopts, hfinished⟩

/-- An aircraft heard once more, with another one about. -/
theorem takeOff_bystanders_unchanged :
    let σ := after defaultConfig (takeOff "S" "m" ++ [.ingestAt 5 (heard "S'" "m'" 5)])
    BystandersUnchanged defaultConfig σ ((heard "S" "m" 6).above 70) (clock 6)
      fun _ _ _ ↦ none := by
  intro σ
  have hnone : σ.adopts "S" "m" = none := by decide +kernel
  refine (bystanders_unchanged_iff defaultConfig (run_after (by decide)) _ _ _).mpr
    (.inr ?_)
  rintro ⟨t, hadopts, -⟩
  exact Option.some_ne_none t (hadopts.symm.trans hnone)

/-- **A flight that is over is named by the next one.**  An aircraft is heard on its MAC alone;
after `CloseAfter` it is heard again, on the ground and with its serial, before the reaper has come
by.  That is a new flight, and the old one has its serial. -/
theorem finished_flight_named :
    let σ := after defaultConfig [.ingestAt 1 ((heard "" "m" 1).above 47)]
    let s := σ.ingest defaultConfig ((heard "S" "m" 400).above 47) (clock 400) fun _ _ _ ↦ none
    (storeMachine defaultConfig).Run
        (stepsOf defaultConfig [.ingestAt 1 ((heard "" "m" 1).above 47)]) σ ∧
      s.2 = some 1 ∧ (σ.heap 0).identity.serial = "" ∧ (s.1.heap 0).identity.serial = "S" ∧
      ¬BystandersUnchanged defaultConfig σ ((heard "S" "m" 400).above 47) (clock 400)
        fun _ _ _ ↦ none := by
  intro σ s
  have hbefore : (σ.heap 0).identity.serial = "" := by decide
  have hafter : (s.1.heap 0).identity.serial = "S" := by decide +kernel
  refine ⟨run_after (by decide), by decide +kernel, hbefore, hafter, fun h ↦ ?_⟩
  have hsame : s.1.heap 0 = σ.heap 0 := h 0 (by decide) (by decide +kernel)
  rw [hsame, hbefore] at hafter
  exact absurd hafter (by decide)

end ClassG.Fusion.TrackStore
