import ClassG.Fusion.Remembering

/-!
# When the reaper's timing shows

Whether a detection continues a flight or starts one is meant to depend on the gap and not on
whether the timer happened to fire in between.  `Ingest` decides on four lookups, the live tracks
by serial and by MAC and then the closed flights by serial and by MAC, and a `Reap` just before
changes all four: the keys of the tracks it closes leave the live indexes, the closing flights that
were shown enter the closed ones, and expired flights leave those.  `liveAfter` and `closedAfter`
are the lookups it leaves, read off the store before it.

`ReapNeutral` is what it takes for the decision to come out the same.  A track that stays open has
to stay the one that is found; a track that `Reap` closes has to be handed over, remembered and
still the first that is found; and a detection that continues nothing must neither be given an open
track that a closing one was covering, nor have the flight it would rejoin replaced, expired or
newly provided.  A `TENTATIVE` track is never handed over, and neither is one that a late detection
has already closed, so the timing does show (`timing_shows`).
-/

set_option autoImplicit false

namespace ClassG.Fusion.TrackStore

variable (cfg : Config)

/-! ## The lookups that `Reap` leaves -/

section lookups

variable (σ : TrackStore) (now : GoTime) (order : List Ref)

/-- Some track that `Reap` closes has the key. -/
def KeyCloses (k : Key) : Prop := ∃ a ∈ σ.all, Closes cfg now (σ.heap a) ∧ k.Of (σ.heap a)

instance (k : Key) : Decidable (KeyCloses cfg σ now k) :=
  inferInstanceAs (Decidable (∃ _ ∈ _, _))

/-- The live track found once the keys of the closing ones are gone. -/
def liveAfter (serial mac : String) : Option Ref :=
  ((find σ.bySerial serial).filter fun _ ↦ ¬ KeyCloses cfg σ now (.serial serial)).or
    ((find σ.byMAC mac).filter fun _ ↦ ¬ KeyCloses cfg σ now (.mac mac))

/-- The closed flight remembered under a key once the closing ones have been added, the last of
them keeping a shared key, and the expired ones dropped. -/
def recalledAfter (k : Key) : Option Ref :=
  ((claims cfg now σ order k).getLast?.or (σ.recalled k)).filter fun c ↦
    ¬ Expired cfg now (σ.heap c)

/-- The closed flight found then. -/
def closedAfter (serial mac : String) : Option Ref :=
  (if serial ≠ "" then recalledAfter cfg σ now order (.serial serial) else none).or
    (if mac ≠ "" then recalledAfter cfg σ now order (.mac mac) else none)

/-- A `Reap` just before leaves the decision about the detection as it is. -/
def ReapNeutral (d : Detection) (seen : GoTime) : Prop :=
  match σ.continues cfg d seen, σ.rejoins cfg d seen with
  | some r, _ =>
    if Closes cfg now (σ.heap r) then
      -- handed over from the live tracks to the closed flights
      (∀ b ∈ liveAfter cfg σ now d.identity.serial d.identity.mac,
        Finished cfg (σ.heap b) d seen) ∧
        closedAfter cfg σ now order d.identity.serial d.identity.mac = some r ∧
        resumes cfg (σ.heap r) d seen = true
    else liveAfter cfg σ now d.identity.serial d.identity.mac = some r
  | none, some c =>
    (∀ b ∈ liveAfter cfg σ now d.identity.serial d.identity.mac,
      Finished cfg (σ.heap b) d seen) ∧
      closedAfter cfg σ now order d.identity.serial d.identity.mac = some c
  | none, none =>
    (∀ b ∈ liveAfter cfg σ now d.identity.serial d.identity.mac,
      Finished cfg (σ.heap b) d seen) ∧
      ∀ c ∈ closedAfter cfg σ now order d.identity.serial d.identity.mac,
        ¬ resumes cfg (σ.heap c) d seen = true

end lookups

section reaped

variable {σ : TrackStore} (hσ : WellIndexed σ "") {now : GoTime} {order : List Ref}
  (hok : order.Perm σ.all)
include hσ hok

theorem reap_found (serial mac : String) :
    (σ.reap cfg now order).1.found serial mac = liveAfter cfg σ now serial mac := by
  have hserial : find (σ.reap cfg now order).1.bySerial serial =
      (find σ.bySerial serial).filter fun _ ↦ ¬ KeyCloses cfg σ now (.serial serial) := by
    by_cases hne : serial = ""
    · subst hne; rfl
    rw [find_of_ne _ hne, find_of_ne _ hne, reap_bySerial cfg hok hσ.nodup]
    change (if KeyCloses cfg σ now (.serial serial) then _ else _) = _
    cases σ.bySerial.get serial <;>
      by_cases hk : KeyCloses cfg σ now (.serial serial) <;> simp [hk, Option.filter]
  have hmac : find (σ.reap cfg now order).1.byMAC mac =
      (find σ.byMAC mac).filter fun _ ↦ ¬ KeyCloses cfg σ now (.mac mac) := by
    by_cases hne : mac = ""
    · subst hne; rfl
    rw [find_of_ne _ hne, find_of_ne _ hne, reap_byMAC cfg hok hσ.nodup]
    change (if KeyCloses cfg σ now (.mac mac) then _ else _) = _
    cases σ.byMAC.get mac <;>
      by_cases hk : KeyCloses cfg σ now (.mac mac) <;> simp [hk, Option.filter]
  rw [found, hserial, hmac, liveAfter]

theorem reap_recalled_eq (k : Key) :
    (σ.reap cfg now order).1.recalled k = recalledAfter cfg σ now order k := by
  rw [reap_recalled cfg hσ hok, recalledAfter]
  cases hc : (claims cfg now σ order k).getLast?.or (σ.recalled k) with
  | none => rfl
  | some c =>
    have hkey : k.Of (σ.heap c) := by
      rcases Option.or_eq_some_iff.mp hc with hl | ⟨-, ho⟩
      · exact (of_decide_eq_true (List.mem_filter.mp (List.mem_of_getLast? hl)).2).2
      · cases k with
        | serial s =>
          have h := (hσ.closedBySerial _ _ ho).2
          exact ⟨h.2.symm, h.1⟩
        | mac m => exact (hσ.closedByMAC _ _ ho).2
    simp [Option.filter, hkey]

theorem reap_resolveClosed (serial mac : String) :
    (σ.reap cfg now order).1.resolveClosed serial mac =
      closedAfter cfg σ now order serial mac := by
  rw [closedAfter, ← reap_recalled_eq cfg hσ hok, ← reap_recalled_eq cfg hσ hok]
  rfl

theorem resumes_reap (r : Ref) (d : Detection) (seen : GoTime) :
    resumes cfg ((σ.reap cfg now order).1.heap r) d seen = resumes cfg (σ.heap r) d seen := by
  rw [reap_heap cfg hok hσ.nodup]; split <;> rfl

/-- A track that `Reap` leaves open is finished for a detection or not as before. -/
theorem finished_reap {r : Ref} (hr : r ∈ σ.all) (hopen : ¬ Closes cfg now (σ.heap r))
    (d : Detection) (seen : GoTime) :
    Finished cfg ((σ.reap cfg now order).1.heap r) d seen ↔ Finished cfg (σ.heap r) d seen := by
  have hheap : (σ.reap cfg now order).1.heap r = (σ.heap r).updateState now cfg.lifecycle := by
    rw [reap_heap cfg hok hσ.nodup, if_pos hr]
  have hstate : (σ.heap r).state ≠ .closed := fun hs ↦ hopen ((closes_iff cfg).mpr (.inr hs))
  have hstate' : ((σ.reap cfg now order).1.heap r).state ≠ .closed := by rw [hheap]; exact hopen
  have hlast : ((σ.reap cfg now order).1.heap r).lastSeen = (σ.heap r).lastSeen := by rw [hheap]; rfl
  rw [Finished, Finished, resumes_reap cfg hσ hok, flightIsOver, flightIsOver, hlast]
  simp only [hstate, hstate', false_or]

omit hok in
/-- What is found after `Reap` is live and does not close. -/
theorem liveAfter_open {serial mac : String} {b : Ref}
    (hb : liveAfter cfg σ now serial mac = some b) : b ∈ σ.all ∧ ¬ Closes cfg now (σ.heap b) := by
  rcases Option.or_eq_some_iff.mp hb with hs | ⟨-, hm⟩
  · obtain ⟨hs, hk⟩ := Option.filter_eq_some_iff.mp hs
    have h := hσ.bySerial _ _ (find_eq_some.mp hs).2
    exact ⟨h.2.1, fun hc ↦ of_decide_eq_true hk ⟨b, h.2.1, hc, h.2.2.symm, h.1⟩⟩
  · obtain ⟨hm, hk⟩ := Option.filter_eq_some_iff.mp hm
    have h := hσ.byMAC _ _ (find_eq_some.mp hm).2
    exact ⟨h.2.1, fun hc ↦ of_decide_eq_true hk ⟨b, h.2.1, hc, h.2.2.resolve_left h.1⟩⟩

theorem reap_continues (d : Detection) (seen : GoTime) :
    (σ.reap cfg now order).1.continues cfg d seen =
      (liveAfter cfg σ now d.identity.serial d.identity.mac).filter fun b ↦
        ¬ Finished cfg (σ.heap b) d seen := by
  rw [continues, reap_found cfg hσ hok]
  cases hb : liveAfter cfg σ now d.identity.serial d.identity.mac with
  | none => rfl
  | some b =>
    have h := liveAfter_open cfg hσ hb
    simp only [Option.filter, finished_reap cfg hσ hok h.1 h.2]

theorem reap_rejoins (d : Detection) (seen : GoTime) :
    (σ.reap cfg now order).1.rejoins cfg d seen =
      (closedAfter cfg σ now order d.identity.serial d.identity.mac).filter fun c ↦
        resumes cfg (σ.heap c) d seen := by
  rw [rejoins, reap_resolveClosed cfg hσ hok]
  simp only [resumes_reap cfg hσ hok]

end reaped

/-! ## The decision -/

/-- The earlier track a detection is assigned to, if any. -/
def assigned (σ : TrackStore) (d : Detection) (seen : GoTime) : Option Ref :=
  (σ.continues cfg d seen).or (σ.rejoins cfg d seen)

theorem assigned_lt {σ : TrackStore} (hσ : WellIndexed σ "") {d : Detection} {seen : GoTime}
    {r : Ref} (h : σ.assigned cfg d seen = some r) : r < σ.next := by
  rcases Option.or_eq_some_iff.mp h with hc | ⟨-, hj⟩
  · exact hσ.lt_next r (hσ.found_mem ((continues_eq_some cfg σ d seen).mp hc).1)
  · exact (hσ.closed_of_resolveClosed ((rejoins_eq_some cfg σ d seen).mp hj).1).2.1

/-- Two stores that have made the same tracks fold a detection into the same one, or both start
one, when they assign it alike. -/
theorem ingest_snd_eq_iff {σ σ' : TrackStore} (hσ : WellIndexed σ "") (hσ' : WellIndexed σ' "")
    (hnext : σ'.next = σ.next) {d : Detection} (hi : ¬ Ignored d) (now : GoTime)
    (terrain : TerrainResolver) :
    (σ'.ingest cfg d now terrain).2 = (σ.ingest cfg d now terrain).2 ↔
      σ'.assigned cfg d (d.seen now) = σ.assigned cfg d (d.seen now) := by
  rw [ingest_snd cfg σ' now terrain hi, ingest_snd cfg σ now terrain hi, hnext, Option.some_inj,
    ← assigned, ← assigned]
  cases ha' : σ'.assigned cfg d (d.seen now) <;> cases ha : σ.assigned cfg d (d.seen now)
  · simp
  · have := assigned_lt cfg hσ ha
    simp [this.ne']
  · have := assigned_lt cfg hσ' ha'
    rw [hnext] at this
    simp [this.ne]
  · simp

theorem assigned_reap_iff {σ : TrackStore} (hσ : WellIndexed σ "") {now : GoTime}
    {order : List Ref} (hok : order.Perm σ.all) (d : Detection) (seen : GoTime) :
    (σ.reap cfg now order).1.assigned cfg d seen = σ.assigned cfg d seen ↔
      ReapNeutral cfg σ now order d seen := by
  have hnone : ∀ {o : Option Ref}, o.filter (fun b ↦ ¬ Finished cfg (σ.heap b) d seen) = none ↔
      ∀ b ∈ o, Finished cfg (σ.heap b) d seen := fun {o} ↦ by
    cases o <;> simp [Option.filter]
  have hlive : ∀ r, (σ.reap cfg now order).1.continues cfg d seen = some r → r ∈ σ.all ∧
      ¬ Closes cfg now (σ.heap r) := fun r hr ↦ by
    rw [reap_continues cfg hσ hok] at hr
    exact liveAfter_open cfg hσ (Option.filter_eq_some_iff.mp hr).1
  have hclosed : ∀ r, (σ.reap cfg now order).1.rejoins cfg d seen = some r →
      ¬ (r ∈ σ.all ∧ ¬ Closes cfg now (σ.heap r)) := fun r hr hm ↦ by
    have h := (hσ.reap cfg hok now).closed_of_resolveClosed
      ((rejoins_eq_some cfg _ d seen).mp hr).1
    exact h.1 (by rw [reap_all cfg hok hσ.nodup]; exact List.mem_filter.mpr ⟨hm.1, by simpa using hm.2⟩)
  unfold assigned ReapNeutral
  cases hc : σ.continues cfg d seen with
  | some r =>
    obtain ⟨hf, hfin⟩ := (continues_eq_some cfg σ d seen).mp hc
    have hr := hσ.found_mem hf
    dsimp only
    rw [Option.some_or, Option.or_eq_some_iff]
    split
    · rename_i hclose
      have hgone : (σ.reap cfg now order).1.continues cfg d seen ≠ some r := fun h ↦
        (hlive r h).2 hclose
      simp only [hgone, false_or]
      rw [reap_continues cfg hσ hok, hnone, reap_rejoins cfg hσ hok, Option.filter_eq_some_iff]
    · rename_i hopen
      have hstays : (σ.reap cfg now order).1.rejoins cfg d seen ≠ some r := fun h ↦
        hclosed r h ⟨hr, hopen⟩
      simp only [hstays, and_false, or_false]
      rw [reap_continues cfg hσ hok, Option.filter_eq_some_iff]
      exact and_iff_left (by simpa using hfin)
  | none =>
    cases hj : σ.rejoins cfg d seen with
    | some c =>
      obtain ⟨hrc, hres⟩ := (rejoins_eq_some cfg σ d seen).mp hj
      have hoff := (hσ.closed_of_resolveClosed hrc).1
      have hnot : (σ.reap cfg now order).1.continues cfg d seen ≠ some c := fun h ↦
        hoff (hlive c h).1
      dsimp only
      rw [Option.none_or, Option.or_eq_some_iff]
      simp only [hnot, false_or]
      rw [reap_continues cfg hσ hok, hnone, reap_rejoins cfg hσ hok, Option.filter_eq_some_iff]
      simp [hres]
    | none =>
      dsimp only
      rw [Option.none_or, Option.or_eq_none_iff, reap_continues cfg hσ hok, hnone,
        reap_rejoins cfg hσ hok, Option.filter_eq_none_iff]
      rfl

/-- **When the reaper's timing does not show.**  In every reachable store, a `Reap` just before
leaves a detection with the same track, or leaves both stores starting one, if and only if the
detection is ignored or the `Reap` is neutral for it. -/
theorem ingest_after_reap_iff {tr : List (Machine.Step TrackStore Op)} {σ : TrackStore}
    (h : (storeMachine cfg).Run tr σ) (d : Detection) (now reapedAt : GoTime) {order : List Ref}
    (hok : order.Perm σ.all) (terrain : TerrainResolver) :
    ((σ.reap cfg reapedAt order).1.ingest cfg d now terrain).2 = (σ.ingest cfg d now terrain).2 ↔
      Ignored d ∨ ReapNeutral cfg σ reapedAt order d (d.seen now) := by
  have hw := wellIndexed_of_run cfg h
  by_cases hi : Ignored d
  · rw [ingest_of_ignored cfg _ now terrain hi, ingest_of_ignored cfg _ now terrain hi]
    simp [hi]
  · rw [ingest_snd_eq_iff cfg hw (hw.reap cfg hok reapedAt) (reap_next ..) hi,
      assigned_reap_iff cfg hw hok]
    simp [hi]

/-- Only a flight that was shown, has a trail and has not expired is handed over. -/
theorem remembered_of_closedAfter {σ : TrackStore} (hσ : WellIndexed σ "") {now : GoTime}
    {order : List Ref} {serial mac : String} {r : Ref} (hr : r ∈ σ.all)
    (h : closedAfter cfg σ now order serial mac = some r) :
    Remembered cfg now (σ.heap r) ∧ ¬ Expired cfg now (σ.heap r) := by
  have hkey : ∀ k, recalledAfter cfg σ now order k = some r →
      Remembered cfg now (σ.heap r) ∧ ¬ Expired cfg now (σ.heap r) := fun k hk ↦ by
    obtain ⟨hc, hexp⟩ := Option.filter_eq_some_iff.mp hk
    refine ⟨?_, of_decide_eq_true hexp⟩
    rcases Option.or_eq_some_iff.mp hc with hl | ⟨-, ho⟩
    · exact (of_decide_eq_true (List.mem_filter.mp (List.mem_of_getLast? hl)).2).1
    · have hoff : σ.ClosedOff r := by
        cases k with
        | serial s => exact (hσ.closedBySerial _ _ ho).1
        | mac m => exact (hσ.closedByMAC _ _ ho).1
      exact absurd hr hoff.1
  rcases Option.or_eq_some_iff.mp h with hs | ⟨-, hm⟩
  · split at hs
    · exact hkey _ hs
    · cases hs
  · split at hm
    · exact hkey _ hm
    · cases hm

/-- **A track that is closed and not remembered shows the timing.**  The detection that would have
continued it finds it gone. -/
theorem not_neutral_of_not_remembered {σ : TrackStore} (hσ : WellIndexed σ "") {now : GoTime}
    {order : List Ref} {d : Detection} {seen : GoTime} {r : Ref}
    (hc : σ.continues cfg d seen = some r) (hclose : Closes cfg now (σ.heap r))
    (hrem : ¬ Remembered cfg now (σ.heap r)) : ¬ ReapNeutral cfg σ now order d seen := by
  unfold ReapNeutral
  rw [hc]
  dsimp only
  rw [if_pos hclose]
  rintro ⟨-, hhand, -⟩
  have hr := hσ.found_mem ((continues_eq_some cfg σ d seen).mp hc).1
  exact hrem (remembered_of_closedAfter cfg hσ hr hhand).1

/-- A confirmed flight comes back high over its take-off point, with and without the reaper. -/
theorem confirmed_flight_neutral :
    ((after defaultConfig (takeOff "S" "m" ++ [.reapAt 400 [0]])).ingest defaultConfig
        ((heard "S" "m" 500).above 427) (clock 500) fun _ _ _ ↦ none).2 = some 0 ∧
      ReapNeutral defaultConfig (after defaultConfig (takeOff "S" "m")) (clock 400) [0]
        ((heard "S" "m" 500).above 427) (clock 500) := by
  refine ⟨by decide +kernel, ?_⟩
  have hok : List.Perm [0] (after defaultConfig (takeOff "S" "m")).all := by decide
  have h := ingest_after_reap_iff defaultConfig
    (run_after (by decide) : (storeMachine defaultConfig).Run
      (stepsOf defaultConfig (takeOff "S" "m")) (after defaultConfig (takeOff "S" "m")))
    ((heard "S" "m" 500).above 427) (clock 500) (clock 400) hok fun _ _ _ ↦ none
  exact (h.mp (by decide +kernel)).resolve_left (by decide)

/-- **The timing shows.**  An aircraft heard once and again out of range, high over its take-off
point, continues its track if the reaper has not fired and starts another one if it has. -/
theorem timing_shows :
    (storeMachine defaultConfig).Run
        (stepsOf defaultConfig [.ingestAt 1 ((heard "S" "m" 1).above 47)])
        (after defaultConfig [.ingestAt 1 ((heard "S" "m" 1).above 47)]) ∧
      ((after defaultConfig [.ingestAt 1 ((heard "S" "m" 1).above 47)]).ingest defaultConfig
        ((heard "S" "m" 302).above 427) (clock 302) fun _ _ _ ↦ none).2 = some 0 ∧
      (((after defaultConfig [.ingestAt 1 ((heard "S" "m" 1).above 47)]).reap defaultConfig
        (clock 302) [0]).1.ingest defaultConfig
        ((heard "S" "m" 302).above 427) (clock 302) fun _ _ _ ↦ none).2 = some 1 :=
  ⟨run_after (by decide), by decide +kernel, by decide⟩

end ClassG.Fusion.TrackStore
