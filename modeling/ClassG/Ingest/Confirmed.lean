import ClassG.Ingest.Ingestor

/-!
# One alert for one aircraft

A hook on `track.confirmed` is for the moment when a track becomes `CONFIRMED`, "one alert per
aircraft, not per frame".  `Ingestor.Track` tells the hooks of every document whose track is
`CONFIRMED`, since it does not look at what the track was before.

`fired_eq_transitions_iff` says when that is the same: in the runs in which no message reports
again what the one before it has reported already.
-/

set_option autoImplicit false

namespace ClassG.Ingest

open Hooks

/-- A message that is handled, with what is answered meanwhile. -/
abbrev Handled : Type := Answers × FusionMessage

/-- The track that a message reports, and its state. -/
def reported (x : Handled) : Option (String × String) :=
  if ¬ x.1.recording then none
  else
    match x.2.closes with
    | some id => some (id, "CLOSED")
    | none => x.2.decoded.map fun t ↦ (t.trackID, t.state)

/-- The last state that was reported of each track. -/
abbrev States : Type := String → Option String

/-- What a message makes of the states. -/
def report (s : States) (x : Handled) : States :=
  match reported x with
  | some (id, state) => Function.update s id (some state)
  | none => s

/-- The message reports that a track is `CONFIRMED`. -/
def Confirms (id : String) (x : Handled) : Prop := reported x = some (id, "CONFIRMED")

instance (id : String) (x : Handled) : Decidable (Confirms id x) :=
  inferInstanceAs (Decidable (_ = _))

/-- How often a track goes from another state, or from none, to `CONFIRMED`. -/
def transitions (id : String) : States → List Handled → ℕ
  | _, [] => 0
  | s, x :: run =>
    (if Confirms id x ∧ s id ≠ some "CONFIRMED" then 1 else 0) + transitions id (report s x) run

/-- The effect tells the hooks that the track is confirmed. -/
def Effect.isConfirmed (id : String) : Effect → Bool
  | .fire e => e.name = eventTrackConfirmed ∧ e.subject = id
  | _ => false

/-- How often the hooks are told so. -/
def fired (cfg : Ingestor) (id : String) (run : List Handled) : ℕ :=
  (run.flatMap fun x ↦ cfg.track x.1 x.2).countP (Effect.isConfirmed id)

/-- No message reports `CONFIRMED` of a track of which that was the last report. -/
def Fresh : States → List Handled → Prop
  | _, [] => True
  | s, x :: run =>
    (∀ id, Confirms id x → s id ≠ some "CONFIRMED") ∧ Fresh (report s x) run

/-! ## A message -/

/-- That a track is closed is another event. -/
theorem closedEvent_name (id : String) (now : GoTime) (kvs : List (String × Value))
    (p : Option (ℚ × ℚ)) : (closedEvent id now kvs p).name ≠ eventTrackConfirmed := by
  simp [closedEvent, eventTrackClosed, eventTrackConfirmed]

theorem countP_closeByID (id id' : String) (a : Answers) :
    (closeByID a id').countP (Effect.isConfirmed id) = 0 := by
  rw [closeByID]
  cases a.stored <;> simp [Effect.isConfirmed, closedEvent_name]

/-- A document tells of a confirmed track if that is its state. -/
theorem countP_takeTrack (cfg : Ingestor) (id : String) (a : Answers) (t : Model.Track) :
    (takeTrack cfg a t).countP (Effect.isConfirmed id) =
      if t.trackID = id ∧ t.state = "CONFIRMED" then 1 else 0 := by
  rw [takeTrack]
  by_cases hclosed : t.state = "CLOSED"
  · rw [if_pos hclosed]
    simp [Effect.isConfirmed, closedEvent_name, hclosed]
  · rw [if_neg hclosed]
    by_cases hconfirmed : t.state = "CONFIRMED"
    · by_cases hid : t.trackID = id <;> simp [Effect.isConfirmed, hconfirmed, confirmedEvent, hid]
    · simp [Effect.isConfirmed, hconfirmed]

/-- **What a message tells the hooks**: once for each report. -/
theorem countP_track (cfg : Ingestor) (id : String) (x : Handled) :
    (cfg.track x.1 x.2).countP (Effect.isConfirmed id) = if Confirms id x then 1 else 0 := by
  obtain ⟨a, m⟩ := x
  have hreports {r : Option (String × String)} (hr : reported (a, m) = r) :
      (if Confirms id (a, m) then 1 else 0) = if r = some (id, "CONFIRMED") then 1 else 0 := by
    subst hr
    rfl
  cases hrecording : a.recording with
  | false =>
    have hr : reported (a, m) = none := by simp [reported, hrecording]
    rw [hreports hr, Ingestor.track, if_pos (by simp [hrecording])]
    simp [Effect.isConfirmed]
  | true =>
    cases hcloses : m.closes with
    | some id' =>
      have hr : reported (a, m) = some (id', "CLOSED") := by simp [reported, hrecording, hcloses]
      rw [hreports hr, Ingestor.track, if_neg (by simp [hrecording])]
      simp [hcloses, countP_closeByID]
    | none =>
      cases hdecoded : m.decoded with
      | none =>
        have hr : reported (a, m) = none := by simp [reported, hcloses, hdecoded]
        rw [hreports hr, Ingestor.track, if_neg (by simp [hrecording])]
        simp [hcloses, hdecoded]
      | some t =>
        have hr : reported (a, m) = some (t.trackID, t.state) := by
          simp [reported, hrecording, hcloses, hdecoded]
        rw [hreports hr, Ingestor.track, if_neg (by simp [hrecording])]
        simp [hcloses, hdecoded, countP_takeTrack]

/-! ## A run -/

variable {cfg : Ingestor} {s : States}

theorem fired_cons (id : String) (x : Handled) (run : List Handled) :
    fired cfg id (x :: run) = (if Confirms id x then 1 else 0) + fired cfg id run := by
  rw [fired, List.flatMap_cons, List.countP_append, countP_track, ← fired]

/-- No transition goes untold. -/
theorem transitions_le_fired (id : String) (s : States) (run : List Handled) :
    transitions id s run ≤ fired cfg id run := by
  induction run generalizing s with
  | nil => exact Nat.zero_le _
  | cons x run ih =>
    rw [transitions, fired_cons]
    have := ih (report s x)
    split <;> split
    · omega
    · rename_i h h'
      exact absurd h.1 h'
    · omega
    · omega

/-- **When the hooks are told once for each transition**: for every configuration and every run,
from any states that were reported before. -/
theorem fired_eq_transitions_iff (cfg : Ingestor) (s : States) (run : List Handled) :
    (∀ id, fired cfg id run = transitions id s run) ↔ Fresh s run := by
  induction run generalizing s with
  | nil => exact ⟨fun _ ↦ trivial, fun _ _ ↦ rfl⟩
  | cons x run ih =>
    rw [Fresh, ← ih]
    constructor
    · intro h
      have hboth (id : String) : fired cfg id run = transitions id (report s x) run ∧
          (Confirms id x → s id ≠ some "CONFIRMED") := by
        have hle : transitions id (report s x) run ≤ fired cfg id run :=
          transitions_le_fired id (report s x) run
        have heq := h id
        rw [fired_cons, transitions] at heq
        by_cases hc : Confirms id x
        · by_cases hs : s id = some "CONFIRMED"
          · rw [if_pos hc, if_neg fun hand ↦ hand.2 hs] at heq
            omega
          · exact ⟨by rw [if_pos hc, if_pos ⟨hc, hs⟩] at heq; omega, fun _ ↦ hs⟩
        · rw [if_neg hc, if_neg fun hand ↦ hc hand.1] at heq
          exact ⟨by omega, fun hc' ↦ absurd hc' hc⟩
      exact ⟨fun id ↦ (hboth id).2, fun id ↦ (hboth id).1⟩
    · rintro ⟨hfresh, hrun⟩ id
      rw [fired_cons, transitions, hrun id]
      congr 1
      by_cases hc : Confirms id x
      · rw [if_pos hc, if_pos ⟨hc, hfresh id hc⟩]
      · rw [if_neg hc, if_neg fun hand ↦ hc hand.1]

/-- Two documents of a confirmed track, one after the other. -/
def twoUpdates : List Handled :=
  let t : Model.Track := { trackID := "T1", state := "CONFIRMED" }
  let x : Handled := (⟨true, 0, .error .notFound⟩, ⟨"track.updated", some "T1", some t⟩)
  [x, x]

/-- The hooks are told twice of one transition. -/
theorem twoUpdates_fired :
    fired ⟨100, false⟩ "T1" twoUpdates = 2 ∧
      transitions "T1" (fun _ ↦ none) twoUpdates = 1 := by
  rw [twoUpdates, fired_cons, fired_cons, fired]
  decide

end ClassG.Ingest
