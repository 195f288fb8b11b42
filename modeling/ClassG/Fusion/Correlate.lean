import ClassG.Fusion.Contact
import ClassG.Fusion.TrackStore

/-!
# ADS-B correlation

The gate of `services/fusion/correlate.go` that lets a contact explain a track away.  A track
flagged `adsbCorrelated` is treated downstream as manned traffic, so a false correlation silences
the alert for a real drone: every gate must pass, and a failed altitude comparison vetoes.

A pass visits each live track once and looks at nothing but its document, so the order, which Go
does not fix, shows only in the list of the tracks it reports.
-/

set_option autoImplicit false

namespace ClassG.Fusion

/-- How far apart in time the two fixes may be. -/
def adsbMaxFixSkew : GoDuration := 10 * GoDuration.second

/-- The horizontal gate between the two fixes. -/
def adsbMaxDistanceM : ℚ := 300

/-- The altitude gate, applied only when both sides report one. -/
def adsbMaxAltDiffM : ℚ := 150

def feetToMetres : ℚ := 3048 / 10000

variable (cfg : Config)

def contactMatchesFix (c : ADSBContact) (fix : Position) : Bool :=
  match c.current with
  | none => false
  | some cur =>
    let skew := GoTime.sub cur.atTime fix.atTime
    let skew := if skew < 0 then skew.neg else skew
    if adsbMaxFixSkew < skew then false
    else if adsbMaxDistanceM < cfg.horizontalDistanceM fix.lat fix.lon cur.lat cur.lon then false
    else match fix.altGeodeticM, c.altFt with
      | some alt, some ft => decide (|alt - ft * feetToMetres| ≤ adsbMaxAltDiffM)
      | _, _ => true

/-- Whether some contact matches the track's live position. -/
def matchesAny (contacts : List ADSBContact) (t : Track) : Bool :=
  match t.current with
  | some fix => contacts.any fun c ↦ contactMatchesFix cfg c fix
  | none => false

namespace TrackStore

/-- What `CorrelateContacts` does to one live track; `changed` collects the tracks it reports. -/
def correlateOne (contacts : List ADSBContact) (acc : TrackStore × List Ref) (t : Ref) :
    TrackStore × List Ref :=
  let (σ, changed) := acc
  let correlated := matchesAny cfg contacts (σ.heap t)
  if (σ.heap t).adsbCorrelated ≠ correlated then
    (σ.modify t fun t ↦ { t with adsbCorrelated := correlated }, changed ++ [t])
  else (σ, changed)

/-- Recompute `adsbCorrelated` for every open track against the current contacts, returning the
tracks whose flag changed. -/
def correlateContacts (σ : TrackStore) (contacts : List ADSBContact) : TrackStore × List Ref :=
  σ.all.foldl (correlateOne cfg contacts) (σ, [])

/-! ## What one pass does -/

section correlate

variable (contacts : List ADSBContact)

/-- The loop of `CorrelateContacts`. -/
def correlateLoop (l : List Ref) (acc : TrackStore × List Ref) : TrackStore × List Ref :=
  l.foldl (correlateOne cfg contacts) acc

/-- The document after a pass has looked at it. -/
def correlated (t : Track) : Track := { t with adsbCorrelated := matchesAny cfg contacts t }

theorem correlateOne_heap (acc : TrackStore × List Ref) (t : Ref) :
    (correlateOne cfg contacts acc t).1.heap =
      Function.update acc.1.heap t (correlated cfg contacts (acc.1.heap t)) := by
  unfold correlateOne
  dsimp only
  split
  · rfl
  · rename_i h
    have hflag : correlated cfg contacts (acc.1.heap t) = acc.1.heap t := by
      rw [correlated, ← not_not.mp h]
    rw [hflag, Function.update_eq_self]

theorem correlateOne_changed (acc : TrackStore × List Ref) (t : Ref) :
    (correlateOne cfg contacts acc t).2 =
      if (acc.1.heap t).adsbCorrelated ≠ matchesAny cfg contacts (acc.1.heap t) then acc.2 ++ [t]
      else acc.2 := by
  unfold correlateOne
  dsimp only
  split <;> rfl

/-- A pass touches the documents only. -/
theorem correlateLoop_frame (l : List Ref) (acc : TrackStore × List Ref) :
    (correlateLoop cfg contacts l acc).1 =
      { acc.1 with heap := (correlateLoop cfg contacts l acc).1.heap } := by
  induction l generalizing acc with
  | nil => rfl
  | cons t rest ih =>
    rw [correlateLoop, List.foldl_cons, ← correlateLoop, ih]
    unfold correlateOne
    dsimp only
    split <;> rfl

theorem correlateLoop_heap {l : List Ref} (hnd : l.Nodup) (acc : TrackStore × List Ref) (x : Ref) :
    (correlateLoop cfg contacts l acc).1.heap x =
      if x ∈ l then correlated cfg contacts (acc.1.heap x) else acc.1.heap x := by
  induction l generalizing acc with
  | nil => rfl
  | cons t rest ih =>
    rw [correlateLoop, List.foldl_cons, ← correlateLoop, ih (List.nodup_cons.mp hnd).2,
      correlateOne_heap]
    by_cases hx : x = t
    · subst hx
      have hr : x ∉ rest := (List.nodup_cons.mp hnd).1
      simp [hr]
    · simp [hx]

theorem correlateLoop_changed {l : List Ref} (hnd : l.Nodup) (acc : TrackStore × List Ref) :
    (correlateLoop cfg contacts l acc).2 =
      acc.2 ++ l.filter fun t ↦
        (acc.1.heap t).adsbCorrelated ≠ matchesAny cfg contacts (acc.1.heap t) := by
  induction l generalizing acc with
  | nil => simp [correlateLoop]
  | cons t rest ih =>
    have hrest : ∀ x ∈ rest, (correlateOne cfg contacts acc t).1.heap x = acc.1.heap x := by
      intro x hx
      rw [correlateOne_heap, Function.update_of_ne]
      rintro rfl
      exact (List.nodup_cons.mp hnd).1 hx
    rw [correlateLoop, List.foldl_cons, ← correlateLoop, ih (List.nodup_cons.mp hnd).2,
      correlateOne_changed,
      List.filter_congr (l := rest) fun x hx ↦ by rw [hrest x hx]]
    simp only [List.filter_cons, decide_eq_true_eq]
    split <;> simp

variable {σ : TrackStore}

theorem correlateContacts_frame (σ : TrackStore) :
    (σ.correlateContacts cfg contacts).1 =
      { σ with heap := (σ.correlateContacts cfg contacts).1.heap } :=
  correlateLoop_frame cfg contacts σ.all (σ, [])

theorem correlateContacts_heap (hnd : σ.all.Nodup) (x : Ref) :
    (σ.correlateContacts cfg contacts).1.heap x =
      if x ∈ σ.all then correlated cfg contacts (σ.heap x) else σ.heap x :=
  correlateLoop_heap cfg contacts hnd (σ, []) x

theorem correlateContacts_changed (hnd : σ.all.Nodup) (x : Ref) :
    x ∈ (σ.correlateContacts cfg contacts).2 ↔
      x ∈ σ.all ∧ (σ.heap x).adsbCorrelated ≠ matchesAny cfg contacts (σ.heap x) := by
  have h := correlateLoop_changed cfg contacts hnd (σ, [])
  rw [correlateContacts, ← correlateLoop, h]
  simp

end correlate

end TrackStore

end ClassG.Fusion
