import ClassG.ForGo.Map
import ClassG.ForGo.Strings
import ClassG.ForGo.Time
import Mathlib.Data.Rat.Defs
import Mathlib.Algebra.Order.Ring.Rat

/-!
# Hook rules

`services/api/internal/hooks/hooks.go`: what a rule asks of an event, and how long it stays quiet
about a subject once it has fired.  Whoever calls `Matches` has put into the event which geofence
boundaries contain it.
-/

set_option autoImplicit false

namespace ClassG.Hooks

/-! ## Rules and events -/

/-- One "when X, do Y". -/
structure Rule where
  ruleID : String
  name : String := ""
  enabled : Bool := true
  event : String
  minConfidence : ℚ := 0
  classes : List String := []
  sensorKinds : List String := []
  onlyDrones : Bool := false
  boundaryID : String := ""
  /-- How long the rule is quiet about a subject it has fired for, in seconds. -/
  cooldownS : ℤ
  action : String
  deriving DecidableEq, Repr

/-- One thing that happened, before any rule has looked at it. -/
structure Event where
  name : String
  /-- What the cooldown keys on: a track, a sensor, a capture. -/
  subject : String
  confidence : ℚ := 0
  detectionClass : String := ""
  sensorKind : String := ""
  isDrone : Bool := false
  /-- Which boundaries contain the event. -/
  inBoundary : GoMap String Bool := .empty

def actionWebhook : String := "webhook"
def actionEmail : String := "email"
def actionNtfy : String := "ntfy"

/-- `contains`, up to case. -/
def contains (fold : Char → Char) (list : List String) (want : String) : Bool :=
  list.any fun v ↦ GoString.equalFold fold v want

/-- Whether the event satisfies the rule's conditions. -/
def Rule.matches (fold : Char → Char) (r : Rule) (e : Event) : Bool :=
  if ¬ r.enabled ∨ r.event ≠ e.name then false
  else if r.minConfidence > 0 ∧ e.confidence < r.minConfidence then false
  else if r.onlyDrones ∧ ¬ e.isDrone then false
  else if r.classes ≠ [] ∧ ¬ contains fold r.classes e.detectionClass then false
  else if r.sensorKinds ≠ [] ∧ ¬ contains fold r.sensorKinds e.sensorKind then false
  -- a boundary that is not in the map is one that does not contain the event
  else if r.boundaryID ≠ "" ∧ ¬ (e.inBoundary.get r.boundaryID).getD false then false
  else true

/-! ## The cooldown -/

/-- `time.Duration(rule.CooldownS) * time.Second`, in 64 bits. -/
def Rule.cooldown (r : Rule) : GoDuration := GoDuration.wrap (r.cooldownS * GoDuration.second)

/-- The cooldown the rule asks for, whatever its length. -/
def Rule.asked (r : Rule) : ℤ := r.cooldownS * GoDuration.second

/-- The rule's cooldown is a duration. -/
def Rule.Fits (r : Rule) : Prop := 0 ≤ r.asked ∧ r.asked ≤ GoDuration.maxDuration

instance (r : Rule) : Decidable r.Fits := inferInstanceAs (Decidable (_ ∧ _))

theorem Rule.Fits.cooldown {r : Rule} (h : r.Fits) : r.cooldown = r.asked :=
  GoDuration.wrap_of_le h.1 h.2

/-- The cooldown's slot: the rule and the subject, with a zero byte between them. -/
def cooldownKey (rule : Rule) (e : Event) : String :=
  rule.ruleID ++ String.singleton (.ofNat 0) ++ e.subject

theorem cooldownKey_congr {rule rule' : Rule} {e e' : Event} (hr : rule.ruleID = rule'.ruleID)
    (hs : e.subject = e'.subject) : cooldownKey rule e = cooldownKey rule' e' := by
  rw [cooldownKey, cooldownKey, hr, hs]

/-- How many slots the map may hold before it is swept. -/
def sweepOver : ℕ := 4096

/-- `suppressed` from the moment it holds the lock, with the clock as it read it before that:
whether the rule fired for this subject recently, and the map afterwards.  If it did not, the slot
is claimed. -/
def suppressed (cooldown : GoMap String GoTime) (rule : Rule) (e : Event) (now : GoTime) :
    Bool × GoMap String GoTime :=
  let key := cooldownKey rule e
  if (cooldown.get key).any (now < ·) then (true, cooldown)
  else
    let cooldown := cooldown.put key (now + rule.cooldown)
    (false, if sweepOver < cooldown.len then cooldown.deleteWhere (· < now) else cooldown)

/-- `release`: a failed delivery gives the slot back. -/
def release (cooldown : GoMap String GoTime) (rule : Rule) (e : Event) : GoMap String GoTime :=
  cooldown.delete (cooldownKey rule e)

section suppressed

variable (cooldown : GoMap String GoTime) (rule : Rule) (e : Event) (now : GoTime)

/-- A slot is refused while the cooldown on it runs. -/
theorem suppressed_fst :
    (suppressed cooldown rule e now).1 = true ↔
      ∃ u, cooldown.get (cooldownKey rule e) = some u ∧ now < u := by
  unfold suppressed
  dsimp only
  cases h : cooldown.get (cooldownKey rule e) with
  | none => simp
  | some u => by_cases hu : now < u <;> simp [hu]

theorem suppressed_snd_of_refused (h : (suppressed cooldown rule e now).1 = true) :
    (suppressed cooldown rule e now).2 = cooldown := by
  unfold suppressed at h ⊢
  dsimp only at h ⊢
  split
  · rfl
  · rename_i hn
    rw [if_neg hn] at h
    cases h

/-- Claiming a slot makes the map large enough to be swept. -/
def Sweeps : Prop := sweepOver < (cooldown.put (cooldownKey rule e) (now + rule.cooldown)).len

instance : Decidable (Sweeps cooldown rule e now) := inferInstanceAs (Decidable (_ < _))

variable {cooldown rule e now}

/-- **What granting a slot does to the map.**  It is claimed until the cooldown is over, and if the
map has grown too large, every slot whose cooldown is over is dropped. -/
theorem get_granted (h : (suppressed cooldown rule e now).1 ≠ true) (hfit : rule.Fits)
    (k : String) :
    (suppressed cooldown rule e now).2.get k =
      if k = cooldownKey rule e then some (now + rule.asked)
      else if Sweeps cooldown rule e now then (cooldown.get k).filter (now ≤ ·)
      else cooldown.get k := by
  unfold suppressed at h ⊢
  dsimp only at h ⊢
  split
  · rename_i hs
    rw [if_pos hs] at h
    exact absurd rfl h
  · rw [hfit.cooldown]
    have hkept : ¬ now + rule.asked < now := (Int.le_add_of_nonneg_right hfit.1).not_gt
    by_cases hsw : Sweeps cooldown rule e now
    · have hsw' := hsw
      rw [Sweeps, hfit.cooldown] at hsw'
      rw [if_pos hsw', GoMap.get_deleteWhere, GoMap.get_put]
      split
      · simp [hkept]
      · congr 1
        funext u
        simp only [← decide_not, not_lt]
    · have hsw' := hsw
      rw [Sweeps, hfit.cooldown] at hsw'
      rw [if_neg hsw', GoMap.get_put, if_neg hsw]

end suppressed

end ClassG.Hooks
