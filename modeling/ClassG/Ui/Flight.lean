import ClassG.Binary64
import ClassG.Ui.FlightSpeed

/-!
# Flights

The track documents that the console lists, as much of them as its lists and its timeline use, and
`features/tracks/flight-metrics.ts` on them.

What `Date.parse` makes of a text is given, with `none` for `NaN`.
-/

set_option autoImplicit false

namespace ClassG.Ui

/-- `DetectionClass`. -/
inductive DetectionClass
  | A | B | C | D | E | F | G | H
  deriving DecidableEq, Repr

/-- `Track['identity']`, with `none` for a property that is missing or `null`. -/
structure FlightIdentity where
  serial : Option String := none
  manufacturerCode : Option String := none
  vendor : Option String := none
  modelHint : Option String := none
  operatorId : Option String := none
  macs : Option (List String) := none
  deriving DecidableEq

/-- `Track`. -/
structure Flight where
  trackId : String
  firstSeen : String
  lastSeen : String
  detectionCount : Double := .fin 1
  identity : Option FlightIdentity := none
  /-- The class of each item of `evidence`. -/
  evidence : Option (List DetectionClass) := none
  operator : Option Position := none
  deriving DecidableEq

namespace Flight

variable (dateParse : String → Option ℤ) (track : Flight)

/-- `flightStartMs`. -/
def startMs : Option ℤ := dateParse track.firstSeen

/-- `flightEndMs`. -/
def endMs : Option ℤ := dateParse track.lastSeen

/-- `flightDurationS`.  The difference and the quotient are rounded to doubles. -/
def durationS : Option Double :=
  match track.startMs dateParse, track.endMs dateParse with
  | some start, some stop =>
    if stop < start then none else some ((Double.round (stop - start)).scale (1 / 1000))
  | _, _ => none

/-- `hasOperatorFix`. -/
def hasOperatorFix : Bool := track.operator.isSome

end Flight

end ClassG.Ui
