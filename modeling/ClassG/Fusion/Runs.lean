import ClassG.Fusion.Correlate
import ClassG.Machine

/-!
# Runs of the track store

The calls the rest of fusion makes on a `TrackStore`, and the runs they make up.  Every call takes
the lock for its whole length, so a run of the store under any number of callers is a sequence of
calls.  The only choice the store itself has is the order in which `Reap` visits its map, which is
an argument of the call: any order that visits every live track once.

Nothing here asks the clock to go forwards.  Results that need it say so; most hold for calls with
any times at all.
-/

set_option autoImplicit false

namespace ClassG.Fusion

/-- A call on the track store. -/
inductive Op
  | ingest (d : Detection) (now : GoTime) (terrain : TerrainResolver)
  | reap (now : GoTime) (order : List Ref)
  | correlateContacts (contacts : List ADSBContact)

namespace Op

/-- The clock reading a call is made with, if it is made with one. -/
def now : Op → Option GoTime
  | .ingest _ now _ => some now
  | .reap now _ => some now
  | .correlateContacts _ => none

/-- The MAC of the detection a call is made with. -/
def mac : Op → String
  | .ingest d _ _ => d.identity.mac
  | _ => ""

/-- `Reap` visits every live track once. -/
def Ok (σ : TrackStore) : Op → Prop
  | .reap _ order => order.Perm σ.all
  | _ => True

instance (σ : TrackStore) : (op : Op) → Decidable (op.Ok σ)
  | .ingest _ _ _ => .isTrue trivial
  | .reap _ order => inferInstanceAs (Decidable (order.Perm σ.all))
  | .correlateContacts _ => .isTrue trivial

variable (cfg : Config)

/-- The store after a call. -/
def apply (σ : TrackStore) : Op → TrackStore
  | .ingest d now terrain => (σ.ingest cfg d now terrain).1
  | .reap now order => (σ.reap cfg now order).1
  | .correlateContacts contacts => (σ.correlateContacts cfg contacts).1

/-- The track a call returns a detection folded into. -/
def track (σ : TrackStore) : Op → Option Ref
  | .ingest d now terrain => (σ.ingest cfg d now terrain).2
  | _ => none

end Op

/-- The track store as a machine: from the empty store, by calls. -/
def storeMachine (cfg : Config) : Machine TrackStore Op where
  init σ := σ = {}
  next σ op σ' := op.Ok σ ∧ σ' = op.apply cfg σ

/-- The clock readings of a run never go back. -/
def Ascending (tr : List (Machine.Step TrackStore Op)) : Prop :=
  (tr.filterMap fun x ↦ x.act.now).Pairwise (· ≥ ·)

instance (tr : List (Machine.Step TrackStore Op)) : Decidable (Ascending tr) :=
  inferInstanceAs (Decidable (List.Pairwise _ _))

/-- The store after the calls `ops`. -/
def after (cfg : Config) (ops : List Op) : TrackStore :=
  Machine.replay (fun σ op ↦ op.apply cfg σ) {} ops

/-- The steps of the calls `ops`, latest first. -/
def stepsOf (cfg : Config) (ops : List Op) : List (Machine.Step TrackStore Op) :=
  Machine.replaySteps (fun σ op ↦ op.apply cfg σ) {} ops []

/-- Calls that are each admitted make up a run. -/
theorem run_after {cfg : Config} {ops : List Op}
    (h : Machine.Admits (fun σ op ↦ op.apply cfg σ) (fun σ op ↦ op.Ok σ) {} ops) :
    (storeMachine cfg).Run (stepsOf cfg ops) (after cfg ops) :=
  Machine.Run.replay (M := storeMachine cfg) (fun _ _ hok ↦ ⟨hok, rfl⟩) ops (.init rfl) h

/-! ## A concrete store

The default lifecycle and weights, ids that are distinct by their length, and the distance along a
meridian.  The flights the other files show are all flown over one point of one meridian. -/

/-- A store as `main` makes it. -/
def defaultConfig : Config where
  lifecycle := defaultLifecycle
  weights := defaultWeights
  newID n := .ofList (List.replicate n 'T')
  newID_injective a b h := by
    simpa using congrArg List.length (String.ofList_injective h)
  horizontalDistanceM lat₁ _ lat₂ _ := 111195 * |lat₂ - lat₁|

/-- A whole number of seconds on the clock. -/
def clock (s : ℕ) : GoTime := s * GoDuration.second

/-- A class A detection of a serial over a MAC, at `s` seconds. -/
def heard (serial mac : String) (s : ℕ) : Detection where
  ts := clock s
  sensorID := "wifi-0"
  sensorKind := "wifi"
  detectionClass := "A"
  identity := { serial := serial, mac := mac }

/-- The same detection with a fix over the launch point, `alt` metres up. -/
def Detection.above (d : Detection) (alt : ℚ) : Detection :=
  { d with position := some { lat := 46, lon := -122, altGeodeticM := some alt } }

/-- `Ingest` at `s` seconds, with no terrain model. -/
def Op.ingestAt (s : ℕ) (d : Detection) : Op := .ingest d (clock s) fun _ _ _ ↦ none

/-- `Reap` at `s` seconds. -/
def Op.reapAt (s : ℕ) (order : List Ref) : Op := .reap (clock s) order

/-- An aircraft heard taking off, and confirmed. -/
def takeOff (serial mac : String) : List Op :=
  [.ingestAt 1 ((heard serial mac 1).above 47), .ingestAt 4 ((heard serial mac 4).above 60)]

end ClassG.Fusion
