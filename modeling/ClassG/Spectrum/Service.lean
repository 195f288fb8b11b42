import ClassG.ForGo.Bytes
import ClassG.ForGo.Keyed
import ClassG.ForGo.Time
import ClassG.Program

/-!
# The sweep service

`spectrum.Service` runs one sweep at a time: `Start` records it as running and answers, and `run`
sweeps and records the outcome on a goroutine of its own.  Here a sweep goes on in the thread of the
`Start` that began it; other calls of `Start` come from other threads.

The store may refuse any write, and the sweeper may fail in any way.
-/

set_option autoImplicit false

namespace ClassG.Spectrum

/-! ## Documents -/

/-- One entry of the sensor's band plan. -/
structure Band where
  name : String
  cls : String
  note : String
  startHz : ℤ
  stopHz : ℤ
  steps : ℤ
  deriving DecidableEq

structure DocStep where
  peakHz : Option ℚ
  peakDBFS : Option ℚ
  deriving DecidableEq

/-- What is looked at of the sensor's output. -/
structure Doc where
  band : String
  noiseFloorDBFS : Option ℚ
  thresholdDBFS : Option ℚ
  steps : List DocStep
  shortReads : List ℤ
  deriving DecidableEq

/-- The loop of `Peak`. -/
def Doc.peakOf : Option (ℚ × ℚ) → List DocStep → Option (ℚ × ℚ)
  | best, [] => best
  | best, s :: rest =>
    match s.peakHz, s.peakDBFS with
    | some hz, some db =>
      if best.all fun b ↦ b.2 < db then peakOf (some (hz, db)) rest else peakOf best rest
    | _, _ => peakOf best rest

/-- The strongest bin, its frequency first. -/
def Doc.peak (d : Doc) : Option (ℚ × ℚ) := peakOf none d.steps

/-- `ParseDoc`, where `decode` is `json.Unmarshal` with its error as a text. -/
def parseDoc (decode : GoBytes → Except String Doc) (b : GoBytes) : Except String Doc :=
  match decode b with
  | .error e => .error ("decoding sweep: " ++ e)
  | .ok d => if d.band = "" then .error "decoding sweep: no band name" else .ok d

inductive SweepState
  | running
  | completed
  | failed
  deriving DecidableEq

structure SpectrumSweep where
  sweepID : String
  band : String
  state : SweepState
  startedAt : GoTime
  endedAt : Option GoTime := none
  cls : String
  note : String
  startHz : ℤ
  stopHz : ℤ
  steps : ℤ
  noiseFloorDBFS : Option ℚ := none
  thresholdDBFS : Option ℚ := none
  peakDBFS : Option ℚ := none
  peakHz : Option ℚ := none
  shortReads : ℤ := 0
  error : String := ""
  deriving DecidableEq

/-! ## The calls -/

/-- Why a sweep was not started. -/
inductive StartError
  | unavailable (why : String)
  | unknownBand (band : String)
  | busy (id : String)
  | other (text : String)
  deriving DecidableEq

/-- What the calls ask of the sweeper, of the store, of the clock and of what they share. -/
inductive ServiceOp
  | available
  | bands
  /-- The critical section of `Start`, with `NewID` in it. -/
  | claim
  | now
  | putSweep (sweep : SpectrumSweep)
  | publish (sweep : SpectrumSweep)
  /-- `Start` returns. -/
  | answer (r : Except StartError SpectrumSweep)
  | sweep (band : String)
  | putSweepBins (id : String) (raw : GoBytes)
  | finish (id : String)

@[reducible] def serviceOps : Interface where
  Op := ServiceOp
  Ans
    | .available => Bool × String
    | .bands => Except String (List Band)
    | .claim => Except String String
    | .now => GoTime
    | .putSweep _ => Except String Unit
    | .sweep _ => Except String GoBytes
    | .putSweepBins _ _ => Except String Unit
    | .publish _ | .answer _ | .finish _ => Unit

abbrev ServiceProgram (α : Type) := Program serviceOps α

/-- `run`, from where the outcome of the sweep is known to have been a failure. -/
def recordFailure (sweep : SpectrumSweep) (err : String) : ServiceProgram Unit := do
  let sweep := { sweep with state := .failed, error := err }
  let _ ← Program.call serviceOps (.putSweep sweep)
  Program.call serviceOps (.publish sweep)

/-- `run`, from where the document has been read.  A record that the store refuses is not
published. -/
def recordMeasurement (sweep : SpectrumSweep) (raw : GoBytes) (doc : Doc) :
    ServiceProgram Unit := do
  let sweep :=
    { sweep with
      state := .completed
      noiseFloorDBFS := doc.noiseFloorDBFS
      thresholdDBFS := doc.thresholdDBFS
      peakHz := doc.peak.map Prod.fst
      peakDBFS := doc.peak.map Prod.snd
      steps := doc.steps.length
      shortReads := doc.shortReads.length }
  match ← Program.call serviceOps (.putSweep sweep) with
  | .error _ => return ()
  | .ok () =>
    let _ ← Program.call serviceOps (.putSweepBins sweep.sweepID raw)
    Program.call serviceOps (.publish sweep)

variable (decode : GoBytes → Except String Doc)

/-- `run` without its `defer`. -/
def measure (sweep : SpectrumSweep) : ServiceProgram Unit := do
  let swept ← Program.call serviceOps (.sweep sweep.band)
  let ended ← Program.call serviceOps .now
  let sweep := { sweep with endedAt := some ended }
  match swept with
  | .error err => recordFailure sweep err
  | .ok raw =>
    match parseDoc decode raw with
    | .error err => recordFailure sweep err
    | .ok doc => recordMeasurement sweep raw doc

def run (sweep : SpectrumSweep) : ServiceProgram Unit := do
  measure decode sweep
  Program.call serviceOps (.finish sweep.sweepID)

def answer (r : Except StartError SpectrumSweep) : ServiceProgram Unit :=
  Program.call serviceOps (.answer r)

/-- The record that a sweep is running. -/
def runningSweep (id : String) (plan : Band) (startedAt : GoTime) : SpectrumSweep :=
  { sweepID := id
    band := plan.name
    state := .running
    startedAt := startedAt
    cls := plan.cls
    note := plan.note
    startHz := plan.startHz
    stopHz := plan.stopHz
    steps := plan.steps }

/-- `Start`, from where the id has been claimed. -/
def begin (id : String) (plan : Band) : ServiceProgram Unit := do
  let startedAt ← Program.call serviceOps .now
  let sweep := runningSweep id plan startedAt
  match ← Program.call serviceOps (.putSweep sweep) with
  | .error e =>
    Program.call serviceOps (.finish id)
    answer (.error (.other e))
  | .ok () =>
    Program.call serviceOps (.publish sweep)
    answer (.ok sweep)
    -- `go s.run(sweep)`
    run decode sweep

def start (band : String) : ServiceProgram Unit := do
  match ← Program.call serviceOps .available with
  | (false, why) => answer (.error (.unavailable why))
  | (true, _) =>
    match ← Program.call serviceOps .bands with
    | .error e => answer (.error (.other e))
    | .ok bands =>
      match bands.find? (fun b ↦ b.name = band) with
      | none => answer (.error (.unknownBand band))
      | some plan =>
        match ← Program.call serviceOps .claim with
        | .error id => answer (.error (.busy id))
        | .ok id => begin decode id plan

/-! ## The component -/

/-- The service and its store. -/
structure Shared where
  /-- The sweep in flight, or `""`. -/
  running : String
  sweeps : Keyed SpectrumSweep.sweepID
  /-- The ids that are in use: `NewID` does not return one of them. -/
  minted : List String

/-- What is up to the environment. -/
structure ServiceEnv where
  available : Bool × String := (true, "")
  bands : Except String (List Band) := .ok []
  newID : String := ""
  now : GoTime := 0
  swept : Except String GoBytes := .ok []
  /-- The store's error, if it refuses the write. -/
  refusal : Option String := none

/-- What the operations do. -/
def serviceEffect (e : ServiceEnv) (s : Shared) :
    (op : ServiceOp) → serviceOps.Ans op × Shared
  | .available => (e.available, s)
  | .bands => (e.bands, s)
  | .claim =>
    if s.running ≠ "" then (.error s.running, s)
    else (.ok e.newID, { s with running := e.newID, minted := e.newID :: s.minted })
  | .now => (e.now, s)
  | .putSweep sweep =>
    match e.refusal with
    | some err => (.error err, s)
    | none => (.ok (), { s with sweeps := s.sweeps.put sweep })
  | .publish _ | .answer _ => ((), s)
  | .sweep _ => (e.swept, s)
  | .putSweepBins _ _ => (match e.refusal with | some err => .error err | none => .ok (), s)
  | .finish id => ((), if s.running = id then { s with running := "" } else s)

/-- `NewID` returns an id that is not in use, and not the empty one. -/
def Mints (e : ServiceEnv) (s : Shared) : ServiceOp → Prop
  | .claim => e.newID ≠ "" ∧ e.newID ∉ s.minted
  | _ => True

/-- Any number of threads call `Start`, over what the store has from before. -/
def service {ι : Type} : Component ι String serviceOps Unit Shared ServiceEnv where
  init s := s.running = ""
  admits _ _ := True
  program := start decode
  ready _ e s op := Mints e s op
  effect _ := serviceEffect

end ClassG.Spectrum
