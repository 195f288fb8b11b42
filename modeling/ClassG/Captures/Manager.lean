import ClassG.Captures.Naming
import ClassG.Claims
import ClassG.ForGo.Keyed

/-!
# The capture manager

`Manager.Start` claims the interface, checks the machine, names the file, records the capture and
answers; `run` tunes the radio, runs `tcpdump` and records how it ended; `Stop` cancels it.  Here a
capture goes on in the thread of the `Start` that began it: after `go m.run` all that `Start` does
is to publish and to answer.

An interface is busy exactly while a thread has it, and only one has.  The files are another matter:
two captures are started with the same file exactly if they are started in the same second with the
same label, be it on one interface or on two (`captures_apart_iff`).
-/

set_option autoImplicit false

namespace ClassG.Captures

inductive CaptureState
  | running
  | completed
  | failed
  deriving DecidableEq

structure Capture where
  captureID : String
  filename : GoBytes
  state : CaptureState
  startedAt : GoTime
  endedAt : Option GoTime := none
  iface : String
  channel : ℤ
  durationS : ℤ
  sizeBytes : ℤ := 0
  frameCount : ℤ := 0
  label : String
  error : String := ""
  deriving DecidableEq

/-- Why a capture was not started. -/
inductive StartError
  | invalid (e : ValidationError)
  | busy
  | other (text : String)
  deriving DecidableEq

/-- Why a capture was not stopped. -/
inductive StopError
  | store (text : String)
  | notRunning (id : String) (state : CaptureState)
  deriving DecidableEq

/-! ## The calls -/

/-- What the calls ask of the machine, of the store, of the clock and of the manager's maps. -/
inductive ManagerOp
  /-- The check of `busy` and the mark, in one critical section. -/
  | claim (iface : String)
  /-- `fail` gives the interface back. -/
  | fail (iface : String)
  | preflight (iface : String)
  | mkdirAll
  | now
  | newID
  | putCapture (c : Capture)
  | register (id : String)
  | publish (c : Capture)
  /-- `Start` returns. -/
  | answer (r : Except StartError Capture)
  | setChannel (iface : String) (channel : ℤ)
  | startTcpdump (iface : String) (filename : GoBytes)
  /-- The process ends.  The answer has its error, and whether the deadline has passed or the
  capture was cancelled. -/
  | wait (id : String)
  | stat (filename : GoBytes)
  /-- The `defer` of `run`. -/
  | done (id iface : String)
  | getCapture (id : String)
  | lookup (id : String)
  | cancel (id : String)
  /-- `Stop` returns. -/
  | answerStop (r : Except StopError Capture)

@[reducible] def managerOps : Interface where
  Op := ManagerOp
  Ans
    | .claim _ => Bool
    | .preflight _ => Except String Unit
    | .mkdirAll => Except String Unit
    | .now => GoTime
    | .newID => String
    | .putCapture _ => Except String Unit
    | .setChannel _ _ => Except String Unit
    | .startTcpdump _ _ => Except String Unit
    | .wait _ => Except String Unit × Bool
    | .stat _ => Option (ℤ × ℤ)
    | .getCapture _ => Except String Capture
    | .lookup _ => Bool
    | .fail _ | .register _ | .publish _ | .answer _ | .done _ _ | .cancel _ | .answerStop _ => Unit

abbrev ManagerProgram (α : Type) := Program managerOps α

def finish (c : Capture) (state : CaptureState) (errMsg : String) : ManagerProgram Unit := do
  let now ← Program.call managerOps .now
  let c := { c with state := state, endedAt := some now, error := errMsg }
  let size ← Program.call managerOps (.stat c.filename)
  let c :=
    match size with
    | some (size, frames) => { c with sizeBytes := size, frameCount := frames }
    | none => c
  -- A write that fails is only logged.
  let _ ← Program.call managerOps (.putCapture c)
  Program.call managerOps (.publish c)

/-- `run` without its `defer`. -/
def record (c : Capture) : ManagerProgram Unit := do
  match ← Program.call managerOps (.setChannel c.iface c.channel) with
  | .error e => finish c .failed ("setting channel " ++ toString c.channel ++ ": " ++ e)
  | .ok () =>
    match ← Program.call managerOps (.startTcpdump c.iface c.filename) with
    | .error e => finish c .failed ("starting tcpdump: " ++ e)
    | .ok () =>
      match ← Program.call managerOps (.wait c.captureID) with
      | (.error e, false) => finish c .failed ("tcpdump: " ++ e)
      | _ => finish c .completed ""

def run (c : Capture) : ManagerProgram Unit := do
  record c
  Program.call managerOps (.done c.captureID c.iface)

def answer (r : Except StartError Capture) : ManagerProgram Unit :=
  Program.call managerOps (.answer r)

def failWith (iface text : String) : ManagerProgram Unit := do
  Program.call managerOps (.fail iface)
  answer (.error (.other text))

/-- The record that a capture is running. -/
def runningCapture (req : Request) (now : GoTime) (id : String) : Capture :=
  { captureID := id
    filename := fileName now req.label
    state := .running
    startedAt := now
    iface := req.iface
    channel := req.channel
    durationS := req.durationS
    label := req.label }

/-- `Start`, from where the interface has been claimed. -/
def begin (req : Request) : ManagerProgram Unit := do
  match ← Program.call managerOps (.preflight req.iface) with
  | .error e => failWith req.iface e
  | .ok () =>
    match ← Program.call managerOps .mkdirAll with
    | .error e => failWith req.iface ("capture directory: " ++ e)
    | .ok () =>
      let now ← Program.call managerOps .now
      let id ← Program.call managerOps .newID
      let c := runningCapture req now id
      match ← Program.call managerOps (.putCapture c) with
      | .error e => failWith req.iface e
      | .ok () =>
        Program.call managerOps (.register c.captureID)
        Program.call managerOps (.publish c)
        answer (.ok c)
        -- `go m.run(runCtx, c)`
        run c

def start (quote : String → String) (req : Request) : ManagerProgram Unit := do
  match validate quote req with
  | .error e => answer (.error (.invalid e))
  | .ok req =>
    if ← Program.call managerOps (.claim req.iface) then begin req
    else answer (.error .busy)

def stop (id : String) : ManagerProgram Unit := do
  match ← Program.call managerOps (.getCapture id) with
  | .error e => Program.call managerOps (.answerStop (.error (.store e)))
  | .ok c =>
    if ← Program.call managerOps (.lookup id) then
      Program.call managerOps (.cancel id)
      Program.call managerOps (.answerStop (.ok c))
    else Program.call managerOps (.answerStop (.error (.notRunning id c.state)))

/-! ## The component -/

/-- The manager and its store. -/
structure Shared where
  busy : GoMap String Bool
  /-- The captures whose context can be cancelled. -/
  running : GoMap String Unit
  cancelled : List String
  captures : Keyed Capture.captureID

/-- What is up to the environment. -/
structure ManagerEnv where
  preflight : Except String Unit := .ok ()
  mkdirAll : Except String Unit := .ok ()
  now : GoTime := 0
  newID : String := ""
  /-- The store's error, if it fails. -/
  refusal : Option String := none
  setChannel : Except String Unit := .ok ()
  startTcpdump : Except String Unit := .ok ()
  exit : Except String Unit := .ok ()
  deadline : Bool := false
  stat : Option (ℤ × ℤ) := none

/-- What the operations do. -/
def managerEffect (e : ManagerEnv) (s : Shared) :
    (op : ManagerOp) → managerOps.Ans op × Shared
  | .claim iface =>
    if s.busy.get iface = some true then (false, s)
    else (true, { s with busy := s.busy.put iface true })
  | .fail iface => ((), { s with busy := s.busy.delete iface })
  | .preflight _ => (e.preflight, s)
  | .mkdirAll => (e.mkdirAll, s)
  | .now => (e.now, s)
  | .newID => (e.newID, s)
  | .putCapture c =>
    match e.refusal with
    | some err => (.error err, s)
    | none => (.ok (), { s with captures := s.captures.put c })
  | .register id => ((), { s with running := s.running.put id () })
  | .publish _ | .answer _ | .answerStop _ => ((), s)
  | .setChannel _ _ => (e.setChannel, s)
  | .startTcpdump _ _ => (e.startTcpdump, s)
  | .wait id => ((e.exit, e.deadline || id ∈ s.cancelled), s)
  | .stat _ => (e.stat, s)
  | .done id iface =>
    ((), { s with running := s.running.delete id, busy := s.busy.delete iface })
  | .getCapture id =>
    (match e.refusal with
      | some err => .error err
      | none => match s.captures.get id with | some c => .ok c | none => .error "not found", s)
  | .lookup id => ((s.running.get id).isSome, s)
  | .cancel id => ((), { s with cancelled := id :: s.cancelled })

inductive ManagerCall
  | start (req : Request)
  | stop (id : String)

/-- Any number of threads call `Start` and `Stop`, over what the store has from before. -/
def manager {ι : Type} (quote : String → String) :
    Component ι ManagerCall managerOps Unit Shared ManagerEnv where
  init s := s.busy = .empty ∧ s.running = .empty
  admits _ _ := True
  program
    | .start req => start quote req
    | .stop id => stop id
  ready _ _ _ _ := True
  effect _ := managerEffect

end ClassG.Captures
