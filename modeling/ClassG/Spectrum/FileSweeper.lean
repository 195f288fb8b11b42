import Mathlib.Logic.Function.Basic
import ClassG.Machine

/-!
# The file exchange

The API cannot reach the radio, so `FileSweeper.Sweep` leaves a request in a directory, and an agent
on the host runs the sweep and leaves the result under the request's id.  The files are all that the
two share; a rename and a removal are atomic.  The steps of the two come in any order, and each
program may be killed and started anew between any two of its own.

* `Api`, `Agent` — where each program is.
* `Exchange.perform` — what a step does, and `none` where its program is at another point.
* `Exchange.effect_of_perform` — what a step can do.

A call of `Sweep` begins when the last has returned, and its id was never used: `Service` sees to
the first, and `newID` to the second.  `Available` looks only at a file that no step here writes.
-/

set_option autoImplicit false

namespace ClassG.Spectrum

/-! ## What the files hold -/

/-- `sweepRequest`, as the agent's `json_field` finds it. -/
structure SweepRequest where
  id : String
  band : String
  deriving DecidableEq, Repr

/-- What `write_result` writes: a document, or a text that is none, or an error. -/
inductive Answer (δ : Type)
  | doc (d : δ)
  | garbled
  | error (message : String)
  deriving DecidableEq, Repr

variable {δ : Type}

/-- What `Sweep` returns of the result it has read. -/
def Answer.returned : Answer δ → Except String δ
  | .doc d => .ok d
  | .garbled => .error "the sweep result did not decode"
  | .error "" => .error "the agent returned an empty sweep"
  | .error message => .error message

/-! ## The agent -/

/-- A character of a token. -/
def tokenChar (c : Char) : Bool := c.isAlphanum || c = '.' || c = '_' || c = '-'

/-- `valid_token`. -/
def validToken (s : String) : Bool :=
  s ≠ "" && s.toList.all tokenChar && s.toList.head? ≠ some '.' && s.length ≤ 64

/-- What the agent is configured with. -/
structure AgentConfig where
  dump1090Unit : String
  minSweepIntervalS : ℤ

/-- How the radio fares in `run_sweep`: it is not yielded, or the sensor has run, and what it
printed was a document, another text or nothing. -/
inductive SweepOutcome (δ : Type)
  | held
  | ran (rc : ℕ) (out : Option (Option δ)) (err : String)
  deriving DecidableEq, Repr

/-- `run_sweep`, as far as `write_result`. -/
def runSweep (cfg : AgentConfig) : SweepOutcome δ → Answer δ
  | .held => .error ("could not stop " ++ cfg.dump1090Unit ++ " to free the radio")
  | .ran 0 (some (some d)) _ => .doc d
  | .ran 0 (some none) _ => .garbled
  | .ran rc _ "" => .error ("the sweep failed with status " ++ toString rc)
  | .ran _ _ err => .error err

/-- What the rate limit answers. -/
def rateLimited (cfg : AgentConfig) (since : ℤ) : Answer δ :=
  .error ("rate limited: a sweep ran " ++ toString since ++ "s ago; the minimum interval is " ++
    toString cfg.minSweepIntervalS ++ "s")

/-- Where `handle_request` is. -/
inductive Agent
  | idle
  /-- The request was there. -/
  | reading
  /-- It was read, and `none` if it was gone by then. -/
  | read (body : Option SweepRequest)
  /-- It made no sense, and is there. -/
  | rereading
  /-- It is to be removed. -/
  | removing (body : Option SweepRequest)
  /-- The rate limit answers. -/
  | limited (r : SweepRequest) (since : ℤ)
  /-- `run_sweep`. -/
  | sweeping (r : SweepRequest)
  deriving DecidableEq, Repr

/-- The request has an id and a band. -/
def Sensible (body : Option SweepRequest) : Prop :=
  ∃ r, body = some r ∧ r.id ≠ "" ∧ r.band ≠ ""

instance (body : Option SweepRequest) : Decidable (Sensible body) :=
  match body with
  | none => isFalse fun ⟨_, h, _⟩ ↦ nomatch h
  | some r => decidable_of_iff (r.id ≠ "" ∧ r.band ≠ "")
    ⟨fun h ↦ ⟨r, rfl, h⟩, fun ⟨_, hr, h⟩ ↦ Option.some.inj hr ▸ h⟩

/-! ## The API -/

/-- Where `Sweep` is. -/
inductive Api (δ : Type)
  | idle
  /-- No request was in the way. -/
  | starting (r : SweepRequest)
  | waiting (id : String)
  /-- The result was read. -/
  | collecting (id : String) (a : Answer δ)
  deriving DecidableEq, Repr

/-! ## The exchange -/

/-- The directory, and the two programs. -/
structure Exchange (δ : Type) where
  request : Option SweepRequest := none
  /-- The result files, by id. -/
  result : String → Option (Answer δ) := fun _ ↦ none
  api : Api δ := .idle
  /-- The ids of all calls so far. -/
  minted : List String := []
  agent : Agent := .idle
  /-- `LAST_SWEEP_EPOCH`. -/
  lastSweep : ℤ := 0

inductive Exchange.Act (δ : Type)
  /-- `Sweep` is called, and looks whether a request is in the way. -/
  | begin (r : SweepRequest)
  /-- The request cannot be written. -/
  | unwritten
  /-- It is renamed into place. -/
  | rename
  /-- The result file is read, if it is there. -/
  | poll
  /-- Reading it fails otherwise. -/
  | unreadable
  /-- The result file is removed, and the call returns. -/
  | collect
  /-- The call gives up, and withdraws the request. -/
  | withdraw
  /-- The API is started anew. -/
  | restart
  /-- `handle_request` looks for a request. -/
  | check
  /-- It reads the file. -/
  | cat
  /-- It looks whether to read again. -/
  | recheck
  /-- It removes the file, and goes on with what it has read. -/
  | rm (now : ℤ)
  /-- It writes the result. -/
  | write (o : SweepOutcome δ)
  /-- `sweep_stale_results` deletes one. -/
  | stale (id : String)
  /-- The agent is killed and started anew. -/
  | kill

namespace Exchange

variable (cfg : AgentConfig) (s : Exchange δ)

/-- What `handle_request` goes on with, once the file is removed. -/
def proceed (body : Option SweepRequest) (now : ℤ) : Agent × ℤ :=
  match body with
  | none => (.idle, s.lastSweep)
  | some r =>
    if r.id = "" ∨ r.band = "" then (.idle, s.lastSweep)
    else if !validToken r.id || !validToken r.band then (.idle, s.lastSweep)
    else if now - s.lastSweep < cfg.minSweepIntervalS then
      (.limited r (now - s.lastSweep), s.lastSweep)
    else (.sweeping r, now)

/-- `write_result`, up to its rename. -/
def writeResult (id : String) (a : Answer δ) : Exchange δ :=
  { s with result := Function.update s.result id (some a), agent := .idle }

/-- What a step does. -/
def perform : Act δ → Option (Exchange δ)
  | .begin r =>
    match s.api with
    | .idle =>
      if r.id ∈ s.minted then none
      else if s.request = none then some { s with api := .starting r, minted := r.id :: s.minted }
      else some { s with minted := r.id :: s.minted }
    | _ => none
  | .unwritten =>
    match s.api with
    | .starting _ => some { s with api := .idle }
    | _ => none
  | .rename =>
    match s.api with
    | .starting r => some { s with request := some r, api := .waiting r.id }
    | _ => none
  | .poll =>
    match s.api with
    | .waiting id =>
      match s.result id with
      | some a => some { s with api := .collecting id a }
      | none => some s
    | _ => none
  | .unreadable =>
    match s.api with
    | .waiting _ => some { s with api := .idle }
    | _ => none
  | .collect =>
    match s.api with
    | .collecting id _ =>
      some { s with result := Function.update s.result id none, api := .idle }
    | _ => none
  | .withdraw =>
    match s.api with
    | .waiting _ => some { s with request := none, api := .idle }
    | _ => none
  | .restart => some { s with api := .idle }
  | .check =>
    match s.agent with
    | .idle => some { s with agent := if s.request = none then .idle else .reading }
    | _ => none
  | .cat =>
    match s.agent with
    | .reading => some { s with agent := .read s.request }
    | .rereading => some { s with agent := .removing s.request }
    | _ => none
  | .recheck =>
    match s.agent with
    | .read body =>
      some { s with
        agent := if Sensible body ∨ s.request = none then .removing body else .rereading }
    | _ => none
  | .rm now =>
    match s.agent with
    | .removing body =>
      some { s with
        request := none
        agent := (s.proceed cfg body now).1
        lastSweep := (s.proceed cfg body now).2 }
    | _ => none
  | .write o =>
    match s.agent with
    | .limited r since => some (s.writeResult r.id (rateLimited cfg since))
    | .sweeping r => some (s.writeResult r.id (runSweep cfg o))
    | _ => none
  | .stale id =>
    match s.agent with
    | .idle => some { s with result := Function.update s.result id none }
    | _ => none
  | .kill => some { s with agent := .idle, lastSweep := 0 }

end Exchange

/-- The exchange as a machine: it starts with an empty directory. -/
def exchange (δ : Type) (cfg : AgentConfig) : Machine (Exchange δ) (Exchange.Act δ) where
  init s := s = {}
  next s a s' := s.perform cfg a = some s'

namespace Exchange

variable {cfg : AgentConfig}

/-- What a step can do. -/
inductive Effect (cfg : AgentConfig) (s : Exchange δ) : Act δ → Exchange δ → Prop
  | begin {r : SweepRequest} (ha : s.api = .idle) (hid : r.id ∉ s.minted)
      (hr : s.request = none) :
      Effect cfg s (.begin r) { s with api := .starting r, minted := r.id :: s.minted }
  /-- A request is in the way. -/
  | busy {r : SweepRequest} (ha : s.api = .idle) (hid : r.id ∉ s.minted)
      (hr : s.request ≠ none) :
      Effect cfg s (.begin r) { s with minted := r.id :: s.minted }
  | unwritten {r : SweepRequest} (ha : s.api = .starting r) :
      Effect cfg s .unwritten { s with api := .idle }
  | rename {r : SweepRequest} (ha : s.api = .starting r) :
      Effect cfg s .rename { s with request := some r, api := .waiting r.id }
  | found {id : String} {a : Answer δ} (ha : s.api = .waiting id) (hr : s.result id = some a) :
      Effect cfg s .poll { s with api := .collecting id a }
  | missing {id : String} (ha : s.api = .waiting id) : Effect cfg s .poll s
  | unreadable {id : String} (ha : s.api = .waiting id) :
      Effect cfg s .unreadable { s with api := .idle }
  | collect {id : String} {a : Answer δ} (ha : s.api = .collecting id a) :
      Effect cfg s .collect
        { s with result := Function.update s.result id none, api := .idle }
  | withdraw {id : String} (ha : s.api = .waiting id) :
      Effect cfg s .withdraw { s with request := none, api := .idle }
  | restart : Effect cfg s .restart { s with api := .idle }
  | check (ha : s.agent = .idle) :
      Effect cfg s .check { s with agent := if s.request = none then .idle else .reading }
  | cat (ha : s.agent = .reading) : Effect cfg s .cat { s with agent := .read s.request }
  | recat (ha : s.agent = .rereading) : Effect cfg s .cat { s with agent := .removing s.request }
  | recheck {body : Option SweepRequest} (ha : s.agent = .read body) :
      Effect cfg s .recheck { s with
        agent := if Sensible body ∨ s.request = none then .removing body else .rereading }
  | rm {body : Option SweepRequest} {now : ℤ} (ha : s.agent = .removing body) :
      Effect cfg s (.rm now) { s with
        request := none
        agent := (s.proceed cfg body now).1
        lastSweep := (s.proceed cfg body now).2 }
  | limited {r : SweepRequest} {since : ℤ} {o : SweepOutcome δ} (ha : s.agent = .limited r since) :
      Effect cfg s (.write o) (s.writeResult r.id (rateLimited cfg since))
  | swept {r : SweepRequest} {o : SweepOutcome δ} (ha : s.agent = .sweeping r) :
      Effect cfg s (.write o) (s.writeResult r.id (runSweep cfg o))
  | stale {id : String} (ha : s.agent = .idle) :
      Effect cfg s (.stale id) { s with result := Function.update s.result id none }
  | kill : Effect cfg s .kill { s with agent := .idle, lastSweep := 0 }

theorem effect_of_perform {s s' : Exchange δ} {a : Act δ} (hp : s.perform cfg a = some s') :
    Effect cfg s a s' := by
  cases a <;> rw [perform] at hp
  case begin r =>
    split at hp
    · rename_i ha
      split at hp
      · cases hp
      rename_i hid
      split at hp
      · rename_i hr
        rw [← Option.some.inj hp]
        exact .begin ha hid hr
      · rename_i hr
        rw [← Option.some.inj hp]
        exact .busy ha hid hr
    · cases hp
  case poll =>
    split at hp
    · rename_i ha
      split at hp
      · rename_i hr
        rw [← Option.some.inj hp]
        exact .found ha hr
      · rw [← Option.some.inj hp]
        exact .missing ha
    · cases hp
  case cat =>
    split at hp
    · rename_i ha
      rw [← Option.some.inj hp]
      exact .cat ha
    · rename_i ha
      rw [← Option.some.inj hp]
      exact .recat ha
    · cases hp
  case write o =>
    split at hp
    · rename_i ha
      rw [← Option.some.inj hp]
      exact .limited ha
    · rename_i ha
      rw [← Option.some.inj hp]
      exact .swept ha
    · cases hp
  case restart =>
    rw [← Option.some.inj hp]
    exact .restart
  case kill =>
    rw [← Option.some.inj hp]
    exact .kill
  all_goals
    split at hp
    · rename_i ha
      rw [← Option.some.inj hp]
      constructor
      exact ha
    · cases hp

end Exchange

end ClassG.Spectrum
