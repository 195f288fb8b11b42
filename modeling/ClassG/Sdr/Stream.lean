import ClassG.Pieces
import ClassG.Sdr.Sbs
import ClassG.Ulid.Encoders

/-!
# The stream of dump1090

`sensor-sdr/src/adsb.rs`: bytes as they are read become lines, and lines become detections that the
bus is given.  What the clock says and whether the bus has room is given for each line by its number;
what is logged, and the heartbeats, are left out.
-/

set_option autoImplicit false

namespace ClassG.Sdr

/-! ## The clock -/

/-- `civil_from_days`. -/
def civilFromDays (days : ℤ) : ℤ × ℤ × ℤ :=
  let z := days + 719468
  let era := z / 146097
  let doe := z % 146097
  let yoe := (doe - doe / 1460 + doe / 36524 - doe / 146096) / 365
  let doy := doe - (365 * yoe + yoe / 4 - yoe / 100)
  let mp := (5 * doy + 2) / 153
  let m := if mp < 10 then mp + 3 else mp - 9
  (if m ≤ 2 then yoe + era * 400 + 1 else yoe + era * 400, m, doy - (153 * mp + 2) / 5 + 1)

/-- `{n:0w}`. -/
def pad (w : ℕ) (n : ℤ) : String :=
  let sign := if n < 0 then ['-'] else []
  let ds := (toString n.natAbs).toList
  .ofList (sign ++ List.replicate (w - sign.length - ds.length) '0' ++ ds)

/-- `rfc3339_ms`. -/
def rfc3339Ms (epochMs : ℤ) : String :=
  let ms := epochMs % 86400000
  let (year, month, day) := civilFromDays (epochMs / 86400000)
  pad 4 year ++ "-" ++ pad 2 month ++ "-" ++ pad 2 day ++ "T" ++ pad 2 (ms / 3600000) ++ ":" ++
    pad 2 (ms / 60000 % 60) ++ ":" ++ pad 2 (ms / 1000 % 60) ++ "." ++ pad 3 (ms % 1000) ++ "Z"

/-! ## Lines -/

/-- `MAX_LINE_BYTES`. -/
def maxLineBytes : ℕ := 64 * 1024

/-- `MAX_TRACKED_ICAOS`. -/
def maxTrackedICAOs : ℕ := 4096

/-- What handling a line depends on: the configuration, the clock, and the bus. -/
structure Env where
  upper : Char → List Char
  sensorID : String
  now : ℕ → ℤ
  takes : ℕ → Bool

/-- The counters of `Stats`, and what else it remembers of the lines. -/
structure Stats where
  linesRead : ℕ := 0
  parsed : ℕ := 0
  unparsed : ℕ := 0
  dropped : ℕ := 0
  reconnects : ℕ := 0
  icaos : List String := []
  icaosSaturated : Bool := false
  connected : Bool := false
  lastError : Option String := none
  lastMessage : Option ℤ := none
  deriving DecidableEq

/-- What a sensor has: its counters, its identifiers, and what it has given to the bus. -/
structure Session where
  stats : Stats := {}
  ulid : Ulid.UlidFactory
  published : List Detection := []

/-- An aircraft is acquired, unless there are too many. -/
def Stats.acquire (s : Stats) (icao : String) : Stats :=
  if icao ∈ s.icaos then s
  else if s.icaos.length < maxTrackedICAOs then { s with icaos := icao :: s.icaos }
  else { s with icaosSaturated := true }

/-- `handle_line`. -/
def handleLine (env : Env) (s : Session) (line : List Byte) : Session :=
  let now := env.now s.stats.linesRead
  let takes := env.takes s.stats.linesRead
  let stats := { s.stats with linesRead := s.stats.linesRead + 1, lastMessage := some now }
  let text := RustText.fromUtf8Lossy line
  match parseLine env.upper text env.sensorID (rfc3339Ms now) with
  | .error _ => { s with stats := { stats with unparsed := stats.unparsed + 1 } }
  | .ok d =>
    let (id, ulid) := s.ulid.mint now
    let d := { d with detectionID := id }
    let stats := match d.adsb with
      | none => stats
      | some adsb => stats.acquire adsb.icao
    { stats := { stats with
        parsed := stats.parsed + 1
        dropped := if takes then stats.dropped else stats.dropped + 1 }
      ulid
      published := s.published ++ [d] }

/-- The end of a line that was given up on. -/
def Session.giveUp (s : Session) : Session :=
  { s with stats := { s.stats with
      linesRead := s.stats.linesRead + 1
      unparsed := s.stats.unparsed + 1 } }

/-! ## Reading -/

/-- `ErrorKind`, as far as it is told apart. -/
inductive ErrorKind
  | interrupted
  | wouldBlock
  | timedOut
  | other
  deriving DecidableEq

/-- What `fill_buf` returns. -/
inductive Filled
  | ok (chunk : List Byte)
  | err (kind : ErrorKind) (message : String)
  deriving DecidableEq

/-- The variables of `pump`. -/
structure Pump where
  session : Session
  line : List Byte := []
  oversized : Bool := false

/-- One byte of a chunk. -/
def Pump.byte (env : Env) (p : Pump) (b : Byte) : Pump :=
  if b = 10 then
    if p.oversized then ⟨p.session.giveUp, [], false⟩
    else ⟨handleLine env p.session p.line, [], false⟩
  else if b = 13 then p
  else if maxLineBytes ≤ p.line.length then
    if p.oversized then p else { p with line := [], oversized := true }
  else { p with line := p.line ++ [b] }

/-- The loop of `pump`, until the stream ends or `stop` is set after the last read. -/
def Pump.loop (env : Env) (p : Pump) : List Filled → Pump
  | [] => p
  | .ok [] :: _ => p
  | .ok (b :: chunk) :: rest => ((b :: chunk).foldl (Pump.byte env) p).loop env rest
  | .err .interrupted _ :: rest => p.loop env rest
  | .err .wouldBlock _ :: rest => p.loop env rest
  | .err .timedOut _ :: rest => p.loop env rest
  | .err .other message :: _ =>
    { p with session := { p.session with stats := { p.session.stats with
        lastError := some message } } }

/-- `pump`. -/
def pump (env : Env) (s : Session) (reads : List Filled) : Pump := Pump.loop env ⟨s, [], false⟩ reads

/-- What becomes of an attempt to connect. -/
inductive Attempt
  | refused (message : String)
  | stream (reads : List Filled) (stopped : Bool)

/-- The loop of `run`, until `stop` is set. -/
def run (env : Env) (s : Session) : List Attempt → Session
  | [] => s
  | .refused message :: rest => run env
      { s with stats := { s.stats with connected := false, lastError := some message } } rest
  | .stream reads stopped :: rest =>
    let s := { s with stats := { s.stats with connected := true, lastError := none } }
    let s := (pump env s reads).session
    let s := { s with stats := { s.stats with connected := false } }
    if stopped then s
    else run env { s with stats := { s.stats with reconnects := s.stats.reconnects + 1 } } rest

end ClassG.Sdr
