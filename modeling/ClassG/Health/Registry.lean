import ClassG.ForGo.Map
import ClassG.ForGo.Time
import ClassG.JsonSchema
import Mathlib.Data.List.Sort

/-!
# The registry of sensors

`api/internal/health/health.go`: what is declared, restored and heard of sensors, and the report that
`/health` gives of it.
-/

set_option autoImplicit false

namespace ClassG.Health

/-- `StatusOK`, `StatusDegraded`, `StatusDown`. -/
inductive Status
  | ok
  | degraded
  | down
  deriving DecidableEq

/-- The blob that a sensor says about itself. -/
abbrev Detail := GoMap String Json

/-- `Heartbeat`. -/
structure Heartbeat where
  sensorID : String
  sensorKind : String
  healthy : Bool
  ts : GoTime
  at' : GoTime
  detail : Detail := .empty

/-- When a heartbeat arrived, or when it says it was sent if it does not say when it arrived. -/
def Heartbeat.observed (hb : Heartbeat) : GoTime := if hb.at' = 0 then hb.ts else hb.at'

/-- `Sensor`. -/
structure Sensor where
  sensorID : String
  sensorKind : String
  healthy : Bool
  lastHeartbeat : Option GoTime
  secondsSinceHeartbeat : Option ℤ
  detections5m : ℤ
  reason : String
  detail : Detail
  optional : Bool

/-- `FusionLink`. -/
structure FusionLink where
  configured : Bool
  connected : Bool
  lastMessage : Option GoTime
  reason : String

/-- `Report`. -/
structure Report where
  status : Status
  uptimeS : ℤ
  version : String
  sensors : List Sensor
  fusion : FusionLink

/-- `entry`. -/
structure Entry where
  kind : String := ""
  last : GoTime := 0
  observed : GoTime := 0
  healthy : Bool := false
  reason : String := ""
  detail : Detail := .empty
  seen : Bool := false
  optional : Bool := false

/-- `Registry`. -/
structure Registry where
  sensors : GoMap String Entry := .empty
  staleAfter : GoDuration
  fusionConfigured : Bool := false
  fusionConnected : Bool := false
  fusionLast : GoTime := 0
  fusionReason : String := ""

namespace Registry

/-! ## Updates -/

/-- `Expect`. -/
def expect (r : Registry) (sensorID kind : String) (optional : Bool) : Registry :=
  match r.sensors.get sensorID with
  | some _ => r
  | none => { r with sensors := r.sensors.put sensorID { kind, optional } }

/-- `Restore`. -/
def restore (r : Registry) (sensorID kind : String) (last : GoTime) (reason : String) : Registry :=
  let e := (r.sensors.get sensorID).getD { kind }
  let e := if e.last < last then { e with last, observed := last, seen := true, reason } else e
  { r with sensors := r.sensors.put sensorID e }

/-- `splitReason`. -/
def splitReason (detail : Detail) : Detail × String :=
  match detail.get "reason" with
  | some (.str s) => (detail.delete "reason", s)
  | _ => (detail, "")

/-- `Heartbeat`. -/
def heartbeat (r : Registry) (hb : Heartbeat) : Registry :=
  if hb.sensorID = "" then r
  else
    let e := (r.sensors.get hb.sensorID).getD {}
    let (detail, reason) := splitReason hb.detail
    { r with sensors := r.sensors.put hb.sensorID { e with
        kind := if hb.sensorKind ≠ "" then hb.sensorKind else e.kind
        seen := true
        last := hb.ts
        observed := hb.observed
        healthy := hb.healthy
        detail, reason } }

/-- `SetFusionState`. -/
def setFusionState (r : Registry) (configured connected : Bool) (reason : String) : Registry :=
  { r with fusionConfigured := configured, fusionConnected := connected, fusionReason := reason }

/-- `NoteFusionMessage`. -/
def noteFusionMessage (r : Registry) (at' : GoTime) : Registry :=
  { r with fusionLast := at', fusionConnected := true, fusionReason := "" }

/-! ## The report -/

/-- A heartbeat is no older than `staleAfter`. -/
def fresh (r : Registry) (now observed : GoTime) : Bool := GoTime.sub now observed ≤ r.staleAfter

/-- What `plan_fallback` says. -/
def widened (detail : Detail) : Bool :=
  match detail.get "plan_fallback" with
  | some (.bool b) => b
  | _ => false

/-- `wifiCoverageIsWhole`. -/
def wifiCoverageIsWhole (r : Registry) (now : GoTime) : Bool :=
  r.sensors.values.any fun e ↦
    e.kind = "wifi" ∧ e.seen ∧ e.healthy ∧ r.fresh now e.observed ∧ widened e.detail

/-- The reason that is given for a sensor which was never heard. -/
def unseenReason (coverageWhole : Bool) (e : Entry) : String :=
  if e.reason ≠ "" then e.reason
  else if !e.optional then "no heartbeat since the api started"
  else if e.kind = "wifi" ∧ !coverageWhole then
    "not fitted, or its unit was never enabled; the remaining Wi-Fi receiver is running a split " ++
      "channel plan, so part of the plan is unwatched"
  else if e.kind = "wifi" then
    "not fitted; the remaining Wi-Fi receiver widened to the full channel plan"
  else "not fitted"

/-- The line of the report for a sensor. -/
def sensor (r : Registry) (now : GoTime) (coverageWhole : Bool) (detections5m : String → ℤ)
    (id : String) (e : Entry) : Sensor :=
  let s : Sensor := {
    sensorID := id
    sensorKind := e.kind
    healthy := false
    lastHeartbeat := none
    secondsSinceHeartbeat := none
    detections5m := detections5m id
    reason := e.reason
    detail := e.detail
    optional := e.optional }
  if !e.seen then { s with reason := unseenReason coverageWhole e }
  else
    let stale := !r.fresh now e.observed
    { s with
      lastHeartbeat := some e.last
      secondsSinceHeartbeat := some ((GoTime.sub now e.observed).tdiv GoDuration.second)
      healthy := e.healthy && !stale
      reason := if stale ∧ e.reason = "" then "heartbeat stale" else e.reason }

/-- Whether a sensor is listed but not counted. -/
def uncounted (coverageWhole : Bool) (e : Entry) : Bool :=
  e.optional && !e.seen && !(e.kind = "wifi" && !coverageWhole)

/-- `status`. -/
def status (healthy total : ℕ) (fusionConfigured fusionConnected : Bool) : Status :=
  let s :=
    if total = 0 then .down
    else if healthy = 0 then .down
    else if healthy < total then .degraded
    else .ok
  if fusionConfigured ∧ !fusionConnected ∧ s = .ok then .degraded else s

/-- What the loop over the sensors has so far. -/
structure Tally where
  healthy : ℕ := 0
  total : ℕ := 0
  sensors : List Sensor := []

/-- One sensor of the loop. -/
def tally (r : Registry) (now : GoTime) (coverageWhole : Bool) (detections5m : String → ℤ)
    (t : Tally) (x : String × Entry) : Tally :=
  let s := r.sensor now coverageWhole detections5m x.1 x.2
  if uncounted coverageWhole x.2 then { t with sensors := t.sensors ++ [s] }
  else ⟨if s.healthy then t.healthy + 1 else t.healthy, t.total + 1, t.sensors ++ [s]⟩

/-- `Snapshot`. -/
def snapshot (r : Registry) (now : GoTime) (uptime : GoDuration) (version : String)
    (detections5m : String → ℤ) : Report :=
  let coverageWhole := r.wifiCoverageIsWhole now
  let t := r.sensors.entries.foldl (r.tally now coverageWhole detections5m) {}
  { status := status t.healthy t.total r.fusionConfigured r.fusionConnected
    uptimeS := uptime.tdiv GoDuration.second
    version
    sensors := t.sensors.insertionSort fun a b ↦ a.sensorID ≤ b.sensorID
    fusion := {
      configured := r.fusionConfigured
      connected := r.fusionConnected
      lastMessage := if r.fusionLast = 0 then none else some r.fusionLast
      reason := r.fusionReason } }

end Registry

end ClassG.Health
