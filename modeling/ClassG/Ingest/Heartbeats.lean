import ClassG.Edges
import ClassG.Health.Registry
import ClassG.Ingest.Ingestor

/-!
# Heartbeats, and what is told of them

`Ingestor.Heartbeat` of `api/internal/ingest/ingest.go` hands a heartbeat to the registry and to the
store, and tells the hooks when a sensor goes bad or recovers.  `alerts_of_sensor` says what the hooks
are told of one sensor in a run of heartbeats of many.

`HealthBroadcaster` sends browsers a report when it differs from the one before.  The report has the
uptime in it, in seconds, so it always does: `broadcasts_every_tick`.
-/

set_option autoImplicit false

namespace ClassG.Ingest

open Health

/-! ## Heartbeats -/

/-- `heartbeatMessage`. -/
structure HeartbeatMessage where
  sensorID : String := ""
  sensorKind : String := ""
  healthy : Bool := false
  ts : GoTime := 0
  detail : Detail := .empty

/-- A message on the heartbeat topic, with what `json.Unmarshal` makes of its body, and when it is
taken. -/
structure Arrival where
  topic : String
  decoded : Option HeartbeatMessage
  now : GoTime

/-- What the hooks are told of a sensor, with all that an action sends. -/
structure SensorAlert extends Hooks.Event where
  atTime : GoTime
  payload : GoMap String Json

/-- What a heartbeat makes the ingestor do. -/
inductive HeartbeatEffect
  /-- `Registry.Heartbeat`. -/
  | registry (hb : Heartbeat)
  /-- `fireHook`. -/
  | fire (e : SensorAlert)
  /-- `UpsertSensor`. -/
  | upsertSensor (hb : Heartbeat)

/-- `strings.Cut(topic, ".")`, what comes after. -/
def kindOfTopic (topic : String) : Option String :=
  match topic.toList.dropWhile (· ≠ '.') with
  | [] => none
  | _ :: kind => some (.ofList kind)

/-- The heartbeat of a message.  The topic has the kind of the sensor too, and without a time in the
message the heartbeat is of now. -/
def Arrival.heartbeat (a : Arrival) : Option Heartbeat :=
  match a.decoded with
  | none => none
  | some hb =>
    if hb.sensorID = "" then none
    else
      some {
        sensorID := hb.sensorID
        sensorKind := if hb.sensorKind = "" then (kindOfTopic a.topic).getD "" else hb.sensorKind
        healthy := hb.healthy
        ts := if hb.ts = 0 then a.now else hb.ts
        at' := a.now
        detail := hb.detail }

/-- What the hooks are told. -/
def sensorAlert (hb : Heartbeat) (now : GoTime) : SensorAlert where
  name := if hb.healthy then Hooks.eventSensorRecovered else Hooks.eventSensorUnhealthy
  subject := hb.sensorID
  sensorKind := hb.sensorKind
  atTime := now
  payload :=
    let payload := ((GoMap.empty.put "sensor_id" (.str hb.sensorID)).put "sensor_kind"
      (.str hb.sensorKind)).put "healthy" (.bool hb.healthy)
    match hb.detail.get "error" with
    | some reason => payload.put "reason" reason
    | none => payload

/-- `Ingestor.Heartbeat`, on the map `lastHealth`. -/
def heartbeat (lastHealth : GoMap String Bool) (a : Arrival) :
    GoMap String Bool × List HeartbeatEffect :=
  match a.heartbeat with
  | none => (lastHealth, [])
  | some hb =>
    let prev := lastHealth.get hb.sensorID
    if prev = some hb.healthy then (lastHealth, [.registry hb, .upsertSensor hb])
    else
      -- that a sensor starts up is no recovery
      let alerts := if prev ≠ none ∨ hb.healthy = false then
        [HeartbeatEffect.fire (sensorAlert hb a.now)] else []
      (lastHealth.put hb.sensorID hb.healthy, .registry hb :: alerts ++ [.upsertSensor hb])

/-- What a run of messages makes the ingestor do. -/
def heartbeats : GoMap String Bool → List Arrival → List HeartbeatEffect
  | _, [] => []
  | lastHealth, a :: run => (heartbeat lastHealth a).2 ++ heartbeats (heartbeat lastHealth a).1 run

/-- The alerts among what is done. -/
def alerts (effects : List HeartbeatEffect) : List SensorAlert :=
  effects.filterMap fun e ↦ match e with
    | .fire e => some e
    | _ => none

/-- What an alert says. -/
def SensorAlert.told (e : SensorAlert) : String × Bool :=
  (e.subject, e.name = Hooks.eventSensorRecovered)

/-- What a heartbeat says. -/
def said (hb : Heartbeat) : String × Bool := (hb.sensorID, hb.healthy)

theorem told_sensorAlert (hb : Heartbeat) (now : GoTime) : (sensorAlert hb now).told = said hb := by
  obtain ⟨sensorID, sensorKind, healthy⟩ := hb
  cases healthy <;> rfl

theorem alerts_append (l l' : List HeartbeatEffect) : alerts (l ++ l') = alerts l ++ alerts l' :=
  List.filterMap_append

/-- A heartbeat. -/
theorem heartbeat_spec (lastHealth : GoMap String Bool) {a : Arrival} {hb : Heartbeat}
    (h : a.heartbeat = some hb) :
    (heartbeat lastHealth a).1.get =
        Function.update lastHealth.get hb.sensorID (some hb.healthy) ∧
      (alerts (heartbeat lastHealth a).2).map SensorAlert.told =
        if Edges.IsNews (lastHealth.get hb.sensorID) hb.healthy then [said hb] else [] := by
  rw [heartbeat, h]
  dsimp only
  by_cases hprev : lastHealth.get hb.sensorID = some hb.healthy
  · rw [if_pos hprev, if_neg fun hnews : Edges.IsNews _ _ ↦ hnews.1 hprev]
    refine ⟨?_, rfl⟩
    rw [← hprev, Function.update_eq_self]
  · rw [if_neg hprev]
    constructor
    · funext id
      show (lastHealth.put hb.sensorID hb.healthy).get id = _
      rw [GoMap.get_put, Function.update_apply]
    · by_cases hnews : lastHealth.get hb.sensorID ≠ none ∨ hb.healthy = false
      · rw [if_pos hnews, if_pos (show Edges.IsNews _ _ from ⟨hprev, hnews⟩)]
        show [(sensorAlert hb a.now).told] = [said hb]
        rw [told_sensorAlert]
      · rw [if_neg hnews, if_neg fun h : Edges.IsNews _ _ ↦ hnews h.2]
        rfl

/-- **The alerts of a run are the news in its heartbeats.** -/
theorem alerts_heartbeats (lastHealth : GoMap String Bool) (run : List Arrival) :
    (alerts (heartbeats lastHealth run)).map SensorAlert.told =
      Edges.news lastHealth.get ((run.filterMap Arrival.heartbeat).map said) := by
  induction run generalizing lastHealth with
  | nil => rfl
  | cons a run ih =>
    rw [heartbeats, alerts_append, List.map_append, ih]
    cases ha : a.heartbeat with
    | none =>
      have hskip : heartbeat lastHealth a = (lastHealth, []) := by rw [heartbeat, ha]
      rw [hskip, List.filterMap_cons_none ha]
      rfl
    | some hb =>
      obtain ⟨hstate, halerts⟩ := heartbeat_spec lastHealth ha
      rw [hstate, halerts, List.filterMap_cons_some ha, List.map_cons, Edges.news]
      rfl

/-- **What the hooks are told of a sensor**: each change, from the first time that it is bad on. -/
theorem alerts_of_sensor (id : String) (run : List Arrival) :
    Edges.about id ((alerts (heartbeats .empty run)).map SensorAlert.told) =
      ((Edges.about id ((run.filterMap Arrival.heartbeat).map said)).destutter (· ≠ ·)).dropWhile
        fun ok ↦ ok := by
  rw [alerts_heartbeats]
  exact Edges.news_of id _

/-! ## Reports -/

/-- The loop of `HealthBroadcaster.Run`, after a last report.  A report that cannot be encoded is
skipped. -/
def broadcasts (encode : Report → Option String) : String → List Report → List Report
  | _, [] => []
  | last, r :: rs =>
    match encode r with
    | none => broadcasts encode last rs
    | some text =>
      if text = last then broadcasts encode last rs else r :: broadcasts encode text rs

/-- What a tick finds. -/
structure HealthTick where
  registry : Registry
  now : GoTime
  uptime : GoDuration
  detections5m : String → ℤ

/-- `Server.Health`. -/
def HealthTick.report (version : String) (t : HealthTick) : Report :=
  t.registry.snapshot t.now t.uptime version t.detections5m

/-- A second after another, the uptime is another. -/
theorem uptimeS_lt (version : String) {t u : HealthTick} (h0 : 0 ≤ t.uptime)
    (h : t.uptime + GoDuration.second ≤ u.uptime) :
    (t.report version).uptimeS < (u.report version).uptimeS := by
  show t.uptime.tdiv GoDuration.second < u.uptime.tdiv GoDuration.second
  have hu : 0 ≤ u.uptime := le_trans h0 (le_trans (by simp [GoDuration.second]) h)
  have hdiv {a b : ℤ} (h : a + 1000000000 ≤ b) : a / 1000000000 < b / 1000000000 := by omega
  rw [Int.tdiv_eq_ediv_of_nonneg h0, Int.tdiv_eq_ediv_of_nonneg hu]
  exact hdiv h

/-- The text of a report tells its uptime. -/
def TellsUptime (encode : Report → Option String) (rs : List Report) : Prop :=
  ∀ r ∈ rs, ∀ r' ∈ rs, ∀ text, encode r = some text → encode r' = some text →
    r.uptimeS = r'.uptimeS

/-- Reports of which no two are of one uptime are all sent. -/
theorem broadcasts_eq_filter {encode : Report → Option String} {last : String} {rs : List Report}
    (huptime : TellsUptime encode rs) (hlast : ∀ r ∈ rs, encode r ≠ some last)
    (hrs : rs.Pairwise fun r r' ↦ r.uptimeS < r'.uptimeS) :
    broadcasts encode last rs = rs.filter fun r ↦ (encode r).isSome := by
  induction rs generalizing last with
  | nil => rfl
  | cons r rs ih =>
    obtain ⟨hr, hrs⟩ := List.pairwise_cons.mp hrs
    obtain ⟨hfirst, hlast⟩ := List.forall_mem_cons.mp hlast
    have huptime' : TellsUptime encode rs := fun r₁ h₁ r₂ h₂ ↦
      huptime r₁ (.tail r h₁) r₂ (.tail r h₂)
    rw [broadcasts]
    cases hencode : encode r with
    | none =>
      rw [List.filter_cons_of_neg (by rw [hencode]; decide)]
      exact ih huptime' hlast hrs
    | some text =>
      have hne : text ≠ last := fun heq ↦ hfirst (heq ▸ hencode)
      dsimp only
      rw [if_neg hne, List.filter_cons_of_pos (by rw [hencode]; rfl), ih huptime' ?_ hrs]
      intro r' hr' htext
      exact (hr r' hr').ne (huptime r (.head rs) r' (.tail r hr') text hencode htext)

/-- **Every tick sends its report**, if ticks are a second apart or more. -/
theorem broadcasts_every_tick {encode : Report → Option String} (version : String)
    {ticks : List HealthTick} (hne : ∀ t ∈ ticks, encode (t.report version) ≠ some "")
    (huptime : TellsUptime encode (ticks.map (HealthTick.report version)))
    (h0 : ∀ t ∈ ticks, 0 ≤ t.uptime)
    (hticks : ticks.IsChain fun t u ↦ t.uptime + GoDuration.second ≤ u.uptime) :
    broadcasts encode "" (ticks.map (HealthTick.report version)) =
      (ticks.map (HealthTick.report version)).filter fun r ↦ (encode r).isSome := by
  refine broadcasts_eq_filter huptime (List.forall_mem_map.mpr hne) ?_
  have htrans : IsTrans HealthTick fun t u ↦ t.uptime + GoDuration.second ≤ u.uptime :=
    ⟨fun t u v htu huv ↦ by
      have hsecond : (0 : ℤ) ≤ GoDuration.second := by decide
      exact htu.trans (le_trans (le_add_of_nonneg_right hsecond) huv)⟩
  rw [List.pairwise_map]
  refine (List.isChain_iff_pairwise.mp hticks).imp_of_mem fun ht _ h ↦ ?_
  exact uptimeS_lt version (h0 _ ht) h

/-- The text of a report of no sensors. -/
def emptyReportText (r : Report) : Option String :=
  some ("\x7b\"status\":\"down\",\"uptime_s\":" ++ toString r.uptimeS ++ ",\"version\":\"" ++
    r.version ++ "\",\"sensors\":[],\"fusion\":\x7b\"configured\":false,\"connected\":false\x7d\x7d")

/-- The ticks of an instance without sensors. -/
def emptyTicks : List HealthTick :=
  [5, 10].map fun n ↦ ⟨⟨.empty, 30 * GoDuration.second, false, false, 0, ""⟩, n * GoDuration.second,
    n * GoDuration.second, fun _ ↦ 0⟩

theorem broadcasts_empty : broadcasts emptyReportText "" (emptyTicks.map (HealthTick.report "dev")) =
    emptyTicks.map (HealthTick.report "dev") := by
  have hne : ∀ t ∈ emptyTicks, emptyReportText (t.report "dev") ≠ some "" := by decide +kernel
  have huptime : TellsUptime emptyReportText (emptyTicks.map (HealthTick.report "dev")) := by
    have htexts : ∀ t ∈ emptyTicks, ∀ u ∈ emptyTicks,
        emptyReportText (t.report "dev") = emptyReportText (u.report "dev") →
          (t.report "dev").uptimeS = (u.report "dev").uptimeS := by decide +kernel
    intro r hr r' hr' text h h'
    obtain ⟨t, ht, rfl⟩ := List.mem_map.mp hr
    obtain ⟨u, hu, rfl⟩ := List.mem_map.mp hr'
    exact htexts t ht u hu (h.trans h'.symm)
  exact broadcasts_every_tick "dev" hne huptime (by decide) (by decide)

end ClassG.Ingest
