import ClassG.Machine
import ClassG.Sdr.Stream

/-!
# The schedule of the ADS-B sensor

`run` of `sensor-sdr/src/adsb.rs` connects, reads and waits in one thread, and at certain points
looks at the clock and sends a heartbeat if one is due.  Here it goes from one of these points to
the next.

* `heartbeats_spaced`, `heartbeats_prompt` — heartbeats are an interval apart, and late by no more
  than the time between two looks at the clock.
* `heartbeats_honest` — they say that the sensor is healthy exactly while it is connected.
* `retry_delay` — how long the sensor waits before it tries again.

What is logged is left out.
-/

set_option autoImplicit false

namespace ClassG.Sdr

/-! ## The loop -/

/-- `RECONNECT_MIN`, in milliseconds. -/
def reconnectMin : ℤ := 500

/-- `Config`, and when the sensor is started, in milliseconds. -/
structure RunConfig where
  env : Env
  ulid : Ulid.UlidFactory
  start : ℤ
  heartbeatInterval : ℤ
  reconnectMax : ℤ

/-- A heartbeat. -/
structure Beat where
  sentAt : ℤ
  healthy : Bool
  stats : Stats

/-- Where the thread is. -/
inductive Phase
  /-- At the head of the loop. -/
  | connecting
  | pumping
  /-- `pump` has returned. -/
  | ended
  /-- Behind the `match`, before the check of `stop`. -/
  | retrying
  /-- In `sleep_until`. -/
  | waiting (deadline : ℤ)
  | stopped
  deriving DecidableEq

/-- The variables of `run` and of `pump`. -/
structure Runner where
  phase : Phase := .connecting
  pump : Pump
  backoff : ℤ := reconnectMin
  nextHeartbeat : ℤ
  /-- What has been sent, the latest first. -/
  beats : List Beat := []

/-- What happens next, with the readings of the clock. -/
inductive RunEvent
  /-- `connect` succeeds. -/
  | connected (now : ℤ)
  | refused (message : String)
  /-- A turn of the loop of `pump`. -/
  | read (now : ℤ) (filled : Filled)
  /-- `stop` is not set when `pump` has returned. -/
  | reconnect
  /-- `stop` is not set, and the sensor begins to wait. -/
  | retry (now sleepsAt : ℤ)
  /-- A turn of the loop of `sleep_until`. -/
  | wait (check now : ℤ)
  /-- The deadline has passed. -/
  | wake (check : ℤ)
  /-- `stop` is set. -/
  | stop (now : ℤ)

namespace Runner

variable (cfg : RunConfig) (r : Runner)

/-- The counters. -/
def stats : Stats := r.pump.session.stats

def setStats (s : Stats) : Runner :=
  { r with pump := { r.pump with session := { r.pump.session with stats := s } } }

/-- `beat`. -/
def beat (now : ℤ) (healthy : Bool) : Runner :=
  if now < r.nextHeartbeat then r
  else
    { r with
      nextHeartbeat := now + cfg.heartbeatInterval
      beats := ⟨now, healthy, r.stats⟩ :: r.beats }

/-- `connect` succeeds, and `pump` begins. -/
def attach : Runner where
  phase := .pumping
  pump :=
    { session :=
      { r.pump.session with stats := { r.stats with connected := true, lastError := none } } }
  backoff := reconnectMin
  nextHeartbeat := r.nextHeartbeat
  beats := r.beats

/-- `connect` fails. -/
def refuse (message : String) : Runner :=
  { r.setStats { r.stats with connected := false, lastError := some message } with
    phase := .retrying }

/-- `pump` returns. -/
def hangUp : Runner := { r.setStats { r.stats with connected := false } with phase := .ended }

/-- What is made of a read. -/
def take : Filled → Runner
  | .ok [] => r.hangUp
  | .ok (b :: chunk) => { r with pump := (b :: chunk).foldl (Pump.byte cfg.env) r.pump }
  | .err .other message => (r.setStats { r.stats with lastError := some message }).hangUp
  | .err _ _ => r

/-- The thread goes on to the next point, if it is where the event can happen. -/
def step : RunEvent → Option Runner
  | .connected now => if r.phase = .connecting then some (r.attach.beat cfg now true) else none
  | .refused message => if r.phase = .connecting then some (r.refuse message) else none
  | .read now filled =>
    if r.phase = .pumping then some ((r.beat cfg now true).take cfg filled) else none
  | .reconnect =>
    if r.phase = .ended then
      some { r.setStats { r.stats with reconnects := r.stats.reconnects + 1 } with
        phase := .retrying }
    else none
  | .retry now sleepsAt =>
    if r.phase = .retrying then
      some { r.beat cfg now false with phase := .waiting (sleepsAt + r.backoff) }
    else none
  | .wait check now =>
    match r.phase with
    | .waiting deadline => if check < deadline then some (r.beat cfg now false) else none
    | _ => none
  | .wake check =>
    match r.phase with
    | .waiting deadline =>
      if check < deadline then none
      else
        some { r with
          phase := .connecting
          backoff := min (r.backoff * 2) (max cfg.reconnectMax reconnectMin) }
    | _ => none
  | .stop now =>
    if r.phase = .stopped then none
    else
      let r := if r.phase = .pumping then r.hangUp else r
      some { r.beat cfg now r.stats.connected with phase := .stopped }

end Runner

/-- The thread of the sensor. -/
def runner (cfg : RunConfig) : Machine Runner RunEvent where
  init r := r = { pump := ⟨⟨{}, cfg.ulid, []⟩, [], false⟩, nextHeartbeat := cfg.start }
  next r e r' := r.step cfg e = some r'

/-! ## One step -/

variable {cfg : RunConfig} {r r' : Runner} {e : RunEvent}

/-- When the clock is looked at for a heartbeat. -/
def RunEvent.check : RunEvent → Option ℤ
  | .connected now | .read now _ | .retry now _ | .wait _ now | .stop now => some now
  | .refused _ | .reconnect | .wake _ => none

/-- The counters say that the sensor is connected while it reads, and then there is no error. -/
structure Coherent (r : Runner) : Prop where
  connected : r.stats.connected = true ↔ r.phase = .pumping
  error : r.stats.connected = true → r.stats.lastError = none

/-- A heartbeat says that the sensor is healthy if it is connected. -/
structure Beat.Honest (b : Beat) : Prop where
  healthy : b.healthy = b.stats.connected
  error : b.healthy = true → b.stats.lastError = none

/-- The clock is looked at, and a heartbeat is sent if one is due. -/
inductive Look (cfg : RunConfig) (r : Runner) (now : ℤ) (r' : Runner) : Prop
  | early (h : now < r.nextHeartbeat) (hnext : r'.nextHeartbeat = r.nextHeartbeat)
      (hbeats : r'.beats = r.beats)
  | due (b : Beat) (h : r.nextHeartbeat ≤ now)
      (hnext : r'.nextHeartbeat = now + cfg.heartbeatInterval) (hbeats : r'.beats = b :: r.beats)
      (hsent : b.sentAt = now) (honest : b.Honest)

/-- What a step does about heartbeats. -/
def Looks (cfg : RunConfig) (r : Runner) (e : RunEvent) (r' : Runner) : Prop :=
  match e.check with
  | some now => Look cfg r now r'
  | none => r'.nextHeartbeat = r.nextHeartbeat ∧ r'.beats = r.beats

namespace Runner

theorem beat_phase (cfg : RunConfig) (r : Runner) (now : ℤ) (healthy : Bool) :
    (r.beat cfg now healthy).phase = r.phase := by
  rw [beat]
  split <;> rfl

theorem beat_pump (now : ℤ) (healthy : Bool) : (r.beat cfg now healthy).pump = r.pump := by
  rw [beat]
  split <;> rfl

theorem beat_backoff (now : ℤ) (healthy : Bool) : (r.beat cfg now healthy).backoff = r.backoff := by
  rw [beat]
  split <;> rfl

theorem look_beat {now : ℤ} {healthy : Bool} (hhealthy : healthy = r.stats.connected)
    (herror : healthy = true → r.stats.lastError = none) :
    Look cfg r now (r.beat cfg now healthy) := by
  rw [beat]
  split
  · rename_i h
    exact .early h rfl rfl
  · rename_i h
    exact .due ⟨now, healthy, r.stats⟩ (not_lt.mp h) rfl rfl rfl ⟨hhealthy, herror⟩

/-- What is made of a read has nothing to do with heartbeats. -/
theorem take_beats (cfg : RunConfig) (r : Runner) (filled : Filled) :
    (r.take cfg filled).nextHeartbeat = r.nextHeartbeat ∧
      (r.take cfg filled).beats = r.beats ∧ (r.take cfg filled).backoff = r.backoff := by
  rcases filled with ⟨_ | ⟨b, chunk⟩⟩ | ⟨kind, message⟩
  · exact ⟨rfl, rfl, rfl⟩
  · exact ⟨rfl, rfl, rfl⟩
  · cases kind <;> exact ⟨rfl, rfl, rfl⟩

end Runner

theorem Runner.take_phase (cfg : RunConfig) (r : Runner) (filled : Filled) :
    (r.take cfg filled).phase = r.phase ∨ (r.take cfg filled).phase = .ended := by
  rcases filled with ⟨_ | ⟨b, chunk⟩⟩ | ⟨kind, message⟩
  · exact .inr rfl
  · exact .inl rfl
  · cases kind with
    | other => exact .inr rfl
    | _ => exact .inl rfl

/-! ## Lines -/

/-- What a line changes is neither the connection nor its error. -/
theorem link_handleLine (env : Env) (s : Session) (line : List Byte) :
    (handleLine env s line).stats.connected = s.stats.connected ∧
      (handleLine env s line).stats.lastError = s.stats.lastError := by
  have hacquire (s : Stats) (icao : String) : (s.acquire icao).connected = s.connected ∧
      (s.acquire icao).lastError = s.lastError := by
    rw [Stats.acquire]
    split
    · exact ⟨rfl, rfl⟩
    · split <;> exact ⟨rfl, rfl⟩
  rw [handleLine]
  dsimp only
  split
  · exact ⟨rfl, rfl⟩
  · dsimp only
    split
    · exact ⟨rfl, rfl⟩
    · exact hacquire _ _

theorem link_byte (env : Env) (p : Pump) (b : Byte) :
    (p.byte env b).session.stats.connected = p.session.stats.connected ∧
      (p.byte env b).session.stats.lastError = p.session.stats.lastError := by
  rw [Pump.byte]
  split
  · split
    · exact ⟨rfl, rfl⟩
    · exact link_handleLine env p.session p.line
  · split
    · exact ⟨rfl, rfl⟩
    · split
      · split <;> exact ⟨rfl, rfl⟩
      · exact ⟨rfl, rfl⟩

theorem link_bytes (env : Env) (p : Pump) (bytes : List Byte) :
    (bytes.foldl (Pump.byte env) p).session.stats.connected = p.session.stats.connected ∧
      (bytes.foldl (Pump.byte env) p).session.stats.lastError = p.session.stats.lastError := by
  induction bytes generalizing p with
  | nil => exact ⟨rfl, rfl⟩
  | cons b bytes ih =>
    obtain ⟨hconnected, herror⟩ := ih (p.byte env b)
    obtain ⟨hconnected', herror'⟩ := link_byte env p b
    exact ⟨hconnected.trans hconnected', herror.trans herror'⟩

/-! ## Steps keep the books -/

theorem Coherent.of_disconnected (hconnected : r.stats.connected = false)
    (hphase : r.phase ≠ .pumping) : Coherent r where
  connected := iff_of_false (by rw [hconnected]; exact Bool.false_ne_true) hphase
  error h := absurd (hconnected.symm.trans h) Bool.false_ne_true

theorem Coherent.hangUp (r : Runner) : Coherent r.hangUp := .of_disconnected rfl nofun

/-- What is not `pumping` is not connected. -/
theorem Coherent.disconnected (h : Coherent r) (hphase : r.phase ≠ .pumping) :
    r.stats.connected = false :=
  Bool.eq_false_iff.mpr fun hconnected ↦ hphase (h.connected.mp hconnected)

theorem Coherent.take (h : Coherent r) (filled : Filled) : Coherent (r.take cfg filled) := by
  rcases filled with ⟨_ | ⟨b, chunk⟩⟩ | ⟨kind, message⟩
  · exact .hangUp r
  · obtain ⟨hconnected, herror⟩ := link_bytes cfg.env r.pump (b :: chunk)
    constructor
    · show ((b :: chunk).foldl (Pump.byte cfg.env) r.pump).session.stats.connected = true ↔ _
      rw [hconnected]
      exact h.connected
    · show ((b :: chunk).foldl (Pump.byte cfg.env) r.pump).session.stats.connected = true →
        ((b :: chunk).foldl (Pump.byte cfg.env) r.pump).session.stats.lastError = none
      rw [hconnected, herror]
      exact h.error
  · cases kind with
    | other => exact .hangUp _
    | _ => exact h

theorem Coherent.beat (h : Coherent r) (now : ℤ) (healthy : Bool) :
    Coherent (r.beat cfg now healthy) := by
  have hstats : (r.beat cfg now healthy).stats = r.stats :=
    congrArg (·.session.stats) (Runner.beat_pump now healthy)
  constructor
  · rw [hstats, Runner.beat_phase]
    exact h.connected
  · rw [hstats]
    exact h.error

/-- Who looks at the clock may have been somewhere else before. -/
theorem Look.congr {r₁ r₁' : Runner} {now : ℤ} (h : Look cfg r₁ now r₁')
    (hnext : r₁.nextHeartbeat = r.nextHeartbeat) (hbeats : r₁.beats = r.beats)
    (hnext' : r'.nextHeartbeat = r₁'.nextHeartbeat) (hbeats' : r'.beats = r₁'.beats) :
    Look cfg r now r' := by
  cases h with
  | early h hn hb =>
    exact .early (hnext ▸ h) (hnext'.trans (hn.trans hnext)) (hbeats'.trans (hb.trans hbeats))
  | due b h hn hb hsent honest =>
    refine .due b (hnext ▸ h) (hnext'.trans hn) ?_ hsent honest
    exact hbeats'.trans (hb.trans (congrArg (b :: ·) hbeats))

/-- **A step** looks at the clock as it should, and the counters say what is the case. -/
theorem step_spec (hr : Coherent r) (h : r.step cfg e = some r') :
    Coherent r' ∧ Looks cfg r e r' := by
  cases e with
  | connected now =>
    obtain ⟨-, h⟩ := Option.ite_none_right_eq_some.mp h
    obtain rfl := Option.some.inj h
    have hattach : Coherent r.attach := ⟨⟨fun _ ↦ rfl, fun _ ↦ rfl⟩, fun _ ↦ rfl⟩
    have hlook : Look cfg r.attach now (r.attach.beat cfg now true) :=
      Runner.look_beat rfl fun _ ↦ rfl
    exact ⟨hattach.beat now true, hlook.congr rfl rfl rfl rfl⟩
  | refused message =>
    obtain ⟨-, h⟩ := Option.ite_none_right_eq_some.mp h
    obtain rfl := Option.some.inj h
    exact ⟨.of_disconnected rfl nofun, rfl, rfl⟩
  | read now filled =>
    obtain ⟨hphase, h⟩ := Option.ite_none_right_eq_some.mp h
    obtain rfl := Option.some.inj h
    have hconnected := hr.connected.mpr hphase
    have hlook : Look cfg r now (r.beat cfg now true) :=
      Runner.look_beat hconnected.symm fun _ ↦ hr.error hconnected
    obtain ⟨hnext, hbeats, -⟩ := Runner.take_beats cfg (r.beat cfg now true) filled
    exact ⟨(hr.beat now true).take filled, hlook.congr rfl rfl hnext hbeats⟩
  | reconnect =>
    obtain ⟨hphase, h⟩ := Option.ite_none_right_eq_some.mp h
    obtain rfl := Option.some.inj h
    have hdisconnected := hr.disconnected (by rw [hphase]; nofun)
    exact ⟨.of_disconnected hdisconnected nofun, rfl, rfl⟩
  | retry now sleepsAt =>
    obtain ⟨hphase, h⟩ := Option.ite_none_right_eq_some.mp h
    obtain rfl := Option.some.inj h
    have hdisconnected := hr.disconnected (by rw [hphase]; nofun)
    have hlook : Look cfg r now (r.beat cfg now false) :=
      Runner.look_beat hdisconnected.symm nofun
    refine ⟨.of_disconnected ?_ nofun, hlook.congr rfl rfl rfl rfl⟩
    exact (congrArg (·.session.stats.connected) (Runner.beat_pump now false)).trans hdisconnected
  | wait check now =>
    rw [Runner.step] at h
    split at h
    · rename_i deadline hphase
      obtain ⟨-, h⟩ := Option.ite_none_right_eq_some.mp h
      obtain rfl := Option.some.inj h
      have hdisconnected := hr.disconnected (by rw [hphase]; nofun)
      exact ⟨hr.beat now false, Runner.look_beat hdisconnected.symm nofun⟩
    · cases h
  | wake check =>
    rw [Runner.step] at h
    split at h
    · rename_i deadline hphase
      obtain ⟨-, h⟩ := Option.ite_none_left_eq_some.mp h
      obtain rfl := Option.some.inj h
      have hdisconnected := hr.disconnected (by rw [hphase]; nofun)
      exact ⟨.of_disconnected hdisconnected nofun, rfl, rfl⟩
    · cases h
  | stop now =>
    obtain ⟨-, h⟩ := Option.ite_none_left_eq_some.mp h
    obtain rfl := Option.some.inj h
    -- whether `pump` has to return first or not, the sensor is disconnected
    obtain ⟨r₀, hr₀, hdisconnected, hnext, hbeats⟩ : ∃ r₀ : Runner,
        (if r.phase = .pumping then r.hangUp else r) = r₀ ∧ r₀.stats.connected = false ∧
          r₀.nextHeartbeat = r.nextHeartbeat ∧ r₀.beats = r.beats := by
      by_cases hphase : r.phase = .pumping
      · exact ⟨r.hangUp, if_pos hphase, rfl, rfl, rfl⟩
      · exact ⟨r, if_neg hphase, hr.disconnected hphase, rfl, rfl⟩
    dsimp only
    rw [hr₀]
    have hlook : Look cfg r₀ now (r₀.beat cfg now r₀.stats.connected) :=
      Runner.look_beat rfl fun h ↦ by rw [hdisconnected] at h; cases h
    refine ⟨.of_disconnected ?_ nofun, hlook.congr hnext hbeats rfl rfl⟩
    exact (congrArg (·.session.stats.connected) (Runner.beat_pump now _)).trans hdisconnected

/-! ## A run -/

/-- An event, if it can happen. -/
def Runner.attend (cfg : RunConfig) (r : Runner) (e : RunEvent) : Runner := (r.step cfg e).getD r

theorem next_attend (h : (r.step cfg e).isSome) : (runner cfg).next r e (r.attend cfg e) := by
  obtain ⟨r', hr'⟩ := Option.isSome_iff_exists.mp h
  show r.step cfg e = some (r.attend cfg e)
  rw [Runner.attend, hr', Option.getD_some]

/-- A heartbeat every three seconds. -/
def lostConfig : RunConfig where
  env := ⟨fun c ↦ [c], "sdr", fun _ ↦ 0, fun _ ↦ true⟩
  ulid := ⟨1⟩
  start := 0
  heartbeatInterval := 3000
  reconnectMax := 30000

def lostStart : Runner := { pump := ⟨⟨{}, ⟨1⟩, []⟩, [], false⟩, nextHeartbeat := 0 }

/-- The sensor loses the stream, and cannot connect again. -/
def lostEvents : List RunEvent :=
  [.connected 0, .read 100 (.ok []), .reconnect, .retry 400 400, .wait 800 850, .wake 900,
    .refused "refused", .retry 1900 1900, .wait 2850 3200, .wake 3250]

def lost : Runner := Machine.replay (Runner.attend lostConfig) lostStart lostEvents

def lostSteps : List (Machine.Step Runner RunEvent) :=
  Machine.replaySteps (Runner.attend lostConfig) lostStart lostEvents []

theorem lost_run : (runner lostConfig).Run lostSteps lost := by
  have hadmits : Machine.Admits (Runner.attend lostConfig) (fun r e ↦ (r.step lostConfig e).isSome)
      lostStart lostEvents := by decide
  exact .replay (fun _ _ ↦ next_attend) lostEvents (.init rfl) hadmits

/-! ## Heartbeats -/

variable {tr : List (Machine.Step Runner RunEvent)}

theorem coherent_of_run (h : (runner cfg).Run tr r) : Coherent r :=
  h.invariant (fun _ h ↦ h ▸ .of_disconnected rfl nofun) fun _ _ _ hr hn ↦ (step_spec hr hn).1

/-- **Heartbeats are honest.**  Whatever happens, in whatever order, a heartbeat says that the
sensor is healthy exactly if it says that it is connected, and then it reports no error. -/
theorem heartbeats_honest (h : (runner cfg).Run tr r) : ∀ b ∈ r.beats, b.Honest := by
  suffices hall : Coherent r ∧ ∀ b ∈ r.beats, b.Honest from hall.2
  refine h.invariant (I := fun r ↦ Coherent r ∧ ∀ b ∈ r.beats, b.Honest) (fun r h ↦ ?_)
    fun r e r' ⟨hr, hbeats⟩ hn ↦ ?_
  · obtain rfl := h
    exact ⟨.of_disconnected rfl nofun, List.forall_mem_nil _⟩
  · obtain ⟨hr', hlooks⟩ := step_spec hr hn
    refine ⟨hr', ?_⟩
    rw [Looks] at hlooks
    split at hlooks
    · cases hlooks with
      | early _ _ h => rwa [h]
      | due b _ _ h _ honest =>
        rw [h]
        exact List.forall_mem_cons.mpr ⟨honest, hbeats⟩
    · rwa [hlooks.2]

theorem honest_of_lost :
    (∀ b ∈ lost.beats, b.Honest) ∧ lost.beats.map (·.healthy) = [false, true] :=
  ⟨heartbeats_honest lost_run, by decide⟩

/-- When the clock was looked at, the latest first. -/
def checks (tr : List (Machine.Step Runner RunEvent)) : List ℤ := tr.filterMap (·.act.check)

theorem checks_cons (x : Machine.Step Runner RunEvent) (tr : List (Machine.Step Runner RunEvent)) :
    checks (x :: tr) = x.act.check.toList ++ checks tr := by
  rw [checks, List.filterMap_cons]
  cases x.act.check <;> rfl

/-- From the start on the clock does not go back, and is looked at again within `δ`. -/
def Prompt (cfg : RunConfig) (δ : ℤ) (tr : List (Machine.Step Runner RunEvent)) : Prop :=
  (checks tr ++ [cfg.start]).IsChain fun t' t ↦ t ≤ t' ∧ t' ≤ t + δ

instance (cfg : RunConfig) (δ : ℤ) (tr : List (Machine.Step Runner RunEvent)) :
    Decidable (Prompt cfg δ tr) :=
  inferInstanceAs (Decidable (List.IsChain _ _))

/-- What the heartbeats promise to those who wait for them, given when the clock was looked at. -/
structure OnSchedule (cfg : RunConfig) (δ : ℤ) (checks : List ℤ) (beats : List Beat) : Prop where
  /-- They are an interval apart, and late by `δ` at most. -/
  spaced : beats.IsChain fun b' b ↦
    b.sentAt + cfg.heartbeatInterval ≤ b'.sentAt ∧ b'.sentAt ≤ b.sentAt + cfg.heartbeatInterval + δ
  /-- The first is sent at the start. -/
  first : ∀ b ∈ beats.getLast?, cfg.start ≤ b.sentAt ∧ b.sentAt ≤ cfg.start + δ
  /-- None is overdue. -/
  last : ∀ t ∈ checks.head?, ∃ b ∈ beats.head?, t ≤ b.sentAt + cfg.heartbeatInterval

/-- When the next heartbeat is due. -/
structure Due (cfg : RunConfig) (checks : List ℤ) (r : Runner) : Prop where
  last : checks.headD cfg.start ≤ r.nextHeartbeat
  start : r.beats = [] → checks = [] ∧ r.nextHeartbeat = cfg.start
  next : ∀ b ∈ r.beats.head?, r.nextHeartbeat = b.sentAt + cfg.heartbeatInterval

variable {δ now : ℤ} {ts : List ℤ}

theorem isChain_append_singleton {R : ℤ → ℤ → Prop} {t s : ℤ} {ts : List ℤ} :
    (t :: ts ++ [s]).IsChain R ↔ R t (ts.headD s) ∧ (ts ++ [s]).IsChain R := by
  cases ts <;> exact List.isChain_cons_cons

/-- A look at the clock keeps to the schedule. -/
theorem OnSchedule.look (hinterval : 0 ≤ cfg.heartbeatInterval) (hs : OnSchedule cfg δ ts r.beats)
    (hdue : Due cfg ts r) (hlate : ts.headD cfg.start ≤ now ∧ now ≤ ts.headD cfg.start + δ)
    (h : Look cfg r now r') :
    OnSchedule cfg δ (now :: ts) r'.beats ∧ Due cfg (now :: ts) r' := by
  cases h with
  | early h hnext hbeats =>
    -- there was a heartbeat before, since the first one is due at the start
    obtain ⟨b, older, hb⟩ : ∃ b older, r.beats = b :: older := by
      refine List.exists_cons_of_ne_nil fun hempty ↦ ?_
      obtain ⟨rfl, hstart⟩ := hdue.start hempty
      rw [hstart] at h
      exact absurd h (not_lt.mpr hlate.1)
    have hnext' := hdue.next b (hb ▸ rfl)
    rw [hbeats]
    refine ⟨⟨hs.spaced, hs.first, fun t ht ↦ ⟨b, hb ▸ rfl, ?_⟩⟩, ⟨?_, ?_, ?_⟩⟩
    · obtain rfl := Option.some.inj ht
      exact (hnext' ▸ h).le
    · rw [hnext]
      exact h.le
    · intro hempty
      rw [hbeats, hb] at hempty
      cases hempty
    · rw [hbeats, hnext]
      exact hdue.next
  | due b h hnext hbeats hsent _ =>
    rw [hbeats]
    refine ⟨⟨?_, ?_, fun t ht ↦ ⟨b, rfl, ?_⟩⟩, ⟨?_, ?_, ?_⟩⟩
    · refine List.isChain_cons.mpr ⟨fun b₀ hb₀ ↦ ?_, hs.spaced⟩
      rw [hsent, ← hdue.next b₀ hb₀]
      exact ⟨h, hlate.2.trans (add_le_add_left hdue.last δ)⟩
    · cases hempty : r.beats with
      | nil =>
        obtain ⟨rfl, -⟩ := hdue.start hempty
        intro b₀ hb₀
        obtain rfl : b = b₀ := Option.some.inj hb₀
        rw [hsent]
        exact hlate
      | cons b₀ older =>
        rw [List.getLast?_cons_cons, ← hempty]
        exact hs.first
    · obtain rfl := Option.some.inj ht
      rw [hsent]
      exact le_add_of_nonneg_right hinterval
    · rw [hnext]
      exact le_add_of_nonneg_right hinterval
    · intro hempty
      rw [hbeats] at hempty
      cases hempty
    · intro b₀ hb₀
      rw [hbeats] at hb₀
      obtain rfl := Option.some.inj hb₀
      rw [hnext, hsent]

/-- **Heartbeats keep to the schedule**, whether the sensor is connected, fails to connect, or
waits: if the clock is always looked at again within `δ`, they are an interval apart and late by no
more than `δ`, the first is sent at the start, and none is overdue. -/
theorem heartbeats_on_schedule (hinterval : 0 ≤ cfg.heartbeatInterval) (h : (runner cfg).Run tr r)
    (hprompt : Prompt cfg δ tr) : OnSchedule cfg δ (checks tr) r.beats := by
  suffices hall : OnSchedule cfg δ (checks tr) r.beats ∧ Due cfg (checks tr) r from hall.1
  induction h with
  | init h =>
    obtain rfl := h
    exact ⟨⟨.nil, nofun, nofun⟩, ⟨le_rfl, fun _ ↦ ⟨rfl, rfl⟩, nofun⟩⟩
  | step e r' hr hn ih =>
    obtain ⟨-, hlooks⟩ := step_spec (coherent_of_run hr) hn
    rw [Looks] at hlooks
    rw [Prompt] at hprompt
    cases hcheck : e.check with
    | none =>
      rw [hcheck] at hlooks
      rw [checks_cons, hcheck, Option.toList_none, List.nil_append] at hprompt ⊢
      obtain ⟨hs, hdue⟩ := ih hprompt
      obtain ⟨hnext, hbeats⟩ := hlooks
      rw [hbeats]
      exact ⟨hs, hnext ▸ hdue.last, by rw [hbeats, hnext]; exact hdue.start,
        by rw [hbeats, hnext]; exact hdue.next⟩
    | some now =>
      rw [hcheck] at hlooks
      rw [checks_cons, hcheck, Option.toList_some, List.singleton_append] at hprompt ⊢
      obtain ⟨hlate, hprompt⟩ := isChain_append_singleton.mp hprompt
      obtain ⟨hs, hdue⟩ := ih hprompt
      exact hs.look hinterval hdue hlate hlooks

theorem on_schedule_of_lost : OnSchedule lostConfig 1500 (checks lostSteps) lost.beats ∧
    lost.beats.map (·.sentAt) = [3200, 0] :=
  ⟨heartbeats_on_schedule (by decide) lost_run (by decide), by decide⟩

/-! ## Retries -/

/-- How often the sensor has waited since it was last connected. -/
def waits : List (Machine.Step Runner RunEvent) → ℕ
  | [] => 0
  | x :: older => match x.act with
    | .connected _ => 0
    | .wake _ => waits older + 1
    | _ => waits older

/-- When the sensor last began to wait. -/
def sleptAt : List (Machine.Step Runner RunEvent) → Option ℤ
  | [] => none
  | x :: older => match x.act with
    | .retry _ sleepsAt => some sleepsAt
    | _ => sleptAt older

/-- How long to wait when the sensor has waited `n` times in a row. -/
def retryDelay (cfg : RunConfig) (n : ℕ) : ℤ :=
  min (reconnectMin * 2 ^ n) (max cfg.reconnectMax reconnectMin)

/-- The sensor goes on waiting until the delay is over, and no longer. -/
def WaitsFor (cfg : RunConfig) (older : List (Machine.Step Runner RunEvent))
    (x : Machine.Step Runner RunEvent) : Prop :=
  match x.act with
  | .wait check _ => ∃ t ∈ sleptAt older, check < t + retryDelay cfg (waits older)
  | .wake check => ∃ t ∈ sleptAt older, t + retryDelay cfg (waits older) ≤ check
  | _ => True

theorem retryDelay_zero : retryDelay cfg 0 = reconnectMin := by
  rw [retryDelay, pow_zero, mul_one]
  exact min_eq_left (le_max_right ..)

theorem retryDelay_succ (n : ℕ) :
    min (retryDelay cfg n * 2) (max cfg.reconnectMax reconnectMin) = retryDelay cfg (n + 1) := by
  have hpos : 0 ≤ max cfg.reconnectMax reconnectMin :=
    le_max_of_le_right (by decide : (0 : ℤ) ≤ reconnectMin)
  rw [retryDelay, retryDelay, pow_succ, ← mul_assoc]
  omega

/-- What the delays of the machine are, in terms of its past. -/
structure Delays (cfg : RunConfig) (tr : List (Machine.Step Runner RunEvent)) (r : Runner) :
    Prop where
  backoff : r.backoff = retryDelay cfg (waits tr)
  deadline : ∀ d, r.phase = .waiting d → ∃ t ∈ sleptAt tr, d = t + retryDelay cfg (waits tr)

theorem Delays.step (hd : Delays cfg tr r) (hn : r.step cfg e = some r') :
    Delays cfg (⟨r, e, r'⟩ :: tr) r' ∧ WaitsFor cfg tr ⟨r, e, r'⟩ := by
  cases e with
  | connected now =>
    obtain ⟨-, h⟩ := Option.ite_none_right_eq_some.mp hn
    obtain rfl := Option.some.inj h
    refine ⟨⟨?_, fun d hd ↦ ?_⟩, trivial⟩
    · exact (Runner.beat_backoff now true).trans retryDelay_zero.symm
    · rw [Runner.beat_phase] at hd
      cases hd
  | refused message =>
    obtain ⟨-, h⟩ := Option.ite_none_right_eq_some.mp hn
    obtain rfl := Option.some.inj h
    exact ⟨⟨hd.backoff, nofun⟩, trivial⟩
  | read now filled =>
    obtain ⟨hphase, h⟩ := Option.ite_none_right_eq_some.mp hn
    obtain rfl := Option.some.inj h
    obtain ⟨-, -, hbackoff⟩ := Runner.take_beats cfg (r.beat cfg now true) filled
    have hbackoff := hbackoff.trans ((Runner.beat_backoff now true).trans hd.backoff)
    refine ⟨⟨hbackoff, fun d hd' ↦ ?_⟩, trivial⟩
    rw [← Runner.beat_phase cfg r now true] at hphase
    rcases Runner.take_phase cfg (r.beat cfg now true) filled with h | h <;>
      rw [h] at hd'
    · rw [hphase] at hd'
      cases hd'
    · cases hd'
  | reconnect =>
    obtain ⟨-, h⟩ := Option.ite_none_right_eq_some.mp hn
    obtain rfl := Option.some.inj h
    exact ⟨⟨hd.backoff, nofun⟩, trivial⟩
  | retry now sleepsAt =>
    obtain ⟨-, h⟩ := Option.ite_none_right_eq_some.mp hn
    obtain rfl := Option.some.inj h
    refine ⟨⟨(Runner.beat_backoff now false).trans hd.backoff, fun d hd' ↦ ?_⟩, trivial⟩
    obtain rfl := Phase.waiting.inj hd'
    exact ⟨sleepsAt, rfl, congrArg (sleepsAt + ·) hd.backoff⟩
  | wait check now =>
    rw [Runner.step] at hn
    split at hn
    · rename_i deadline hphase
      obtain ⟨hcheck, h⟩ := Option.ite_none_right_eq_some.mp hn
      obtain rfl := Option.some.inj h
      obtain ⟨t, ht, rfl⟩ := hd.deadline deadline hphase
      refine ⟨⟨(Runner.beat_backoff now false).trans hd.backoff, fun d hd' ↦ ?_⟩, t, ht, hcheck⟩
      rw [Runner.beat_phase] at hd'
      exact hd.deadline d hd'
    · cases hn
  | wake check =>
    rw [Runner.step] at hn
    split at hn
    · rename_i deadline hphase
      obtain ⟨hcheck, h⟩ := Option.ite_none_left_eq_some.mp hn
      obtain rfl := Option.some.inj h
      obtain ⟨t, ht, rfl⟩ := hd.deadline deadline hphase
      refine ⟨⟨?_, nofun⟩, t, ht, not_lt.mp hcheck⟩
      exact (congrArg (fun b ↦ min (b * 2) _) hd.backoff).trans (retryDelay_succ (waits tr))
    · cases hn
  | stop now =>
    obtain ⟨-, h⟩ := Option.ite_none_left_eq_some.mp hn
    obtain rfl := Option.some.inj h
    refine ⟨⟨?_, nofun⟩, trivial⟩
    refine (Runner.beat_backoff now _).trans (Eq.trans ?_ hd.backoff)
    split <;> rfl

/-- **How long the sensor waits** before it tries again: half a second, and twice as long after each
attempt in a row that fails, up to the maximum. -/
theorem retry_delay (h : (runner cfg).Run tr r) : Machine.Always (WaitsFor cfg) tr := by
  suffices hall : Delays cfg tr r ∧ Machine.Always (WaitsFor cfg) tr from hall.2
  induction h with
  | init h =>
    obtain rfl := h
    exact ⟨⟨retryDelay_zero.symm, nofun⟩, trivial⟩
  | step e r' hr hn ih =>
    obtain ⟨hd, hall⟩ := ih
    obtain ⟨hd', hwaits⟩ := hd.step hn
    exact ⟨hd', hwaits, hall⟩

theorem waits_of_lost : Machine.Always (WaitsFor lostConfig) lostSteps ∧ waits lostSteps = 2 :=
  ⟨retry_delay lost_run, by decide⟩

end ClassG.Sdr
