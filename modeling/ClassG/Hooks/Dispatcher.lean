import ClassG.Hooks.Rule
import ClassG.Machine

/-!
# The hook dispatcher

`services/api/internal/hooks/dispatcher.go`: workers take events off the queue, look at every rule
in turn, and deliver what matches and is not suppressed.  The workers share the cooldown map and
nothing else, so the dispatcher is a machine whose calls are the points at which one of them
touches it, reads the clock or writes to the store; the calls of different workers come in any
order, and any time may pass between two of them.

The clock is part of the state and never goes back.  What `loadRules` returns when an event is
taken, how an attempt ends and when the context is done are up to the environment, so a reload of
the rules is a `take` with another list.  A worker that is not at the point a call is about does
nothing.

There are `n` workers; the source runs four, and `drain` is one more.
-/

set_option autoImplicit false

namespace ClassG.Hooks

/-! ## Deliveries -/

inductive DeliveryStatus
  | pending | delivered | failed | suppressed
  deriving DecidableEq, Repr

/-- One attempt to fire a rule, as it is recorded. -/
structure Delivery where
  deliveryID : ℕ
  ruleID : String
  ruleName : String
  event : String
  subject : String
  status : DeliveryStatus
  attempts : ℕ := 0
  error : String := ""
  createdAt : GoTime
  completedAt : Option GoTime := none
  responseCode : ℤ := 0
  deriving DecidableEq, Repr

/-- What the dispatcher is set up with. -/
structure DispatcherConfig where
  /-- `Attempts`. -/
  maxAttempts : ℤ := 0
  /-- The case folding of the letters outside ASCII. -/
  fold : Char → Char := id

/-- `attempts()`. -/
def DispatcherConfig.attempts (cfg : DispatcherConfig) : ℤ :=
  if cfg.maxAttempts > 0 then cfg.maxAttempts else 3

/-- The target says "this request is wrong", so that sending it again is noise. -/
def permanent (code : ℤ) : Bool := code ≥ 400 ∧ code < 500 ∧ code ≠ 408 ∧ code ≠ 429

/-! ## Workers -/

/-- Where a worker is. -/
inductive Worker
  /-- Waiting for an event. -/
  | idle
  /-- In the loop of `handle`, with the rules still to come. -/
  | handling (e : Event) (rules : List Rule)
  /-- In `suppressed`: the clock has been read, the lock not yet taken. -/
  | claiming (e : Event) (rule : Rule) (now : GoTime) (rest : List Rule)
  /-- `suppressed` has returned true. -/
  | refused (e : Event) (rule : Rule) (rest : List Rule)
  /-- `suppressed` has returned false. -/
  | granted (e : Event) (rule : Rule) (rest : List Rule)
  /-- In `deliver`, with an attempt under way. -/
  | attempting (e : Event) (rule : Rule) (rest : List Rule) (del : Delivery)
  /-- In `deliver`, between two attempts. -/
  | backingOff (e : Event) (rule : Rule) (rest : List Rule) (del : Delivery)
  /-- In `deliver`: the failure is recorded and the slot not yet given back. -/
  | releasing (e : Event) (rule : Rule) (rest : List Rule)

/-- The slot a worker waits for, and the clock as it has read it. -/
def Worker.reading : Worker → Option (String × GoTime)
  | claiming e rule now _ => some (cooldownKey rule e, now)
  | _ => none

/-- The slot a worker is about to give back. -/
def Worker.givesBack : Worker → Option String
  | releasing e rule _ => some (cooldownKey rule e)
  | _ => none

/-- The dispatcher, with what the store has been told. -/
structure Dispatcher (n : ℕ) where
  clock : GoTime
  cooldown : GoMap String GoTime := .empty
  worker : Fin n → Worker := fun _ ↦ .idle
  /-- How many ids have been minted. -/
  minted : ℕ := 0
  /-- The arguments of `PutHookDelivery`, latest first. -/
  records : List Delivery := []
  /-- The arguments of `MarkHookRuleFired`, latest first. -/
  fired : List (String × GoTime) := []

/-- What may happen next. -/
inductive Act (n : ℕ)
  /-- Time passes. -/
  | tick (now : GoTime)
  /-- The worker takes an event, and `loadRules` returns these rules. -/
  | take (w : Fin n) (e : Event) (rules : List Rule)
  /-- It looks at the next rule, and reads the clock for `suppressed` if the rule matches. -/
  | next (w : Fin n)
  /-- It takes the lock in `suppressed`. -/
  | claim (w : Fin n)
  /-- It records that the rule was suppressed. -/
  | refuse (w : Fin n)
  /-- It enters `deliver`. -/
  | begin (w : Fin n)
  /-- The attempt ends, with a response code and perhaps an error. -/
  | attempt (w : Fin n) (code : ℤ) (err : Option String)
  /-- The backoff is over. -/
  | wake (w : Fin n)
  /-- The context is done during the backoff. -/
  | cancel (w : Fin n)
  /-- It takes the lock in `release`. -/
  | release (w : Fin n)

namespace Dispatcher

variable {n : ℕ} (cfg : DispatcherConfig) (s : Dispatcher n)

/-- The worker moves on. -/
def goto (w : Fin n) (p : Worker) : Dispatcher n :=
  { s with worker := Function.update s.worker w p }

/-- `record`. -/
def record (del : Delivery) : Dispatcher n := { s with records := del :: s.records }

/-- The delivery with a new id, as of now. -/
def newDelivery (rule : Rule) (e : Event) (status : DeliveryStatus) : Delivery where
  deliveryID := s.minted
  ruleID := rule.ruleID
  ruleName := rule.name
  event := e.name
  subject := e.subject
  status := status
  createdAt := s.clock

/-- One more id is minted. -/
def mint : Dispatcher n := { s with minted := s.minted + 1 }

/-- The delivery has failed: it is recorded, and the slot is to be given back. -/
def fail (w : Fin n) (e : Event) (rule : Rule) (rest : List Rule) (del : Delivery) :
    Dispatcher n :=
  (s.record { del with status := .failed }).goto w (.releasing e rule rest)

/-- `deliver`, up to its first attempt. -/
def enter (w : Fin n) (e : Event) (rule : Rule) (rest : List Rule) : Dispatcher n :=
  let del := s.newDelivery rule e .pending
  if rule.action = actionWebhook ∨ rule.action = actionEmail ∨ rule.action = actionNtfy then
    s.mint.goto w (.attempting e rule rest { del with attempts := 1 })
  else
    s.mint.fail w e rule rest { del with error := "unknown action " ++ rule.action }

/-- `deliver`, after an attempt. -/
def attempted (w : Fin n) (e : Event) (rule : Rule) (rest : List Rule) (del : Delivery)
    (code : ℤ) (err : Option String) : Dispatcher n :=
  match err with
  | none =>
    let s := s.record { del with
      status := .delivered, completedAt := some s.clock, responseCode := code }
    { s with fired := (rule.ruleID, s.clock) :: s.fired }.goto w (.handling e rest)
  | some err =>
    if permanent code = false ∧ (del.attempts : ℤ) < cfg.attempts then
      s.goto w (.backingOff e rule rest del)
    else
      s.fail w e rule rest
        { del with completedAt := some s.clock, responseCode := code, error := err }

/-- What a call does. -/
def perform : Act n → Dispatcher n
  | .tick now => { s with clock := now }
  | .take w e rules =>
    match s.worker w with
    | .idle => s.goto w (.handling e rules)
    | _ => s
  | .next w =>
    match s.worker w with
    | .handling _ [] => s.goto w .idle
    | .handling e (rule :: rest) =>
      if rule.matches cfg.fold e then s.goto w (.claiming e rule s.clock rest)
      else s.goto w (.handling e rest)
    | _ => s
  | .claim w =>
    match s.worker w with
    | .claiming e rule now rest =>
      let (refused, cooldown) := suppressed s.cooldown rule e now
      { s with cooldown := cooldown }.goto w
        (if refused then .refused e rule rest else .granted e rule rest)
    | _ => s
  | .refuse w =>
    match s.worker w with
    | .refused e rule rest =>
      (s.mint.record (s.newDelivery rule e .suppressed)).goto w (.handling e rest)
    | _ => s
  | .begin w =>
    match s.worker w with
    | .granted e rule rest => s.enter w e rule rest
    | _ => s
  | .attempt w code err =>
    match s.worker w with
    | .attempting e rule rest del => s.attempted cfg w e rule rest del code err
    | _ => s
  | .wake w =>
    match s.worker w with
    | .backingOff e rule rest del =>
      s.goto w (.attempting e rule rest { del with attempts := del.attempts + 1 })
    | _ => s
  | .cancel w =>
    match s.worker w with
    -- neither recorded nor released
    | .backingOff e _ rest _ => s.goto w (.handling e rest)
    | _ => s
  | .release w =>
    match s.worker w with
    | .releasing e rule rest =>
      { s with cooldown := release s.cooldown rule e }.goto w (.handling e rest)
    | _ => s

end Dispatcher

/-- Time does not go back. -/
def Act.Ok {n : ℕ} (s : Dispatcher n) : Act n → Prop
  | .tick now => s.clock ≤ now
  | _ => True

instance {n : ℕ} (s : Dispatcher n) : (a : Act n) → Decidable (a.Ok s)
  | .tick now => inferInstanceAs (Decidable (s.clock ≤ now))
  | .take _ _ _ | .next _ | .claim _ | .refuse _ | .begin _ | .attempt _ _ _ | .wake _ | .cancel _
  | .release _ => .isTrue trivial

/-- The dispatcher as a machine: it starts with every worker idle and no slot claimed. -/
def dispatcher (cfg : DispatcherConfig) (n : ℕ) : Machine (Dispatcher n) (Act n) where
  init s := ∃ t, s = { clock := t }
  next s a s' := a.Ok s ∧ s' = s.perform cfg a

/-! ## What a call changes -/

section frame

variable {cfg : DispatcherConfig} {n : ℕ} (s : Dispatcher n)

theorem goto_worker (w v : Fin n) (p : Worker) :
    (s.goto w p).worker v = if v = w then p else s.worker v :=
  Function.update_apply s.worker w p v

/-- A worker that moves on has no reading but the one at its new point. -/
theorem reading_goto {w v : Fin n} {p : Worker} {q : String × GoTime}
    (h : q ∈ ((s.goto w p).worker v).reading) : q ∈ p.reading ∨ q ∈ (s.worker v).reading := by
  rw [goto_worker] at h
  split at h
  · exact .inl h
  · exact .inr h

/-- Whatever `deliver` does at its start, the worker moves on and the cooldown is left alone. -/
theorem enter_frame (w : Fin n) (e : Event) (rule : Rule) (rest : List Rule) :
    ∃ p : Worker, p.reading = none ∧ (s.enter w e rule rest).worker = (s.goto w p).worker ∧
      (s.enter w e rule rest).clock = s.clock ∧
      (s.enter w e rule rest).cooldown = s.cooldown := by
  unfold Dispatcher.enter
  dsimp only
  split <;> exact ⟨_, rfl, rfl, rfl, rfl⟩

variable (cfg) in
/-- And so does whatever it does after an attempt. -/
theorem attempted_frame (w : Fin n) (e : Event) (rule : Rule) (rest : List Rule) (del : Delivery)
    (code : ℤ) (err : Option String) :
    ∃ p : Worker, p.reading = none ∧
      (s.attempted cfg w e rule rest del code err).worker = (s.goto w p).worker ∧
      (s.attempted cfg w e rule rest del code err).clock = s.clock ∧
      (s.attempted cfg w e rule rest del code err).cooldown = s.cooldown := by
  unfold Dispatcher.attempted
  cases err with
  | none => exact ⟨_, rfl, rfl, rfl, rfl⟩
  | some err =>
    dsimp only
    split <;> exact ⟨_, rfl, rfl, rfl, rfl⟩

/-- The call neither takes the lock in `suppressed` nor in `release`. -/
def Act.Quiet : Act n → Prop
  | .claim w => (s.worker w).reading = none
  | .release w => (s.worker w).givesBack = none
  | _ => True

/-- What a call can do. -/
inductive Effect : Act n → Dispatcher n → Prop
  /-- It leaves the cooldown alone; a worker that has a new reading has just read the clock. -/
  | still {a : Act n} {s' : Dispatcher n} (hquiet : a.Quiet s)
      (hcooldown : s'.cooldown = s.cooldown) (hclock : s.clock ≤ s'.clock)
      (hreading : ∀ v, ∀ q ∈ (s'.worker v).reading, q ∈ (s.worker v).reading ∨ q.2 = s.clock) :
      Effect a s'
  /-- A worker asks for the slot, and is refused or granted it. -/
  | claim {w : Fin n} {e : Event} {rule : Rule} {now : GoTime} {rest : List Rule}
      (hw : s.worker w = .claiming e rule now rest) :
      Effect (.claim w)
        ({ s with cooldown := (suppressed s.cooldown rule e now).2 }.goto w
          (if (suppressed s.cooldown rule e now).1 then .refused e rule rest
            else .granted e rule rest))
  /-- A worker gives the slot back. -/
  | release {w : Fin n} {e : Event} {rule : Rule} {rest : List Rule}
      (hw : s.worker w = .releasing e rule rest) :
      Effect (.release w)
        ({ s with cooldown := release s.cooldown rule e }.goto w (.handling e rest))

variable {s}

/-- A worker that moves on without asking for a slot does nothing else that shows. -/
theorem Effect.moved {a : Act n} {s' : Dispatcher n} (w : Fin n) (p : Worker)
    (hquiet : a.Quiet s) (hp : ∀ q ∈ p.reading, q.2 = s.clock)
    (hworker : s'.worker = (s.goto w p).worker) (hclock : s'.clock = s.clock)
    (hcooldown : s'.cooldown = s.cooldown) : Effect s a s' :=
  .still hquiet hcooldown hclock.ge fun v q hq ↦ by
    rw [hworker] at hq
    exact (reading_goto s hq).symm.imp_right (hp q)

/-- In particular one whose new point is outside `suppressed`. -/
theorem Effect.left {a : Act n} {s' : Dispatcher n} (w : Fin n) (p : Worker) (hquiet : a.Quiet s)
    (hworker : s'.worker = (s.goto w p).worker) (hclock : s'.clock = s.clock)
    (hcooldown : s'.cooldown = s.cooldown) (hp : p.reading = none) : Effect s a s' :=
  .moved w p hquiet (by simp [hp]) hworker hclock hcooldown

theorem Effect.nothing {a : Act n} (hquiet : a.Quiet s) : Effect s a s :=
  .still hquiet rfl le_rfl fun _ _ hq ↦ .inl hq

/-- **Every call has one of the three effects.** -/
theorem perform_effect {a : Act n} (hok : a.Ok s) : Effect s a (s.perform cfg a) := by
  cases a with
  | tick now => exact .still trivial rfl hok fun _ _ hq ↦ .inl hq
  | take w e rules =>
    cases hw : s.worker w <;> simp only [Dispatcher.perform, hw]
    case idle => exact .left w _ trivial rfl rfl rfl rfl
    all_goals exact .nothing trivial
  | next w =>
    cases hw : s.worker w <;> simp only [Dispatcher.perform, hw]
    case handling e rules =>
      cases rules with
      | nil => exact .left w _ trivial rfl rfl rfl rfl
      | cons rule rest =>
        dsimp only
        split
        · exact .moved w _ trivial (by simp [Worker.reading]) rfl rfl rfl
        · exact .left w _ trivial rfl rfl rfl rfl
    all_goals exact .nothing trivial
  | claim w =>
    cases hw : s.worker w <;> simp only [Dispatcher.perform, hw]
    case claiming e rule now rest => exact .claim hw
    all_goals exact .nothing (by simp [Act.Quiet, hw, Worker.reading])
  | refuse w =>
    cases hw : s.worker w <;> simp only [Dispatcher.perform, hw]
    case refused e rule rest => exact .left w _ trivial rfl rfl rfl rfl
    all_goals exact .nothing trivial
  | begin w =>
    cases hw : s.worker w <;> simp only [Dispatcher.perform, hw]
    case granted e rule rest =>
      obtain ⟨p, hp, hworker, hclock, hcooldown⟩ := enter_frame s w e rule rest
      exact .left w p trivial hworker hclock hcooldown hp
    all_goals exact .nothing trivial
  | attempt w code err =>
    cases hw : s.worker w <;> simp only [Dispatcher.perform, hw]
    case attempting e rule rest del =>
      obtain ⟨p, hp, hworker, hclock, hcooldown⟩ :=
        attempted_frame cfg s w e rule rest del code err
      exact .left w p trivial hworker hclock hcooldown hp
    all_goals exact .nothing trivial
  | wake w =>
    cases hw : s.worker w <;> simp only [Dispatcher.perform, hw]
    case backingOff e rule rest del => exact .left w _ trivial rfl rfl rfl rfl
    all_goals exact .nothing trivial
  | cancel w =>
    cases hw : s.worker w <;> simp only [Dispatcher.perform, hw]
    case backingOff e rule rest del => exact .left w _ trivial rfl rfl rfl rfl
    all_goals exact .nothing trivial
  | release w =>
    cases hw : s.worker w <;> simp only [Dispatcher.perform, hw]
    case releasing e rule rest => exact .release hw
    all_goals exact .nothing (by simp [Act.Quiet, hw, Worker.givesBack])

end frame

end ClassG.Hooks
