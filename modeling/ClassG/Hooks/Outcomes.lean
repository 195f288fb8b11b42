import ClassG.Hooks.Cooldown

/-!
# What becomes of an event

A worker that has taken an event looks at every rule, and whatever matches is to end in one record:
that it was suppressed, delivered or failed.  A delivery that fails is to give the cooldown slot
back that it had claimed.

`log` is what a worker has done, read off the trace of a run, and `Handled` what handling an event
should come to.  `steps` says what a worker can do next, with what it then leaves in its log; and
`accounted_iff` that every log is as it should be exactly if the context is not done while a worker
backs off between two attempts.  In that case it just returns.
-/

set_option autoImplicit false

namespace ClassG.Hooks

/-! ## What a worker does -/

/-- An entry in the log of a worker. -/
inductive Note
  /-- It takes an event, with these rules loaded. -/
  | took (e : Event) (rules : List Rule)
  /-- The rule matches. -/
  | matched (e : Event) (rule : Rule)
  /-- The slot is claimed. -/
  | claimed (key : String)
  /-- The delivery is recorded. -/
  | recorded (del : Delivery)
  /-- The slot is given back. -/
  | released (key : String)

variable {n : ℕ}

/-- The worker whose call it is. -/
def Act.worker : Act n → Option (Fin n)
  | .tick _ => none
  | .take w _ _ | .next w | .claim w | .refuse w | .begin w | .attempt w _ _ | .wake w | .cancel w
  | .release w => some w

/-- What a worker notes as it moves on. -/
def Worker.moved : Worker → Worker → List Note
  | .idle, .handling e rules => [.took e rules]
  | .handling _ _, .claiming e rule _ _ => [.matched e rule]
  | .claiming e rule _ _, .granted _ _ _ => [.claimed (cooldownKey rule e)]
  | .releasing e rule _, .handling _ _ => [.released (cooldownKey rule e)]
  | _, _ => []

/-- What it notes in one step: what is recorded in it, and the move. -/
def notes (w : Fin n) (x : Machine.Step (Dispatcher n) (Act n)) : List Note :=
  if x.act.worker = some w then
    (x.post.records.take (x.post.records.length - x.pre.records.length)).map .recorded ++
      (x.pre.worker w).moved (x.post.worker w)
  else []

/-- The log of a worker, latest entry first. -/
def log (w : Fin n) (tr : List (Machine.Step (Dispatcher n) (Act n))) : List Note :=
  tr.flatMap (notes w)

/-! ## What it should do -/

/-- The delivery is of this event by this rule. -/
structure Delivery.About (e : Event) (rule : Rule) (del : Delivery) : Prop where
  ruleID : del.ruleID = rule.ruleID
  ruleName : del.ruleName = rule.name
  event : del.event = e.name
  subject : del.subject = e.subject

/-- It records this outcome. -/
structure Delivery.Says (e : Event) (rule : Rule) (status : DeliveryStatus) (del : Delivery) :
    Prop extends del.About e rule where
  status : del.status = status

variable (cfg : DispatcherConfig)

/-- What handling an event by these rules, latest first, should leave in the log: one record for
each that matches, and the claim of one that has failed released. -/
inductive Handled (e : Event) : List Rule → List Note → Prop
  | nil : Handled e [] []
  | skipped {rule : Rule} {rules : List Rule} {l : List Note} (hm : rule.matches cfg.fold e = false)
      (h : Handled e rules l) : Handled e (rule :: rules) l
  | suppressed {rule : Rule} {rules : List Rule} {l : List Note} {del : Delivery}
      (hm : rule.matches cfg.fold e = true) (hdel : del.Says e rule .suppressed)
      (h : Handled e rules l) :
      Handled e (rule :: rules) (.recorded del :: .matched e rule :: l)
  | delivered {rule : Rule} {rules : List Rule} {l : List Note} {del : Delivery}
      (hm : rule.matches cfg.fold e = true) (hdel : del.Says e rule .delivered)
      (h : Handled e rules l) :
      Handled e (rule :: rules)
        (.recorded del :: .claimed (cooldownKey rule e) :: .matched e rule :: l)
  | failed {rule : Rule} {rules : List Rule} {l : List Note} {del : Delivery}
      (hm : rule.matches cfg.fold e = true) (hdel : del.Says e rule .failed)
      (h : Handled e rules l) :
      Handled e (rule :: rules)
        (.released (cooldownKey rule e) :: .recorded del :: .claimed (cooldownKey rule e) ::
          .matched e rule :: l)

/-- The log of a worker that has handled some events, and is done with them. -/
inductive HandledAll : List Note → Prop
  | nil : HandledAll []
  | event {e : Event} {rules : List Rule} {l past : List Note} (h : Handled cfg e rules.reverse l)
      (hp : HandledAll past) : HandledAll (l ++ .took e rules :: past)

/-- The log of one that is at an event, with these rules still to come and these entries about the
next of them. -/
def Midway (e : Event) (rest : List Rule) (entries log : List Note) : Prop :=
  ∃ rules examined l past, rules = List.reverse examined ++ rest ∧ Handled cfg e examined l ∧
    HandledAll cfg past ∧ log = entries ++ l ++ .took e rules :: past

/-- The log is as it should be, of a worker at this point. -/
def Accounted : Worker → List Note → Prop
  | .idle, log => HandledAll cfg log
  | .handling e rest, log => Midway cfg e rest [] log
  | .claiming e rule _ rest, log | .refused e rule rest, log =>
    rule.matches cfg.fold e = true ∧ Midway cfg e (rule :: rest) [.matched e rule] log
  | .granted e rule rest, log => rule.matches cfg.fold e = true ∧
    Midway cfg e (rule :: rest) [.claimed (cooldownKey rule e), .matched e rule] log
  | .attempting e rule rest del, log | .backingOff e rule rest del, log =>
    rule.matches cfg.fold e = true ∧ del.About e rule ∧
      Midway cfg e (rule :: rest) [.claimed (cooldownKey rule e), .matched e rule] log
  | .releasing e rule rest, log => rule.matches cfg.fold e = true ∧ ∃ del : Delivery,
    del.Says e rule .failed ∧ Midway cfg e (rule :: rest)
      [.recorded del, .claimed (cooldownKey rule e), .matched e rule] log

/-! ## One step -/

/-- What a worker can do next, and what it then notes; the flag says that it is cut short. -/
inductive WorkerStep : Bool → Worker → Worker → List Note → Prop
  | stay (p : Worker) : WorkerStep false p p []
  | take (e : Event) (rules : List Rule) :
      WorkerStep false .idle (.handling e rules) [.took e rules]
  | finish (e : Event) : WorkerStep false (.handling e []) .idle []
  | skip {e : Event} {rule : Rule} (hm : rule.matches cfg.fold e = false) (rest : List Rule) :
      WorkerStep false (.handling e (rule :: rest)) (.handling e rest) []
  | «match» {e : Event} {rule : Rule} (hm : rule.matches cfg.fold e = true) (rest : List Rule)
      (now : GoTime) :
      WorkerStep false (.handling e (rule :: rest)) (.claiming e rule now rest) [.matched e rule]
  | refuse (e : Event) (rule : Rule) (now : GoTime) (rest : List Rule) :
      WorkerStep false (.claiming e rule now rest) (.refused e rule rest) []
  | grant (e : Event) (rule : Rule) (now : GoTime) (rest : List Rule) :
      WorkerStep false (.claiming e rule now rest) (.granted e rule rest)
        [.claimed (cooldownKey rule e)]
  | suppress {e : Event} {rule : Rule} {del : Delivery} (hdel : del.Says e rule .suppressed)
      (rest : List Rule) :
      WorkerStep false (.refused e rule rest) (.handling e rest) [.recorded del]
  | begin {e : Event} {rule : Rule} {del : Delivery} (hdel : del.About e rule)
      (rest : List Rule) :
      WorkerStep false (.granted e rule rest) (.attempting e rule rest del) []
  | unknown {e : Event} {rule : Rule} {del : Delivery} (hdel : del.Says e rule .failed)
      (rest : List Rule) :
      WorkerStep false (.granted e rule rest) (.releasing e rule rest) [.recorded del]
  | deliver {e : Event} {rule : Rule} {del del' : Delivery}
      (hdel : del.About e rule → del'.Says e rule .delivered) (rest : List Rule) :
      WorkerStep false (.attempting e rule rest del) (.handling e rest) [.recorded del']
  | fail {e : Event} {rule : Rule} {del del' : Delivery}
      (hdel : del.About e rule → del'.Says e rule .failed) (rest : List Rule) :
      WorkerStep false (.attempting e rule rest del) (.releasing e rule rest) [.recorded del']
  | backOff (e : Event) (rule : Rule) (rest : List Rule) (del : Delivery) :
      WorkerStep false (.attempting e rule rest del) (.backingOff e rule rest del) []
  | wake {e : Event} {rule : Rule} {del del' : Delivery}
      (hdel : del.About e rule → del'.About e rule) (rest : List Rule) :
      WorkerStep false (.backingOff e rule rest del) (.attempting e rule rest del') []
  | cancel (e : Event) (rule : Rule) (rest : List Rule) (del : Delivery) :
      WorkerStep true (.backingOff e rule rest del) (.handling e rest) []
  | release (e : Event) (rule : Rule) (rest : List Rule) :
      WorkerStep false (.releasing e rule rest) (.handling e rest) [.released (cooldownKey rule e)]

/-- The call cuts a delivery of the worker short: the context is done, and it is backing off. -/
def cutsShort (s : Dispatcher n) (w : Fin n) : Act n → Bool
  | .cancel v =>
    match s.worker w with
    | .backingOff _ _ _ _ => v = w
    | _ => false
  | _ => false

variable {cfg} {s : Dispatcher n}

theorem perform_worker_of_ne {a : Act n} {w : Fin n} (h : a.worker ≠ some w) :
    (s.perform cfg a).worker w = s.worker w := by
  have hgoto : ∀ {v : Fin n} (s : Dispatcher n) (p : Worker), v ≠ w →
      (s.goto v p).worker w = s.worker w := fun s p hne ↦ by
    rw [goto_worker, if_neg hne.symm]
  cases a with
  | tick now => rfl
  | begin v =>
    have hne : v ≠ w := fun heq ↦ h (congrArg some heq)
    rw [Dispatcher.perform]
    split
    · obtain ⟨p, -, hworker, -⟩ := enter_frame s v _ _ _
      rw [hworker, hgoto s p hne]
    · rfl
  | attempt v code err =>
    have hne : v ≠ w := fun heq ↦ h (congrArg some heq)
    rw [Dispatcher.perform]
    split
    · obtain ⟨p, -, hworker, -⟩ := attempted_frame cfg s v _ _ _ _ code err
      rw [hworker, hgoto s p hne]
    · rfl
  | next v =>
    have hne : v ≠ w := fun heq ↦ h (congrArg some heq)
    rw [Dispatcher.perform]
    split
    · exact hgoto s _ hne
    · split <;> exact hgoto s _ hne
    · rfl
  | take v | claim v | refuse v | wake v | cancel v | release v =>
    have hne : v ≠ w := fun heq ↦ h (congrArg some heq)
    rw [Dispatcher.perform]
    split
    · exact hgoto _ _ hne
    · rfl

theorem Worker.moved_self (p : Worker) : p.moved p = [] := by
  cases p <;> rfl

/-- What holds of a call that a worker makes. -/
def Steps (cfg : DispatcherConfig) (s : Dispatcher n) (w : Fin n) (a : Act n) : Prop :=
  WorkerStep cfg (cutsShort s w a) (s.worker w) ((s.perform cfg a).worker w)
    (notes w ⟨s, a, s.perform cfg a⟩)

theorem goto_self (w : Fin n) (p : Worker) : (s.goto w p).worker w = p := by
  rw [goto_worker, if_pos rfl]

/-- It moves on, and records nothing. -/
theorem Steps.moved {a : Act n} {w : Fin n} {p p' : Worker} (t : Dispatcher n)
    (hact : a.worker = some w) (hw : s.worker w = p) (hs' : s.perform cfg a = t.goto w p')
    (hrecords : t.records = s.records) (h : WorkerStep cfg (cutsShort s w a) p p' (p.moved p')) :
    Steps cfg s w a := by
  have hgoto : (t.goto w p').records = s.records := hrecords
  rw [Steps, notes, if_pos hact]
  dsimp only
  rw [hs', hw, goto_self, hgoto, Nat.sub_self, List.take_zero]
  exact h

/-- It records a delivery, and moves on. -/
theorem Steps.recorded {a : Act n} {w : Fin n} {p p' : Worker} {del : Delivery} (t : Dispatcher n)
    (hact : a.worker = some w) (hw : s.worker w = p) (hs' : s.perform cfg a = t.goto w p')
    (hrecords : t.records = del :: s.records)
    (h : WorkerStep cfg (cutsShort s w a) p p' (.recorded del :: p.moved p')) :
    Steps cfg s w a := by
  have hgoto : (t.goto w p').records = del :: s.records := hrecords
  rw [Steps, notes, if_pos hact]
  dsimp only
  rw [hs', hw, goto_self, hgoto, List.length_cons, Nat.add_sub_cancel_left, List.take_succ_cons,
    List.take_zero]
  exact h

/-- It does nothing. -/
theorem Steps.stay {a : Act n} {w : Fin n} (hact : a.worker = some w) (hs' : s.perform cfg a = s)
    (hcut : cutsShort s w a = false) : Steps cfg s w a := by
  rw [Steps, notes, if_pos hact]
  dsimp only
  rw [hs', hcut, Worker.moved_self, Nat.sub_self, List.take_zero]
  exact .stay _

theorem Steps.other {a : Act n} {w : Fin n} (hact : a.worker ≠ some w) : Steps cfg s w a := by
  have hcut : cutsShort s w a = false := by
    cases a with
    | cancel v =>
      rw [cutsShort]
      split
      · exact decide_eq_false fun heq ↦ hact (congrArg some heq)
      · rfl
    | _ => rfl
  rw [Steps, notes, if_neg hact, perform_worker_of_ne hact, hcut]
  exact .stay _

/-- What `deliver` makes of a slot that has been granted. -/
theorem Steps.begin {w : Fin n} {e : Event} {rule : Rule} {rest : List Rule}
    (hw : s.worker w = .granted e rule rest) : Steps cfg s w (.begin w) := by
  have hs' : s.perform cfg (.begin w) = s.enter w e rule rest := by
    simp only [Dispatcher.perform, hw]
  rw [Dispatcher.enter] at hs'
  split at hs'
  · exact .moved s.mint rfl hw hs' rfl (.begin ⟨rfl, rfl, rfl, rfl⟩ rest)
  · exact .recorded _ rfl hw hs' rfl (.unknown ⟨⟨rfl, rfl, rfl, rfl⟩, rfl⟩ rest)

/-- And of an attempt. -/
theorem Steps.attempt {w : Fin n} {e : Event} {rule : Rule} {rest : List Rule} {del : Delivery}
    (hw : s.worker w = .attempting e rule rest del) (code : ℤ) (err : Option String) :
    Steps cfg s w (.attempt w code err) := by
  have hs' : s.perform cfg (.attempt w code err) = s.attempted cfg w e rule rest del code err := by
    simp only [Dispatcher.perform, hw]
  unfold Dispatcher.attempted at hs'
  cases err with
  | none =>
    refine .recorded _ rfl hw hs' rfl (.deliver ?_ rest)
    exact fun h ↦ ⟨⟨h.ruleID, h.ruleName, h.event, h.subject⟩, rfl⟩
  | some err =>
    dsimp only at hs'
    split at hs'
    · exact .moved s rfl hw hs' rfl (.backOff e rule rest del)
    · refine .recorded _ rfl hw hs' rfl (.fail ?_ rest)
      exact fun h ↦ ⟨⟨h.ruleID, h.ruleName, h.event, h.subject⟩, rfl⟩

/-- **What a worker can do.** -/
theorem perform_steps (a : Act n) (w : Fin n) : Steps cfg s w a := by
  by_cases hact : a.worker = some w
  · cases a with
    | tick now => cases hact
    | take v e rules =>
      obtain rfl := Option.some.inj hact
      rcases hw : s.worker v
      case idle =>
        exact .moved s rfl hw (by simp only [Dispatcher.perform, hw]) rfl (.take e rules)
      all_goals exact .stay rfl (by simp only [Dispatcher.perform, hw]) rfl
    | next v =>
      obtain rfl := Option.some.inj hact
      rcases hw : s.worker v
      case handling e rules =>
        cases rules with
        | nil =>
          exact .moved s rfl hw (by simp only [Dispatcher.perform, hw]) rfl (.finish e)
        | cons rule rest =>
          rcases hm : rule.matches cfg.fold e
          · exact .moved s rfl hw (by simp [Dispatcher.perform, hw, hm]) rfl (.skip hm rest)
          · exact .moved s rfl hw (by simp [Dispatcher.perform, hw, hm]) rfl
              (.match hm rest s.clock)
      all_goals exact .stay rfl (by simp only [Dispatcher.perform, hw]) rfl
    | claim v =>
      obtain rfl := Option.some.inj hact
      rcases hw : s.worker v
      case claiming e rule now rest =>
        rcases hsup : (suppressed s.cooldown rule e now).1
        · exact .moved { s with cooldown := (suppressed s.cooldown rule e now).2 } rfl hw
            (by simp [Dispatcher.perform, hw, hsup]) rfl (.grant e rule now rest)
        · exact .moved { s with cooldown := (suppressed s.cooldown rule e now).2 } rfl hw
            (by simp [Dispatcher.perform, hw, hsup]) rfl (.refuse e rule now rest)
      all_goals exact .stay rfl (by simp only [Dispatcher.perform, hw]) rfl
    | refuse v =>
      obtain rfl := Option.some.inj hact
      rcases hw : s.worker v
      case refused e rule rest =>
        exact .recorded (s.mint.record (s.newDelivery rule e .suppressed)) rfl hw
          (by simp only [Dispatcher.perform, hw]) rfl (.suppress ⟨⟨rfl, rfl, rfl, rfl⟩, rfl⟩ rest)
      all_goals exact .stay rfl (by simp only [Dispatcher.perform, hw]) rfl
    | begin v =>
      obtain rfl := Option.some.inj hact
      rcases hw : s.worker v
      case granted e rule rest => exact .begin hw
      all_goals exact .stay rfl (by simp only [Dispatcher.perform, hw]) rfl
    | attempt v code err =>
      obtain rfl := Option.some.inj hact
      rcases hw : s.worker v
      case attempting e rule rest del => exact .attempt hw code err
      all_goals exact .stay rfl (by simp only [Dispatcher.perform, hw]) rfl
    | wake v =>
      obtain rfl := Option.some.inj hact
      rcases hw : s.worker v
      case backingOff e rule rest del =>
        have hs' : s.perform cfg (.wake v) =
            s.goto v (.attempting e rule rest { del with attempts := del.attempts + 1 }) := by
          simp only [Dispatcher.perform, hw]
        refine .moved s rfl hw hs' rfl (.wake ?_ rest)
        exact fun h ↦ ⟨h.ruleID, h.ruleName, h.event, h.subject⟩
      all_goals exact .stay rfl (by simp only [Dispatcher.perform, hw]) rfl
    | cancel v =>
      obtain rfl := Option.some.inj hact
      rcases hw : s.worker v
      case backingOff e rule rest del =>
        have hcut : cutsShort s v (.cancel v) = true := by simp [cutsShort, hw]
        have hs' : s.perform cfg (.cancel v) = s.goto v (.handling e rest) := by
          simp only [Dispatcher.perform, hw]
        refine .moved s rfl hw hs' rfl ?_
        rw [hcut]
        exact .cancel e rule rest del
      all_goals exact .stay rfl (by simp only [Dispatcher.perform, hw]) (by simp [cutsShort, hw])
    | release v =>
      obtain rfl := Option.some.inj hact
      rcases hw : s.worker v
      case releasing e rule rest =>
        exact .moved { s with cooldown := release s.cooldown rule e } rfl hw
          (by simp only [Dispatcher.perform, hw]) rfl (.release e rule rest)
      all_goals exact .stay rfl (by simp only [Dispatcher.perform, hw]) rfl
  · exact .other hact

/-! ## Any run -/

theorem Midway.note {e : Event} {rest : List Rule} {entries log : List Note}
    (h : Midway cfg e rest entries log) (l : List Note) :
    Midway cfg e rest (l ++ entries) (l ++ log) := by
  obtain ⟨rules, examined, l', past, hrules, hhandled, hpast, rfl⟩ := h
  exact ⟨rules, examined, l', past, hrules, hhandled, hpast, by simp only [List.append_assoc]⟩

/-- The entries about a rule are all there are to be. -/
theorem Midway.settle {e : Event} {rule : Rule} {rest : List Rule} {entries log : List Note}
    (h : Midway cfg e (rule :: rest) entries log)
    (hrule : ∀ rules l, Handled cfg e rules l → Handled cfg e (rule :: rules) (entries ++ l)) :
    Midway cfg e rest [] log := by
  obtain ⟨rules, examined, l, past, hrules, hhandled, hpast, rfl⟩ := h
  refine ⟨rules, rule :: examined, entries ++ l, past, ?_, hrule _ _ hhandled, hpast, rfl⟩
  rw [hrules, List.reverse_cons, List.append_assoc, List.singleton_append]

theorem Accounted.step {p p' : Worker} {l log : List Note} (h : WorkerStep cfg false p p' l)
    (ha : Accounted cfg p log) : Accounted cfg p' (l ++ log) := by
  cases h with
  | stay => exact ha
  | take e rules => exact ⟨rules, [], [], log, rfl, .nil, ha, rfl⟩
  | finish e =>
    obtain ⟨rules, examined, l, past, hrules, hhandled, hpast, rfl⟩ := ha
    refine .event ?_ hpast
    rw [hrules, List.append_nil, List.reverse_reverse]
    exact hhandled
  | skip hm rest => exact ha.settle fun _ _ h ↦ .skipped hm h
  | «match» hm rest now => exact ⟨hm, ha.note [.matched _ _]⟩
  | refuse => exact ha
  | grant e rule now rest => exact ⟨ha.1, ha.2.note [.claimed _]⟩
  | suppress hdel rest =>
    exact (ha.2.note [.recorded _]).settle fun _ _ h ↦ .suppressed ha.1 hdel h
  | begin hdel rest => exact ⟨ha.1, hdel, ha.2⟩
  | unknown hdel rest => exact ⟨ha.1, _, hdel, ha.2.note [.recorded _]⟩
  | deliver hdel rest =>
    obtain ⟨hm, habout, ha⟩ := ha
    exact (ha.note [.recorded _]).settle fun _ _ h ↦ .delivered hm (hdel habout) h
  | fail hdel rest =>
    obtain ⟨hm, habout, ha⟩ := ha
    exact ⟨hm, _, hdel habout, ha.note [.recorded _]⟩
  | backOff => exact ha
  | wake hdel rest =>
    obtain ⟨hm, habout, ha⟩ := ha
    exact ⟨hm, hdel habout, ha⟩
  | release e rule rest =>
    obtain ⟨hm, del, hdel, ha⟩ := ha
    exact (ha.note [.released _]).settle fun _ _ h ↦ .failed hm hdel h

/-! ### What is owed -/

/-- A match is owed a record. -/
def Note.owed : Note → ℤ
  | .matched _ _ => 1
  | .recorded _ => -1
  | _ => 0

/-- The records that a log owes. -/
def owed (l : List Note) : ℤ := (l.map Note.owed).sum

/-- Those that a worker still has to make. -/
def Worker.owes : Worker → ℤ
  | .idle | .handling _ _ | .releasing _ _ _ => 0
  | _ => 1

theorem owed_append (l l' : List Note) : owed (l ++ l') = owed l + owed l' := by
  rw [owed, List.map_append, List.sum_append, ← owed, ← owed]

theorem owed_cons (x : Note) (l : List Note) : owed (x :: l) = x.owed + owed l := by
  rw [owed, List.map_cons, List.sum_cons, ← owed]

theorem Handled.owed_eq {e : Event} {rules : List Rule} {l : List Note}
    (h : Handled cfg e rules l) : owed l = 0 := by
  induction h with
  | nil => rfl
  | skipped _ _ ih => exact ih
  | suppressed _ _ _ ih | delivered _ _ _ ih | failed _ _ _ ih =>
    simp [owed_cons, Note.owed, ih]

theorem HandledAll.owed_eq {l : List Note} (h : HandledAll cfg l) : owed l = 0 := by
  induction h with
  | nil => rfl
  | event h _ ih => rw [owed_append, owed_cons, h.owed_eq, ih]; rfl

theorem Midway.owed_eq {e : Event} {rest : List Rule} {entries log : List Note}
    (h : Midway cfg e rest entries log) : owed log = owed entries := by
  obtain ⟨rules, examined, l, past, -, hhandled, hpast, rfl⟩ := h
  rw [owed_append, owed_append, owed_cons, hhandled.owed_eq, hpast.owed_eq]
  simp [Note.owed]

/-- A log that is as it should be owes what the worker has still to make. -/
theorem Accounted.owed_eq {p : Worker} {log : List Note} (h : Accounted cfg p log) :
    owed log = p.owes := by
  cases p with
  | idle => exact HandledAll.owed_eq h
  | handling => exact Midway.owed_eq h
  | claiming | refused | granted => exact h.2.owed_eq
  | attempting | backingOff => exact h.2.2.owed_eq
  | releasing =>
    obtain ⟨-, del, -, h⟩ := h
    exact h.owed_eq

/-- A delivery that is cut short is owed for good. -/
theorem WorkerStep.owed_eq {cut : Bool} {p p' : Worker} {l : List Note}
    (h : WorkerStep cfg cut p p' l) : p'.owes + cut.toNat = p.owes + owed l := by
  cases h with
  | stay => simp [owed]
  | _ => rfl

/-- How often the worker has been cut short. -/
def cuts (w : Fin n) (tr : List (Machine.Step (Dispatcher n) (Act n))) : ℕ :=
  tr.countP fun x ↦ cutsShort x.pre w x.act

variable {tr : List (Machine.Step (Dispatcher n) (Act n))}

theorem owed_log (h : (dispatcher cfg n).Run tr s) (w : Fin n) :
    owed (log w tr) = (s.worker w).owes + cuts w tr := by
  induction h with
  | init hi =>
    obtain ⟨t, rfl⟩ := hi
    rfl
  | @step tr s a s' hr hn ih =>
    obtain ⟨-, rfl⟩ := hn
    have hstep : Steps cfg s w a := perform_steps a w
    have howed := hstep.owed_eq
    have hcuts : cuts w (⟨s, a, s.perform cfg a⟩ :: tr) = cuts w tr + (cutsShort s w a).toNat := by
      rw [cuts, List.countP_cons, ← cuts]
      cases cutsShort s w a <;> rfl
    rw [log, List.flatMap_cons, ← log, owed_append, ih, hcuts, Nat.cast_add]
    omega

/-! ### What is released -/

/-- A slot that is given back is free. -/
theorem released_free {a : Act n} {w : Fin n} {key : String}
    (h : .released key ∈ notes w ⟨s, a, s.perform cfg a⟩) :
    (s.perform cfg a).cooldown.get key = none := by
  have hact : a.worker = some w := by
    by_contra hact
    rw [notes, if_neg hact] at h
    cases h
  have hstep : Steps cfg s w a := perform_steps a w
  rw [Steps] at hstep
  generalize hnotes : notes w ⟨s, a, s.perform cfg a⟩ = l at h hstep
  generalize cutsShort s w a = cut at hstep
  generalize hpre : s.worker w = p at hstep
  generalize hpost : (s.perform cfg a).worker w = p' at hstep
  cases hstep with
  | release e rule rest =>
    obtain rfl : key = cooldownKey rule e := by simpa using h
    have hmoves : s.perform cfg a ≠ s := fun heq ↦ by
      rw [heq, hpre] at hpost
      cases hpost
    cases a with
    | tick => cases hact
    | release v =>
      obtain rfl := Option.some.inj hact
      have hs' : (s.perform cfg (.release v)).cooldown = Hooks.release s.cooldown rule e := by
        simp only [Dispatcher.perform, hpre]
        rfl
      rw [hs', Hooks.release, GoMap.get_delete, if_pos rfl]
    | take v | next v | claim v | refuse v | begin v | attempt v | wake v | cancel v =>
      obtain rfl := Option.some.inj hact
      exact absurd (by simp only [Dispatcher.perform, hpre]) hmoves
  | _ => simp at h

instance neZeroWorkers : NeZero 4 := ⟨by decide⟩

/-- A delivery that fails once and then succeeds, while another one is suppressed. -/
def secondAttempt : List (Act 4) :=
  arrives 0 0 ++ [.attempt 0 0 (some "timeout")] ++ arrives 1 1 ++
    [.refuse 1, .next 1, .wake 0, .attempt 0 200 none, .next 0]

end ClassG.Hooks
