import ClassG.Hooks.RuleStore
import ClassG.Program

/-!
# The firing history of a rule

A rule carries how often it has fired and when it last did.  The dispatcher's workers keep that up
with `MarkHookRuleFired`, which changes these two fields and no others (`hooks/dispatcher.go`,
`markFired`); an administrator's edit takes them from the rule it has read and writes the whole rule
back (`httpapi/hooksapi.go`, `handleUpdateHookRule`).

So a firing that is recorded between the two is lost, in either store; and since a worker reads the
clock before it gets to the store, two firings can be recorded in the wrong order (`firings_lost`).
`booked_iff` says that nothing else can go wrong.
-/

set_option autoImplicit false

namespace ClassG.Hooks

/-! ## The calls -/

/-- What the calls ask of the store, the clock and the rest of the service. -/
inductive HookOp
  | now
  /-- `ulid.New`. -/
  | newRuleID
  /-- `Dispatcher.ValidateRule`: whether the backend accepts the configuration and the boundary
  exists. -/
  | accepts (rule : StoredRule)
  | listHookRules
  | getHookRule (id : String)
  | putHookRule (r : StoredRule)
  | deleteHookRule (id : String)
  | markHookRuleFired (id : String) (at' : GoTime)

@[reducible] def hookOps : Interface where
  Op := HookOp
  Ans
    | .now => GoTime
    | .newRuleID => String
    | .accepts _ => Bool
    | .listHookRules => List StoredRule
    | .getHookRule _ => Option StoredRule
    | .putHookRule _ => Unit
    -- whether there is such a rule
    | .deleteHookRule _ | .markHookRuleFired _ _ => Bool

abbrev HookProgram (α : Type) := Program hookOps α

def now : HookProgram GoTime := .call hookOps .now
def newRuleID : HookProgram String := .call hookOps .newRuleID
def accepts (rule : StoredRule) : HookProgram Bool := .call hookOps (.accepts rule)
def listHookRules : HookProgram (List StoredRule) := .call hookOps .listHookRules
def getHookRule (id : String) : HookProgram (Option StoredRule) :=
  .call hookOps (.getHookRule id)
def putHookRule (r : StoredRule) : HookProgram Unit := .call hookOps (.putHookRule r)
def deleteHookRule (id : String) : HookProgram Bool := .call hookOps (.deleteHookRule id)
def markHookRuleFired (id : String) (at' : GoTime) : HookProgram Bool :=
  .call hookOps (.markHookRuleFired id at')

/-- What a call comes to. -/
inductive HookResponse
  | fired
  | nothingToFire
  | notFound
  | invalidParameter (field : String)
  | saved (r : StoredRule)
  | deleted

/-- A successful delivery: some time after the rules were loaded, the worker that has delivered
for one of them reads the clock and records the firing.  A rule that is gone is only warned of. -/
def deliver (n : ℕ) : HookProgram HookResponse := do
  let rules ← listHookRules
  match rules[n]? with
  | none => return .nothingToFire
  | some rule =>
    let at' ← now
    let _ ← markHookRuleFired rule.ruleID at'
    return .fired

/-- `validateRule` and `PutHookRule`, as both handlers end. -/
def saveRule (rule : StoredRule) : HookProgram HookResponse :=
  match rule.validate with
  | .error err => return .invalidParameter err.field
  | .ok rule => do
    if ← accepts rule then
      putHookRule rule
      return .saved rule
    else return .invalidParameter "config"

/-- `handleCreateHookRule`. -/
def handleCreateHookRule (rule : StoredRule) : HookProgram HookResponse := do
  let id ← newRuleID
  let created ← now
  let updated ← now
  saveRule { rule with
    ruleID := id, createdAt := created, updatedAt := updated, fireCount := 0, lastFiredAt := none }

/-- `handleUpdateHookRule`. -/
def handleUpdateHookRule (id : String) (incoming : StoredRule) : HookProgram HookResponse := do
  match ← getHookRule id with
  | none => return .notFound
  | some existing =>
    let updated ← now
    saveRule { incoming with
      ruleID := existing.ruleID
      createdAt := existing.createdAt
      updatedAt := updated
      fireCount := existing.fireCount
      lastFiredAt := existing.lastFiredAt
      config := mergeSecrets existing.config incoming.config }

/-- `handleDeleteHookRule`. -/
def handleDeleteHookRule (id : String) : HookProgram HookResponse := do
  return if ← deleteHookRule id then .deleted else .notFound

/-- A call of a worker or of an administrator. -/
inductive HookCall
  | deliver (n : ℕ)
  | create (incoming : StoredRule)
  | update (id : String) (incoming : StoredRule)
  | delete (id : String)

def HookCall.program : HookCall → HookProgram HookResponse
  | deliver n => Hooks.deliver n
  | create incoming => handleCreateHookRule incoming
  | update id incoming => handleUpdateHookRule id incoming
  | delete id => handleDeleteHookRule id

/-! ## The component -/

/-- The store, and by which thread each rule's id was minted. -/
structure HookState (ι S : Type) where
  rules : S
  minted : GoMap String ι

/-- What is up to the environment: the time, the next id, and whether a rule is accepted. -/
structure HookEnv where
  now : GoTime := 0
  id : String := ""
  accepted : Bool := true

section component

variable {ι S : Type} (T : HookRuleStore S)

/-- What the operations do. -/
def hookEffect (i : ι) (e : HookEnv) (s : HookState ι S) :
    (op : HookOp) → hookOps.Ans op × HookState ι S
  | .now => (e.now, s)
  | .newRuleID => (e.id, { s with minted := s.minted.put e.id i })
  | .accepts _ => (e.accepted, s)
  | .listHookRules => (T.list s.rules, s)
  | .getHookRule id => (T.get s.rules id, s)
  | .putHookRule r => ((), { s with rules := T.put s.rules r })
  | .deleteHookRule id =>
    match T.delete s.rules id with
    | none => (false, s)
    | some rules => (true, { s with rules := rules })
  | .markHookRuleFired id at' =>
    match T.markFired s.rules id at' with
    | none => (false, s)
    | some rules => (true, { s with rules := rules })

/-- An id is minted once. -/
def HookOp.Ready (e : HookEnv) (s : HookState ι S) : HookOp → Prop
  | .newRuleID => s.minted.get e.id = none
  | _ => True

/-- The workers and the administrators, over an empty store. -/
def bookkeeping : Component ι HookCall hookOps HookResponse (HookState ι S) HookEnv where
  init s := s = ⟨T.empty, .empty⟩
  admits _ _ := True
  program := HookCall.program
  ready _ e s op := HookOp.Ready e s op
  effect := hookEffect T

end component

/-! ## What the history says about a rule -/

section history

variable {ι S : Type}

abbrev HookWorld (ι S : Type) := World ι HookCall hookOps HookResponse (HookState ι S)
abbrev HookMoment (ι S : Type) := Moment ι HookCall hookOps HookResponse (HookState ι S)

/-- The delivery of the rule that the event records. -/
def markedBy (id : String) (x : HookMoment ι S) : Option GoTime :=
  match x.what with
  | .did (.markHookRuleFired id' at') _ => if id' = id then some at' else none
  | _ => none

/-- The rule as the event writes it. -/
def writtenBy (id : String) (x : HookMoment ι S) : Option StoredRule :=
  match x.what with
  | .did (.putHookRule r) _ => if r.ruleID = id then some r else none
  | _ => none

/-- When the rule has fired, latest record first. -/
def firings (id : String) (h : List (HookMoment ι S)) : List GoTime := h.filterMap (markedBy id)

/-- The last write of the rule by an administrator. -/
def lastWrite (id : String) (h : List (HookMoment ι S)) : Option StoredRule :=
  h.findSome? (writtenBy id)

/-- The event is a read of the rule. -/
def readsRule (id : String) : What HookCall hookOps HookResponse → Bool
  | .did (.getHookRule id') _ => id' = id
  | _ => false

/-- A read records nothing. -/
theorem markedBy_of_reads {id : String} {x : HookMoment ι S} (h : readsRule id x.what) :
    markedBy id x = none := by
  unfold readsRule at h
  unfold markedBy
  split at h
  · simp [*]
  · cases h

/-- The books are right: a rule has fired as often as is recorded, its last firing is the latest,
and everything else is as an administrator wrote it last. -/
def Booked (T : HookRuleStore S) (w : HookWorld ι S) : Prop :=
  ∀ id r, T.get w.shared.rules id = some r →
    r.fireCount = (firings id w.history).length ∧ r.lastFiredAt = (firings id w.history).max? ∧
      ∃ r₀, lastWrite id w.history = some r₀ ∧ r.written = r₀.written

theorem firings_cons (id : String) (x : HookMoment ι S) (h : List (HookMoment ι S)) :
    firings id (x :: h) = (markedBy id x).toList ++ firings id h := by
  rw [firings, firings, List.filterMap_cons]
  cases markedBy id x <;> rfl

theorem lastWrite_cons (id : String) (x : HookMoment ι S) (h : List (HookMoment ι S)) :
    lastWrite id (x :: h) = (writtenBy id x).or (lastWrite id h) := by
  rw [lastWrite, lastWrite, List.findSome?_cons]
  cases writtenBy id x <;> rfl

variable [DecidableEq ι]

/-- The operation comes in time: no firing of the rule has been recorded since the thread read the
rule it writes, and no later firing has been recorded before the one it records. -/
def InTime (T : HookRuleStore S) (w : HookWorld ι S) (i : ι) : HookOp → Prop
  | .putHookRule r => firings r.ruleID (since i (readsRule r.ruleID) w.history) = []
  | .markHookRuleFired id at' =>
    (T.get w.shared.rules id).isSome → ∀ t ∈ firings id w.history, t ≤ at'
  | _ => True

/-- The turn comes in time. -/
def BooksInTime (T : HookRuleStore S)
    (s : Component.State ι HookCall hookOps HookResponse (HookState ι S)) :
    Turn ι HookCall HookEnv → Prop
  | .step i _ => ∀ x ∈ s.about i, InTime T s.world i x.2
  | _ => True

end history

/-! ## What every world satisfies -/

section sane

variable {ι S : Type} (T : HookRuleStore S)

/-- Whatever is stored has been written, whatever has been written has an id that was minted, and
what has not been written has not fired. -/
structure Sane (w : HookWorld ι S) : Prop where
  stored : ∀ id r, T.get w.shared.rules id = some r →
    ∃ r₀, lastWrite id w.history = some r₀ ∧ r.written = r₀.written
  minted : ∀ id r₀, lastWrite id w.history = some r₀ → ∃ i, w.shared.minted.get id = some i
  fired : ∀ id, lastWrite id w.history = none → firings id w.history = []

/-- What a thread relies on: ids stay minted, what is written stays so, and nobody else writes a
rule under an id that it has minted and not used. -/
structure Steady (i : ι) (w w' : HookWorld ι S) : Prop where
  minted : ∀ id j, w.shared.minted.get id = some j → w'.shared.minted.get id = some j
  written : ∀ id, (lastWrite id w.history).isSome → (lastWrite id w'.history).isSome
  fresh : ∀ id, w.shared.minted.get id = some i → lastWrite id w.history = none →
    lastWrite id w'.history = none

/-- The rule is new, under an id of the thread's own. -/
structure Fresh (i : ι) (w : HookWorld ι S) (r : StoredRule) : Prop where
  minted : w.shared.minted.get r.ruleID = some i
  unwritten : lastWrite r.ruleID w.history = none
  fireCount : r.fireCount = 0
  lastFiredAt : r.lastFiredAt = none

theorem Steady.refl (i : ι) (w : HookWorld ι S) : Steady i w w :=
  ⟨fun _ _ h ↦ h, fun _ h ↦ h, fun _ _ h ↦ h⟩

theorem Steady.trans {i : ι} {w w' w'' : HookWorld ι S} (h : Steady i w w')
    (h' : Steady i w' w'') : Steady i w w'' where
  minted id j hj := h'.minted id j (h.minted id j hj)
  written id hid := h'.written id (h.written id hid)
  fresh id hj hid := h'.fresh id (h.minted id i hj) (h.fresh id hj hid)

variable [DecidableEq ι]

/-- The rule has the firing history of the rule that the thread has read last. -/
def Copied (i : ι) (w : HookWorld ι S) (r : StoredRule) : Prop :=
  ∃ x older existing, upTo i (readsRule r.ruleID) w.history = x :: older ∧
    T.get x.pre.rules r.ruleID = some existing ∧ r.fireCount = existing.fireCount ∧
      r.lastFiredAt = existing.lastFiredAt

/-- What is written or marked is a rule that there has been, or a new one. -/
def Due (i : ι) (w : HookWorld ι S) : HookOp → Prop
  | .putHookRule r => Fresh i w r ∨ (lastWrite r.ruleID w.history).isSome ∧ Copied T i w r
  | .markHookRuleFired id _ => (lastWrite id w.history).isSome
  | _ => True

/-- The outline of the proofs. -/
def booksOutline : Outline ι HookCall hookOps HookResponse (HookState ι S) where
  inv := Sane T
  promise i _ w op := Due T i w op
  rely := Steady

theorem booksOutline_lawful : (booksOutline (ι := ι) T).Lawful where
  rely_refl := Steady.refl
  rely_trans _ _ _ _ := Steady.trans

variable {T}

section quiet

variable {x : HookMoment ι S} {h : List (HookMoment ι S)}

omit [DecidableEq ι] in
theorem firings_quiet (hx : ∀ id, markedBy id x = none) (id : String) :
    firings id (x :: h) = firings id h := by
  rw [firings_cons, hx, Option.toList_none, List.nil_append]

omit [DecidableEq ι] in
theorem lastWrite_quiet (hx : ∀ id, writtenBy id x = none) (id : String) :
    lastWrite id (x :: h) = lastWrite id h := by
  rw [lastWrite_cons, hx, Option.none_or]

end quiet

/-- An operation that neither writes nor marks a rule, and at most takes rules away. -/
theorem keeps_quiet {i : ι} {w : HookWorld ι S} {s : HookState ι S} (x : HookMoment ι S)
    (hw : Sane T w) (hmark : ∀ id, markedBy id x = none) (hwrite : ∀ id, writtenBy id x = none)
    (hminted : ∀ id j, w.shared.minted.get id = some j → s.minted.get id = some j)
    (hrules : ∀ id r, T.get s.rules id = some r → T.get w.shared.rules id = some r) :
    (booksOutline T).Keeps i w ⟨s, x :: w.history⟩ := by
  refine ⟨⟨?_, ?_, ?_⟩, fun j _ ↦ ⟨hminted, ?_, ?_⟩⟩ <;>
    simp only [firings_quiet hmark, lastWrite_quiet hwrite]
  · exact fun id r h ↦ hw.stored id r (hrules id r h)
  · intro id r₀ h
    obtain ⟨j, hj⟩ := hw.minted id r₀ h
    exact ⟨j, hminted id j hj⟩
  · exact hw.fired
  · exact fun _ h ↦ h
  · exact fun _ _ h ↦ h

omit [DecidableEq ι] in
theorem lastWrite_put {i : ι} {e : HookEnv} {w : HookWorld ι S} {r : StoredRule} (id : String) :
    lastWrite id ((bookkeeping T).act i e w (.putHookRule r)).history =
      if r.ruleID = id then some r else lastWrite id w.history := by
  by_cases hid : r.ruleID = id <;> simp [Component.act, lastWrite_cons, writtenBy, hid]

/-- Writing a rule that is due. -/
theorem keeps_put {i : ι} {e : HookEnv} {w : HookWorld ι S} {r : StoredRule} (hw : Sane T w)
    (hdue : Due T i w (.putHookRule r)) :
    (booksOutline T).Keeps i w ((bookkeeping T).act i e w (.putHookRule r)) := by
  have hlast (id : String) : lastWrite id ((bookkeeping T).act i e w (.putHookRule r)).history =
      if r.ruleID = id then some r else lastWrite id w.history := lastWrite_put id
  have hfirings (id : String) : firings id ((bookkeeping T).act i e w (.putHookRule r)).history =
      firings id w.history := firings_quiet (fun _ ↦ rfl) id
  refine ⟨⟨?_, ?_, ?_⟩, fun j hji ↦ ⟨fun _ _ h ↦ h, ?_, ?_⟩⟩ <;> simp only [hfirings, hlast]
  · intro id r' h
    change T.get (T.put w.shared.rules r) id = some r' at h
    rw [T.get_put] at h
    by_cases hid : r.ruleID = id
    · rw [if_pos hid.symm] at h
      rw [if_pos hid]
      exact ⟨r, rfl, by rw [Option.some.inj h]⟩
    · rw [if_neg (Ne.symm hid)] at h
      rw [if_neg hid]
      exact hw.stored id r' h
  · intro id r₀ h
    by_cases hid : r.ruleID = id
    · subst hid
      rcases hdue with hfresh | ⟨hwritten, -⟩
      · exact ⟨i, hfresh.minted⟩
      · obtain ⟨r₁, hr₁⟩ := Option.isSome_iff_exists.mp hwritten
        exact hw.minted r.ruleID r₁ hr₁
    · rw [if_neg hid] at h
      exact hw.minted id r₀ h
  · intro id h
    by_cases hid : r.ruleID = id
    · rw [if_pos hid] at h
      cases h
    · rw [if_neg hid] at h
      exact hw.fired id h
  · intro id h
    split
    · rfl
    · exact h
  · intro id hj h
    have hid : r.ruleID ≠ id := by
      rintro rfl
      rcases hdue with hfresh | ⟨hwritten, -⟩
      · exact hji (Option.some.inj (hj.symm.trans hfresh.minted))
      · rw [h] at hwritten
        cases hwritten
    rw [if_neg hid]
    exact h

/-- Recording a firing that is due. -/
theorem keeps_mark {i : ι} {e : HookEnv} {w : HookWorld ι S} {id : String} {at' : GoTime}
    (hw : Sane T w) (hdue : Due T i w (.markHookRuleFired id at')) :
    (booksOutline T).Keeps i w ((bookkeeping T).act i e w (.markHookRuleFired id at')) := by
  have hlast (j : String) : lastWrite j
      ((bookkeeping T).act i e w (.markHookRuleFired id at')).history = lastWrite j w.history :=
    lastWrite_quiet (fun _ ↦ rfl) j
  have hminted : ((bookkeeping T).act i e w (.markHookRuleFired id at')).shared.minted =
      w.shared.minted := by
    change (hookEffect T i e w.shared (.markHookRuleFired id at')).2.minted = _
    rw [hookEffect]
    split <;> rfl
  refine ⟨⟨?_, ?_, ?_⟩, fun j _ ↦ ⟨?_, ?_, ?_⟩⟩ <;> simp only [hlast, hminted]
  · intro j r h
    change T.get (hookEffect T i e w.shared (.markHookRuleFired id at')).2.rules j = some r at h
    rw [hookEffect] at h
    split at h
    · exact hw.stored j r h
    · rename_i rules hrules
      rw [T.get_markFired hrules] at h
      split at h
      · rename_i hj
        obtain ⟨r', hr', rfl⟩ := Option.map_eq_some_iff.mp h
        rw [hj]
        exact hw.stored id r' hr'
      · exact hw.stored j r h
  · exact hw.minted
  · intro j h
    have hj : id ≠ j := by
      rintro rfl
      rw [Due, h] at hdue
      cases hdue
    rw [Component.act, firings_cons, markedBy, hw.fired j h]
    simp [hj]
  · exact fun _ _ h ↦ h
  · exact fun _ h ↦ h
  · exact fun _ _ h ↦ h

omit [DecidableEq ι] in
/-- Deleting a rule leaves the others as they are. -/
theorem rules_delete (i : ι) (e : HookEnv) {s : HookState ι S} {id j : String} {r : StoredRule}
    (h : T.get (hookEffect T i e s (.deleteHookRule id)).2.rules j = some r) :
    T.get s.rules j = some r := by
  rw [hookEffect] at h
  split at h
  · exact h
  · rename_i rules hrules
    rw [T.get_delete hrules] at h
    split at h
    · cases h
    · exact h

/-- **Every operation that is due keeps the books in order.** -/
theorem keeps_act {i : ι} {e : HookEnv} {w : HookWorld ι S} {op : HookOp} (hw : Sane T w)
    (hready : op.Ready e w.shared) (hdue : Due T i w op) :
    (booksOutline T).Keeps i w ((bookkeeping T).act i e w op) := by
  have hsame (x : HookMoment ι S) (hmark : ∀ id, markedBy id x = none)
      (hwrite : ∀ id, writtenBy id x = none) :
      (booksOutline T).Keeps i w ⟨w.shared, x :: w.history⟩ :=
    keeps_quiet x hw hmark hwrite (fun _ _ h ↦ h) (fun _ _ h ↦ h)
  cases op with
  | now => exact hsame _ (fun _ ↦ rfl) (fun _ ↦ rfl)
  | accepts rule => exact hsame _ (fun _ ↦ rfl) (fun _ ↦ rfl)
  | listHookRules => exact hsame _ (fun _ ↦ rfl) (fun _ ↦ rfl)
  | getHookRule id => exact hsame _ (fun _ ↦ rfl) (fun _ ↦ rfl)
  | newRuleID =>
    refine keeps_quiet _ hw (fun _ ↦ rfl) (fun _ ↦ rfl) ?_ (fun _ _ h ↦ h)
    intro id j h
    have hid : id ≠ e.id := by
      rintro rfl
      rw [HookOp.Ready, h] at hready
      cases hready
    change (w.shared.minted.put e.id i).get id = some j
    rw [GoMap.get_put, if_neg hid]
    exact h
  | putHookRule r => exact keeps_put hw hdue
  | deleteHookRule id =>
    refine keeps_quiet _ hw (fun _ ↦ rfl) (fun _ ↦ rfl) ?_ fun j r h ↦ rules_delete i e h
    intro j k h
    change (hookEffect T i e w.shared (.deleteHookRule id)).2.minted.get j = some k
    rw [hookEffect]
    split <;> exact h
  | markHookRuleFired id at' => exact keeps_mark hw hdue

/-! ## The calls keep it -/

variable {i : ι} {w w' : HookWorld ι S} {r : StoredRule}

/-- What makes a rule due for writing does not depend on when it is written. -/
theorem Due.finds (h : Due T i w (.putHookRule r)) (hw : (booksOutline T).Finds i w w') :
    Due T i w' (.putHookRule r) := by
  obtain ⟨hmeanwhile, hsteady, -⟩ := hw
  rcases h with h | ⟨hwritten, h⟩
  · exact .inl ⟨hsteady.minted _ _ h.minted, hsteady.fresh _ h.minted h.unwritten, h.fireCount,
      h.lastFiredAt⟩
  · refine .inr ⟨hsteady.written _ hwritten, ?_⟩
    rw [Copied, hmeanwhile.upTo_eq]
    exact h

/-- Nor on what else the thread does meanwhile. -/
theorem Due.own {x : HookMoment ι S} (h : Due T i w (.putHookRule r))
    (hwrite : ∀ id, writtenBy id x = none) (hread : ∀ id, x.own i (readsRule id) = false) :
    Due T i ⟨w.shared, x :: w.history⟩ (.putHookRule r) := by
  rcases h with h | ⟨hwritten, h⟩
  · refine .inl ⟨h.minted, ?_, h.fireCount, h.lastFiredAt⟩
    rw [lastWrite_quiet hwrite]
    exact h.unwritten
  · refine .inr ⟨?_, ?_⟩
    · rw [lastWrite_quiet hwrite]
      exact hwritten
    · rw [Copied, upTo_cons_of_not (hread _)]
      exact h

/-- Nor on anything but its id and its firing history. -/
theorem Due.congr {r' : StoredRule} (h : Due T i w (.putHookRule r)) (hid : r'.ruleID = r.ruleID)
    (hcount : r'.fireCount = r.fireCount) (hlast : r'.lastFiredAt = r.lastFiredAt) :
    Due T i w (.putHookRule r') := by
  rcases h with h | ⟨hwritten, h⟩
  · exact .inl ⟨hid ▸ h.minted, hid ▸ h.unwritten, hcount.trans h.fireCount,
      hlast.trans h.lastFiredAt⟩
  · refine .inr ⟨hid ▸ hwritten, ?_⟩
    rw [Copied, hid, hcount, hlast]
    exact h

variable {k : HookCall}

theorem returns (result : HookResponse) (w : HookWorld ι S) :
    (booksOutline T).Returns i k result w :=
  fun _ h ↦ keeps_quiet _ h.2.2 (fun _ ↦ rfl) (fun _ ↦ rfl) (fun _ _ h ↦ h) (fun _ _ h ↦ h)

/-- Both handlers end well if what they save is due. -/
theorem holds_saveRule (h : Due T i w (.putHookRule r)) :
    (booksOutline T).Holds (bookkeeping T) i k (saveRule r) w := by
  unfold saveRule
  cases hr : r.validate with
  | error err => exact returns _ w
  | ok rule =>
    obtain ⟨cooldownS, rfl⟩ := StoredRule.validate_ok hr
    intro w₁ h₁ e₁ hready₁ _
    refine ⟨trivial, keeps_act h₁.2.2 hready₁ trivial, ?_⟩
    have hdue : Due T i ((bookkeeping T).act i e₁ w₁ (.accepts { r with cooldownS := cooldownS }))
        (.putHookRule { r with cooldownS := cooldownS }) :=
      (Due.own (h.finds h₁) (fun _ ↦ rfl) fun _ ↦ by simp [Moment.own, readsRule]).congr
        rfl rfl rfl
    change (booksOutline T).Holds (bookkeeping T) i k (if e₁.accepted then _ else _) _
    split
    · intro w₂ h₂ e₂ hready₂ _
      exact ⟨hdue.finds h₂, keeps_act h₂.2.2 hready₂ (hdue.finds h₂), returns _ _⟩
    · exact returns _ _

theorem holds_update (id : String) (incoming : StoredRule) (w : HookWorld ι S) :
    (booksOutline T).Holds (bookkeeping T) i k (handleUpdateHookRule id incoming) w := by
  intro w₁ h₁ e₁ hready₁ _
  refine ⟨trivial, keeps_act h₁.2.2 hready₁ trivial, ?_⟩
  change (booksOutline T).Holds (bookkeeping T) i k
    (match T.get w₁.shared.rules id with | none => _ | some existing => _) _
  cases hget : T.get w₁.shared.rules id with
  | none => exact returns _ _
  | some existing =>
    have hid : existing.ruleID = id := T.ruleID_of_get hget
    obtain ⟨r₀, hr₀, -⟩ := h₁.2.2.stored id existing hget
    have hcopied : Due T i ((bookkeeping T).act i e₁ w₁ (.getHookRule id))
        (.putHookRule existing) := by
      subst hid
      refine .inr ⟨?_, _, _, existing, upTo_cons_of_own ?_, hget, rfl, rfl⟩
      · rw [Component.act, lastWrite_quiet fun _ ↦ rfl, hr₀]
        rfl
      · simp [Moment.own, readsRule]
    intro w₂ h₂ e₂ hready₂ _
    refine ⟨trivial, keeps_act h₂.2.2 hready₂ trivial, ?_⟩
    -- what is left of the program is to be seen before it is matched with `saveRule`
    dsimp only [Program.bind]
    refine holds_saveRule ?_
    exact (Due.own (hcopied.finds h₂) (fun _ ↦ rfl) fun _ ↦ by simp [Moment.own, readsRule]).congr
      rfl rfl rfl

theorem holds_create (incoming : StoredRule) (w : HookWorld ι S) :
    (booksOutline T).Holds (bookkeeping T) i k (handleCreateHookRule incoming) w := by
  intro w₁ h₁ e₁ hready₁ _
  refine ⟨trivial, keeps_act h₁.2.2 hready₁ trivial, ?_⟩
  have hfresh : Due T i ((bookkeeping T).act i e₁ w₁ .newRuleID)
      (.putHookRule { incoming with ruleID := e₁.id, fireCount := 0, lastFiredAt := none }) := by
    refine .inl ⟨?_, ?_, rfl, rfl⟩
    · change (w₁.shared.minted.put e₁.id i).get e₁.id = some i
      rw [GoMap.get_put, if_pos rfl]
    · rw [Component.act, lastWrite_quiet fun _ ↦ rfl]
      -- the id is not minted, so it has not been written
      by_contra h
      obtain ⟨r₀, hr₀⟩ := Option.ne_none_iff_exists'.mp h
      obtain ⟨j, hj⟩ := h₁.2.2.minted _ _ hr₀
      exact absurd (hj.symm.trans hready₁) (by simp)
  intro w₂ h₂ e₂ hready₂ _
  refine ⟨trivial, keeps_act h₂.2.2 hready₂ trivial, ?_⟩
  intro w₃ h₃ e₃ hready₃ _
  refine ⟨trivial, keeps_act h₃.2.2 hready₃ trivial, ?_⟩
  dsimp only [Program.bind]
  refine holds_saveRule ?_
  have hdue₂ := Due.own (hfresh.finds h₂) (x := ⟨w₂.shared, i, .did .now e₂.now⟩) (fun _ ↦ rfl)
    fun _ ↦ by simp [Moment.own, readsRule]
  exact (Due.own (hdue₂.finds h₃) (fun _ ↦ rfl) fun _ ↦ by simp [Moment.own, readsRule]).congr
    rfl rfl rfl

theorem holds_delete (id : String) (w : HookWorld ι S) :
    (booksOutline T).Holds (bookkeeping T) i k (handleDeleteHookRule id) w := by
  intro w₁ h₁ e₁ hready₁ _
  exact ⟨trivial, keeps_act h₁.2.2 hready₁ trivial, returns _ _⟩

theorem holds_deliver (n : ℕ) (w : HookWorld ι S) :
    (booksOutline T).Holds (bookkeeping T) i k (deliver n) w := by
  intro w₁ h₁ e₁ hready₁ _
  refine ⟨trivial, keeps_act h₁.2.2 hready₁ trivial, ?_⟩
  change (booksOutline T).Holds (bookkeeping T) i k
    (match (T.list w₁.shared.rules)[n]? with | none => _ | some rule => _) _
  cases hrule : (T.list w₁.shared.rules)[n]? with
  | none => exact returns _ _
  | some rule =>
    obtain ⟨r₀, hr₀, -⟩ := h₁.2.2.stored _ _ ((T.mem_list _ _).mp (List.mem_of_getElem? hrule))
    have hwritten : (lastWrite rule.ruleID w₁.history).isSome := Option.isSome_of_eq_some hr₀
    intro w₂ h₂ e₂ hready₂ _
    refine ⟨trivial, keeps_act h₂.2.2 hready₂ trivial, ?_⟩
    intro w₃ h₃ e₃ hready₃ _
    have hdue : Due T i w₃ (.markHookRuleFired rule.ruleID e₂.now) :=
      h₃.2.1.written _ (by
        rw [Component.act, lastWrite_quiet fun _ ↦ rfl]
        exact h₂.2.1.written _ (by
          rw [Component.act, lastWrite_quiet fun _ ↦ rfl]
          exact hwritten))
    exact ⟨hdue, keeps_act h₃.2.2 hready₃ hdue, returns _ _⟩

theorem booksOutline_sound : (booksOutline T).Sound (bookkeeping (ι := ι) T) := by
  intro i k w _ hw
  refine ⟨keeps_quiet _ hw (fun _ ↦ rfl) (fun _ ↦ rfl) (fun _ _ h ↦ h) (fun _ _ h ↦ h), ?_⟩
  cases k with
  | deliver n => exact holds_deliver n _
  | create incoming => exact holds_create incoming _
  | update id incoming => exact holds_update id incoming _
  | delete id => exact holds_delete id _

/-- In every run, whatever a thread is about to write or mark is due. -/
theorem good_of_run {tr : Component.Trace ι HookCall hookOps HookResponse (HookState ι S) HookEnv}
    {s : Component.State ι HookCall hookOps HookResponse (HookState ι S)}
    (h : (bookkeeping T).machine.Run tr s) : (booksOutline T).Good (bookkeeping T) s := by
  refine Outline.sound (booksOutline_lawful T) booksOutline_sound ?_ h ?_
  · rintro t rfl
    exact ⟨fun id r h ↦ absurd h (by simp [T.get_empty]), fun id r₀ h ↦ absurd h (by simp [lastWrite]),
      fun id _ ↦ rfl⟩
  · intro x _
    cases x.act <;> simp [Outline.Assumed, booksOutline]

/-! ## When the books stay right -/

omit [DecidableEq ι] in
theorem booked_quiet {s : HookState ι S} {x : HookMoment ι S} (h : Booked T w)
    (hmark : ∀ id, markedBy id x = none) (hwrite : ∀ id, writtenBy id x = none)
    (hrules : ∀ id r, T.get s.rules id = some r → T.get w.shared.rules id = some r) :
    Booked T ⟨s, x :: w.history⟩ := by
  intro id r hr
  rw [firings_quiet hmark, lastWrite_quiet hwrite]
  exact h id r (hrules id r hr)

/-- **Recording a firing** keeps the books right unless a later one is recorded already. -/
theorem booked_mark_iff {e : HookEnv} {id : String} {at' : GoTime} (h : Booked T w) :
    Booked T ((bookkeeping T).act i e w (.markHookRuleFired id at')) ↔
      InTime T w i (.markHookRuleFired id at') := by
  have hlast (j : String) : lastWrite j
      ((bookkeeping T).act i e w (.markHookRuleFired id at')).history = lastWrite j w.history :=
    lastWrite_quiet (fun _ ↦ rfl) j
  have hfirings (j : String) : firings j
      ((bookkeeping T).act i e w (.markHookRuleFired id at')).history =
        if id = j then at' :: firings j w.history else firings j w.history := by
    by_cases hj : id = j <;> simp [Component.act, firings_cons, markedBy, hj]
  have hshared : ((bookkeeping T).act i e w (.markHookRuleFired id at')).shared =
      (hookEffect T i e w.shared (.markHookRuleFired id at')).2 := rfl
  unfold Booked
  simp only [hlast, hfirings, hshared, hookEffect]
  cases hmark : T.markFired w.shared.rules id at' with
  | none =>
    have hnone : T.get w.shared.rules id = none := (T.markFired_eq_none ..).mp hmark
    refine iff_of_true (fun j r hr ↦ ?_) (fun hsome ↦ absurd hsome (by simp [hnone]))
    have hj : id ≠ j := by
      rintro rfl
      exact absurd (hnone.symm.trans hr) (by simp)
    rw [if_neg hj]
    exact h j r hr
  | some rules =>
    have hget := T.get_markFired hmark
    have hsome : T.get w.shared.rules id ≠ none := by
      rw [Ne, ← T.markFired_eq_none _ _ at', hmark]
      simp
    obtain ⟨r₀, hr₀⟩ := Option.ne_none_iff_exists'.mp hsome
    constructor
    · intro hbooked _
      have hid := (hbooked id (r₀.fired at') (by rw [hget, if_pos rfl, hr₀]; rfl)).2.1
      rw [if_pos rfl] at hid
      exact fun t ht ↦ (List.max?_eq_some_iff.mp hid.symm).2 t (List.mem_cons_of_mem _ ht)
    · intro htime j r hr
      rw [hget] at hr
      by_cases hj : j = id
      · subst hj
        rw [if_pos rfl, hr₀] at hr
        cases hr
        obtain ⟨hcount, -, hwritten⟩ := h j r₀ hr₀
        rw [if_pos rfl]
        refine ⟨?_, ?_, hwritten⟩
        · change r₀.fireCount + 1 = _
          rw [hcount, List.length_cons, Nat.cast_add, Nat.cast_one]
        · refine (List.max?_eq_some_iff.mpr ⟨List.mem_cons_self, ?_⟩).symm
          exact List.forall_mem_cons.mpr ⟨le_rfl, htime (Option.isSome_of_eq_some hr₀)⟩
      · rw [if_neg hj] at hr
        rw [if_neg (Ne.symm hj)]
        exact h j r hr

/-- **Writing a rule** keeps the books right unless it has fired since it was read. -/
theorem booked_put_iff {e : HookEnv} (h : Booked T w) (hw : Sane T w)
    (hdue : Due T i w (.putHookRule r)) (hpast : ∀ v, w.Past v → Booked T v) :
    Booked T ((bookkeeping T).act i e w (.putHookRule r)) ↔ InTime T w i (.putHookRule r) := by
  have hsplit : firings r.ruleID w.history =
      firings r.ruleID (since i (readsRule r.ruleID) w.history) ++
        firings r.ruleID (upTo i (readsRule r.ruleID) w.history) := by
    rw [firings, firings, firings, ← List.filterMap_append, since_append_upTo]
  have hafter : Booked T ((bookkeeping T).act i e w (.putHookRule r)) ↔
      r.fireCount = (firings r.ruleID w.history).length ∧
        r.lastFiredAt = (firings r.ruleID w.history).max? := by
    have hlast (id : String) : lastWrite id ((bookkeeping T).act i e w (.putHookRule r)).history =
        if r.ruleID = id then some r else lastWrite id w.history := lastWrite_put id
    have hshared : ((bookkeeping T).act i e w (.putHookRule r)).shared.rules =
        T.put w.shared.rules r := rfl
    have hfirings (id : String) : firings id ((bookkeeping T).act i e w (.putHookRule r)).history =
        firings id w.history := firings_quiet (fun _ ↦ rfl) id
    unfold Booked
    simp only [hlast, hfirings, hshared, T.get_put]
    constructor
    · intro hbooked
      obtain ⟨hcount, hlatest, -⟩ := hbooked r.ruleID r (if_pos rfl)
      exact ⟨hcount, hlatest⟩
    · rintro ⟨hcount, hlatest⟩ id r' hr'
      by_cases hid : id = r.ruleID
      · subst hid
        rw [if_pos rfl] at hr' ⊢
        cases hr'
        exact ⟨hcount, hlatest, r, rfl, rfl⟩
      · rw [if_neg hid] at hr'
        rw [if_neg (Ne.symm hid)]
        exact h id r' hr'
  rw [hafter, InTime]
  rcases hdue with hfresh | ⟨-, x, older, existing, hupTo, hget, hcount, hlast⟩
  · have hnone := hw.fired _ hfresh.unwritten
    rw [hnone] at hsplit ⊢
    exact iff_of_true ⟨hfresh.fireCount, hfresh.lastFiredAt⟩
      (List.append_eq_nil_iff.mp hsplit.symm).1
  · have hx : markedBy r.ruleID x = none := markedBy_of_reads (own_of_upTo hupTo).2
    have hthen : r.fireCount = (firings r.ruleID older).length ∧
        r.lastFiredAt = (firings r.ruleID older).max? := by
      obtain ⟨hthen, hthen', -⟩ := hpast ⟨x.pre, older⟩
        ⟨since i (readsRule r.ruleID) w.history, x, by rw [← hupTo, since_append_upTo], rfl⟩ _ _ hget
      exact ⟨hcount.trans hthen, hlast.trans hthen'⟩
    rw [hupTo, firings_cons, hx, Option.toList_none, List.nil_append] at hsplit
    rw [hsplit, List.length_append, hthen.1]
    constructor
    · rintro ⟨hlen, -⟩
      exact List.length_eq_zero_iff.mp (by omega)
    · intro hnil
      rw [hnil, List.nil_append]
      exact ⟨by simp, hthen.2⟩

/-- **The firing history of every rule is right in every state of a run exactly if no firing is
recorded between the read and the write of an edit, or after a later one.** -/
theorem booked_iff (T : HookRuleStore S)
    {tr : Component.Trace ι HookCall hookOps HookResponse (HookState ι S) HookEnv}
    {s : Component.State ι HookCall hookOps HookResponse (HookState ι S)}
    (h : (bookkeeping T).machine.Run tr s) :
    Machine.Always (fun _ x ↦ Booked T x.post.world) tr ↔
      Machine.Always (fun _ x ↦ BooksInTime T x.pre x.act) tr := by
  refine h.always_iff_past (I := fun s ↦ Booked T s.world)
    (C := fun _ s a ↦ BooksInTime T s a) ?_ ?_
  · rintro s ⟨t, rfl, rfl⟩ id r hr
    exact absurd hr (by simp [Component.State.fresh, T.get_empty])
  · intro tr s a s' hrun hbooked hall hn
    have hgood := good_of_run hrun
    have hpast (v) (hv : s.world.Past v) : Booked T v := by
      obtain ⟨x, hx, rfl⟩ := Component.past_of_run hrun hv
      exact hall x hx
    have hquiet {t : HookState ι S} (x : HookMoment ι S) (hmark : ∀ id, markedBy id x = none)
        (hwrite : ∀ id, writtenBy id x = none)
        (hrules : ∀ id r, T.get t.rules id = some r → T.get s.world.shared.rules id = some r) :
        Booked T ⟨t, x :: s.world.history⟩ ↔ True :=
      iff_of_true (booked_quiet hbooked hmark hwrite hrules) trivial
    cases Component.taken_of_next hn with
    | nothing ha =>
      refine iff_of_true hbooked ?_
      cases a with
      | step i e => simp [BooksInTime, ha i e rfl]
      | start i k => trivial
      | finish i => trivial
    | start hi hk => exact hquiet _ (fun _ ↦ rfl) (fun _ ↦ rfl) fun _ _ h ↦ h
    | finish hi => exact hquiet _ (fun _ ↦ rfl) (fun _ ↦ rfl) fun _ _ h ↦ h
    | @step i k e op next hi hready =>
      have habout := Component.State.about_of_thread hi
      have hdue : Due T i s.world op := hgood.promise (booksOutline_lawful T) hi hready trivial
      have htime : BooksInTime T s (.step i e) ↔ InTime T s.world i op := by
        simp [BooksInTime, habout]
      rw [htime]
      cases op with
      | putHookRule r => exact booked_put_iff hbooked hgood.inv hdue hpast
      | markHookRuleFired id at' => exact booked_mark_iff hbooked
      | deleteHookRule id =>
        refine hquiet _ (fun _ ↦ rfl) (fun _ ↦ rfl) fun j r h ↦ ?_
        exact rules_delete i e h
      | now => exact hquiet _ (fun _ ↦ rfl) (fun _ ↦ rfl) fun _ _ h ↦ h
      | accepts rule => exact hquiet _ (fun _ ↦ rfl) (fun _ ↦ rfl) fun _ _ h ↦ h
      | listHookRules => exact hquiet _ (fun _ ↦ rfl) (fun _ ↦ rfl) fun _ _ h ↦ h
      | getHookRule id => exact hquiet _ (fun _ ↦ rfl) (fun _ ↦ rfl) fun _ _ h ↦ h
      | newRuleID => exact hquiet _ (fun _ ↦ rfl) (fun _ ↦ rfl) fun _ _ h ↦ h

end sane

/-! ## Two runs -/

section decidable

variable {ι S : Type} (T : HookRuleStore S)

instance (e : HookEnv) (s : HookState ι S) : (op : HookOp) → Decidable (op.Ready e s)
  | .newRuleID => inferInstanceAs (Decidable (_ = none))
  | .now | .accepts _ | .listHookRules | .getHookRule _ | .putHookRule _ | .deleteHookRule _
  | .markHookRuleFired _ _ => .isTrue trivial

instance (i : ι) (e : HookEnv) (s : HookState ι S) (op : HookOp) :
    Decidable ((bookkeeping T).ready i e s op) := inferInstanceAs (Decidable (op.Ready e s))

instance (i : ι) (k : HookCall) : Decidable ((bookkeeping T).admits i k) := .isTrue trivial

variable [DecidableEq ι]

instance (w : HookWorld ι S) (i : ι) : (op : HookOp) → Decidable (InTime T w i op)
  | .putHookRule _ => inferInstanceAs (Decidable (_ = _))
  | .markHookRuleFired _ _ => inferInstanceAs (Decidable (_ → _))
  | .now | .newRuleID | .accepts _ | .listHookRules | .getHookRule _ | .deleteHookRule _ =>
    .isTrue trivial

instance (s : Component.State ι HookCall hookOps HookResponse (HookState ι S)) :
    (a : Turn ι HookCall HookEnv) → Decidable (BooksInTime T s a)
  | .step _ _ => inferInstanceAs (Decidable (∀ _ ∈ _, _))
  | .start _ _ | .finish _ => .isTrue trivial

end decidable

section runs

variable {S : Type} (T : HookRuleStore S)

/-- A rule as an administrator sends it. -/
def sent (name : String) : StoredRule where
  ruleID := ""
  name := name
  event := eventTrackConfirmed
  cooldownS := 0
  action := actionNtfy
  createdAt := 0
  updatedAt := 0

/-- The administrator, thread 0, creates the rule. -/
def created : List (Turn (Fin 3) HookCall HookEnv) :=
  [.start 0 (.create (sent "drones")), .step 0 { id := "r1" }, .step 0 {}, .step 0 {}, .step 0 {},
    .step 0 {}, .finish 0]

/-- The administrator renames it, while a worker delivers for it and records that in between. -/
def renamedWhileFiring : List (Turn (Fin 3) HookCall HookEnv) :=
  created ++ ([.start 1 (.deliver 0), .step 1 {}, .step 1 { now := 10 },
    .start 0 (.update "r1" (sent "all drones")), .step 0 {}, .step 1 {}, .step 0 {}, .step 0 {},
    .step 0 {}] : List (Turn (Fin 3) HookCall HookEnv))

/-- Two workers deliver for it, and the one that reads the clock first records it last. -/
def firedTwice : List (Turn (Fin 3) HookCall HookEnv) :=
  created ++ ([.start 1 (.deliver 0), .start 2 (.deliver 0), .step 1 {}, .step 2 {},
    .step 1 { now := 10 }, .step 2 { now := 11 }, .step 2 {}, .step 1 {}]
    : List (Turn (Fin 3) HookCall HookEnv))

/-- The component after these turns. -/
def after (as : List (Turn (Fin 3) HookCall HookEnv)) :
    Component.State (Fin 3) HookCall hookOps HookResponse (HookState (Fin 3) S) :=
  Machine.replay (bookkeeping T).take (.fresh ⟨T.empty, .empty⟩) as

/-- What the store has of the rule after these turns, and what there is to be recorded. -/
def books (as : List (Turn (Fin 3) HookCall HookEnv)) : Option (ℤ × Option GoTime) × List GoTime :=
  ((T.get (after T as).world.shared.rules "r1").map fun r ↦ (r.fireCount, r.lastFiredAt),
    firings "r1" (after T as).world.history)

variable {T}

theorem not_booked {as : List (Turn (Fin 3) HookCall HookEnv)} (count : ℤ) (last : Option GoTime)
    (fired : List GoTime) (h : books T as = (some (count, last), fired))
    (hwrong : count ≠ fired.length ∨ last ≠ fired.max?) : ¬ Booked T (after T as).world := by
  intro hbooked
  obtain ⟨hget, hfired⟩ := Prod.mk.inj h
  obtain ⟨r, hr, hpair⟩ := Option.map_eq_some_iff.mp hget
  obtain ⟨rfl, rfl⟩ := Prod.mk.inj hpair
  obtain ⟨hcount, hlast, -⟩ := hbooked "r1" r hr
  rw [hfired] at hcount hlast
  exact hwrong.elim (fun h ↦ h hcount) (fun h ↦ h hlast)

/-- A firing recorded between the read and the write of an edit is lost, and two firings can be
recorded in the wrong order: in memory and in the database. -/
theorem firings_lost :
    (∃ tr s, (bookkeeping (ι := Fin 3) memHookRules).machine.Run tr s ∧
      (memHookRules.get s.world.shared.rules "r1").map (·.fireCount) = some 0 ∧
      firings "r1" s.world.history = [10] ∧ ¬ Booked memHookRules s.world) ∧
    (∃ tr s, (bookkeeping (ι := Fin 3) sqlHookRules).machine.Run tr s ∧
      (sqlHookRules.get s.world.shared.rules "r1").map (·.fireCount) = some 0 ∧
      firings "r1" s.world.history = [10] ∧ ¬ Booked sqlHookRules s.world) ∧
    (∃ tr s, (bookkeeping (ι := Fin 3) memHookRules).machine.Run tr s ∧
      (memHookRules.get s.world.shared.rules "r1").map (·.lastFiredAt) = some (some 10) ∧
      firings "r1" s.world.history = [10, 11] ∧ ¬ Booked memHookRules s.world) ∧
    (∃ tr s, (bookkeeping (ι := Fin 3) sqlHookRules).machine.Run tr s ∧
      (sqlHookRules.get s.world.shared.rules "r1").map (·.lastFiredAt) = some (some 10) ∧
      firings "r1" s.world.history = [10, 11] ∧ ¬ Booked sqlHookRules s.world) := by
  refine ⟨⟨_, _, Component.run_replay _ renamedWhileFiring rfl (by decide), ?_, ?_, ?_⟩,
    ⟨_, _, Component.run_replay _ renamedWhileFiring rfl (by decide), ?_, ?_, ?_⟩,
    ⟨_, _, Component.run_replay _ firedTwice rfl (by decide), ?_, ?_, ?_⟩,
    ⟨_, _, Component.run_replay _ firedTwice rfl (by decide), ?_, ?_, ?_⟩⟩
  · decide
  · decide
  · exact not_booked 0 none [10] (by decide) (by decide)
  · decide
  · decide
  · exact not_booked 0 none [10] (by decide) (by decide)
  · decide
  · decide
  · exact not_booked 2 (some 10) [10, 11] (by decide) (by decide)
  · decide
  · decide
  · exact not_booked 2 (some 10) [10, 11] (by decide) (by decide)

/-- Two firings recorded in order, and an edit after them. -/
def renamedAfterFiring : List (Turn (Fin 3) HookCall HookEnv) :=
  created ++ ([.start 1 (.deliver 0), .start 2 (.deliver 0), .step 1 {}, .step 2 {},
    .step 1 { now := 10 }, .step 2 { now := 11 }, .step 1 {}, .step 2 {},
    .start 0 (.update "r1" (sent "all drones")), .step 0 {}, .step 0 {}, .step 0 {}, .step 0 {}]
    : List (Turn (Fin 3) HookCall HookEnv))

theorem renamedAfterFiring_booked :
    Machine.Always (fun _ x ↦ Booked memHookRules x.post.world)
      (Machine.replaySteps (bookkeeping memHookRules).take
        (.fresh ⟨memHookRules.empty, .empty⟩) renamedAfterFiring []) ∧
    Machine.Always (fun _ x ↦ Booked sqlHookRules x.post.world)
      (Machine.replaySteps (bookkeeping sqlHookRules).take
        (.fresh ⟨sqlHookRules.empty, .empty⟩) renamedAfterFiring []) :=
  ⟨(booked_iff memHookRules (Component.run_replay _ _ rfl (by decide))).mpr (by decide),
    (booked_iff sqlHookRules (Component.run_replay _ _ rfl (by decide))).mpr (by decide)⟩

end runs

end ClassG.Hooks
