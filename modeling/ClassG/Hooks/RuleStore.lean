import ClassG.ForGo.Timestamp
import ClassG.Hooks.Rule
import Mathlib.Data.List.Sort

/-!
# Where hook rules are kept

The rule as it is stored, with its configuration and its firing history; `Validate` and
`mergeSecrets`, which a rule goes through before it is stored; and the two stores,
`store/memstore/memstore_hooks.go` and the `hook_rules` table of `store/libsqlstore`.

What the rest of the development needs of a store is `HookRuleStore`: how each operation changes
what `GetHookRule` returns.  Both stores are instances.
-/

set_option autoImplicit false

namespace ClassG.Hooks

/-! ## Stored rules -/

/-- A JSON value in an action's configuration: a string, or anything else as its text. -/
inductive ConfigValue
  | text (s : String)
  | other (json : String)
  deriving DecidableEq, Repr

/-- A rule with its configuration and its history. -/
structure StoredRule extends Rule where
  /-- `nil` if there is none. -/
  config : Option (GoMap String ConfigValue) := none
  createdAt : GoTime
  updatedAt : GoTime
  lastFiredAt : Option GoTime := none
  fireCount : ℤ := 0

namespace StoredRule

/-- What `MarkHookRuleFired` makes of a rule. -/
def fired (r : StoredRule) (at' : GoTime) : StoredRule :=
  { r with fireCount := r.fireCount + 1, lastFiredAt := some at' }

/-- The rule without its firing history: what an administrator writes. -/
def written (r : StoredRule) : StoredRule := { r with fireCount := 0, lastFiredAt := none }

@[simp] theorem written_fired (r : StoredRule) (at' : GoTime) :
    (r.fired at').written = r.written := rfl

@[simp] theorem fired_ruleID (r : StoredRule) (at' : GoTime) :
    (r.fired at').ruleID = r.ruleID := rfl

end StoredRule

/-! ## What a rule goes through before it is stored -/

/-- What the API shows in place of a secret. -/
def placeholder : String := "••••••••"

/-- `mergeSecrets`: the placeholder stands for the secret there was, if there was one. -/
def mergeSecrets (old incoming : Option (GoMap String ConfigValue)) :
    Option (GoMap String ConfigValue) :=
  match incoming with
  | none => old
  | some incoming => some <| incoming.keys.foldl (fun out k ↦
      match incoming.get k with
      | none => out
      | some v =>
        if v = .text placeholder then
          match old.bind (·.get k) with
          | some prev => out.put k prev
          | none => out
        else out.put k v) .empty

def eventDetection : String := "detection.created"
def eventTrackConfirmed : String := "track.confirmed"
def eventTrackClosed : String := "track.closed"
def eventSensorUnhealthy : String := "sensor.unhealthy"
def eventSensorRecovered : String := "sensor.recovered"
def eventCaptureDone : String := "capture.completed"
def eventSweepDone : String := "sweep.completed"

/-- `Events`. -/
def events : List String := [eventTrackConfirmed, eventTrackClosed, eventDetection,
  eventSensorUnhealthy, eventSensorRecovered, eventCaptureDone, eventSweepDone]

/-- `EventsWithPosition`. -/
def eventsWithPosition : List String := [eventTrackConfirmed, eventTrackClosed]

/-- `Actions`. -/
def actions : List String := [actionWebhook, actionEmail, actionNtfy]

/-- `DefaultCooldownS`. -/
def defaultCooldownS : ℤ := 300

/-- Why `Validate` refuses a rule. -/
inductive RuleError
  | noName
  | unknownEvent (event : String)
  | unknownAction (action : String)
  | minConfidence
  | negativeCooldown
  | notAClass (detectionClass : String)
  | noPosition (event : String)
  deriving DecidableEq, Repr

/-- The parameter that `validateRule` names in its answer. -/
def RuleError.field : RuleError → String
  | unknownAction _ => "action"
  | _ => "event"

/-- `len(c) == 1 && 'A' <= c[0] && c[0] <= 'H'`. -/
def isClass (c : String) : Bool := c ∈ ["A", "B", "C", "D", "E", "F", "G", "H"]

/-- `Validate`, with the rule as it leaves it. -/
def StoredRule.validate (r : StoredRule) : Except RuleError StoredRule :=
  if GoString.trimSpace r.name = "" then .error .noName
  else if r.event ∉ events then .error (.unknownEvent r.event)
  else if r.action ∉ actions then .error (.unknownAction r.action)
  else if r.minConfidence < 0 ∨ r.minConfidence > 1 then .error .minConfidence
  else if r.cooldownS < 0 then .error .negativeCooldown
  else
    match r.classes.find? fun c ↦ !isClass c with
    | some c => .error (.notAClass c)
    | none =>
      if r.boundaryID ≠ "" ∧ r.event ∉ eventsWithPosition then .error (.noPosition r.event)
      -- a cooldown of zero is the default, not none
      else .ok { r with cooldownS := if r.cooldownS = 0 then defaultCooldownS else r.cooldownS }

/-- `Validate` changes nothing but the cooldown. -/
theorem StoredRule.validate_ok {r r' : StoredRule} (h : r.validate = .ok r') :
    ∃ cooldownS, r' = { r with cooldownS := cooldownS } := by
  rw [StoredRule.validate] at h
  repeat' split at h
  all_goals first | exact ⟨_, (Except.ok.inj h).symm⟩ | exact absurd h (by simp)

/-! ## Stores -/

/-- A store of hook rules, as `GetHookRule` shows it.  `MarkHookRuleFired` and `DeleteHookRule`
return `none` for `ErrNotFound`. -/
structure HookRuleStore (S : Type) where
  empty : S
  get : S → String → Option StoredRule
  list : S → List StoredRule
  put : S → StoredRule → S
  markFired : S → String → GoTime → Option S
  delete : S → String → Option S
  get_empty (id : String) : get empty id = none
  ruleID_of_get {s : S} {id : String} {r : StoredRule} : get s id = some r → r.ruleID = id
  mem_list (s : S) (r : StoredRule) : r ∈ list s ↔ get s r.ruleID = some r
  get_put (s : S) (r : StoredRule) (id : String) :
    get (put s r) id = if id = r.ruleID then some r else get s id
  markFired_eq_none (s : S) (id : String) (at' : GoTime) :
    markFired s id at' = none ↔ get s id = none
  get_markFired {s s' : S} {id : String} {at' : GoTime} (h : markFired s id at' = some s')
    (j : String) : get s' j = if j = id then (get s id).map (·.fired at') else get s j
  delete_eq_none (s : S) (id : String) : delete s id = none ↔ get s id = none
  get_delete {s s' : S} {id : String} (h : delete s id = some s') (j : String) :
    get s' j = if j = id then none else get s j

/-! ### In memory -/

/-- The rules of `memstore.Store`, and the order they were created in. -/
structure MemHookRules where
  hookRules : GoMap String StoredRule
  hookOrder : List String
  keyed : ∀ id r, hookRules.get id = some r → r.ruleID = id
  ordered : ∀ id, id ∈ hookOrder ↔ (hookRules.get id).isSome
  nodup : hookOrder.Nodup

namespace MemHookRules

variable (s : MemHookRules)

/-- `m[id] = r` keeps every rule under its id. -/
theorem keyed_put (r : StoredRule) : ∀ id r', (s.hookRules.put r.ruleID r).get id = some r' →
    r'.ruleID = id := by
  intro id r' h
  rw [GoMap.get_put] at h
  split at h
  · rename_i hid
    rw [← Option.some.inj h, hid]
  · exact s.keyed id r' h

/-- `PutHookRule`. -/
def put (r : StoredRule) : MemHookRules where
  hookRules := s.hookRules.put r.ruleID r
  hookOrder :=
    if (s.hookRules.get r.ruleID).isSome then s.hookOrder else s.hookOrder ++ [r.ruleID]
  keyed := s.keyed_put r
  ordered id := by
    have hid := s.ordered id
    have hr := s.ordered r.ruleID
    rw [GoMap.get_put]
    by_cases h : id = r.ruleID
    · subst h
      split <;> simp_all
    · split <;> simp_all
  nodup := by
    have hr := s.ordered r.ruleID
    split
    · exact s.nodup
    · rename_i hnew
      exact List.nodup_append.mpr ⟨s.nodup, by simp, by
        intro a ha b hb hab
        rw [List.mem_singleton] at hb
        subst hab hb
        exact hnew (hr.mp ha)⟩

/-- `MarkHookRuleFired`. -/
def markFired (id : String) (at' : GoTime) : Option MemHookRules :=
  match h : s.hookRules.get id with
  | none => none
  | some r => some {
      hookRules := s.hookRules.put id (r.fired at')
      hookOrder := s.hookOrder
      keyed := by
        have hid : (r.fired at').ruleID = id := s.keyed id r h
        have hput := s.keyed_put (r.fired at')
        rwa [hid] at hput
      ordered := by
        intro j
        rw [s.ordered, GoMap.get_put]
        by_cases hj : j = id <;> simp [hj, h]
      nodup := s.nodup }

/-- `DeleteHookRule`. -/
def delete (id : String) : Option MemHookRules :=
  if (s.hookRules.get id).isNone then none
  else some {
      hookRules := s.hookRules.delete id
      hookOrder := s.hookOrder.erase id
      keyed := by
        intro j r h
        rw [GoMap.get_delete] at h
        split at h
        · cases h
        · exact s.keyed j r h
      ordered := by
        intro j
        rw [s.nodup.mem_erase_iff, s.ordered, GoMap.get_delete]
        by_cases hj : j = id <;> simp [hj]
      nodup := s.nodup.erase id }

end MemHookRules

/-- The in-memory store. -/
def memHookRules : HookRuleStore MemHookRules where
  empty := ⟨.empty, [], by simp, by simp, List.nodup_nil⟩
  get s id := s.hookRules.get id
  list s := s.hookOrder.filterMap s.hookRules.get
  put := .put
  markFired s := s.markFired
  delete s := s.delete
  get_empty := GoMap.get_empty
  ruleID_of_get {s id r} := s.keyed id r
  mem_list s r := by
    rw [List.mem_filterMap]
    constructor
    · rintro ⟨id, -, h⟩
      rwa [s.keyed id r h]
    · intro h
      exact ⟨r.ruleID, (s.ordered _).mpr (Option.isSome_of_eq_some h), h⟩
  get_put s r id := GoMap.get_put ..
  markFired_eq_none s id at' := by
    unfold MemHookRules.markFired
    split <;> simp_all
  get_markFired {s s' id at'} h j := by
    unfold MemHookRules.markFired at h
    split at h
    · cases h
    · rename_i r hr
      cases h
      rw [GoMap.get_put, hr, Option.map_some]
  delete_eq_none s id := by simp [MemHookRules.delete]
  get_delete {s s' id} h j := by
    unfold MemHookRules.delete at h
    split at h
    · cases h
    · cases h
      exact GoMap.get_delete ..

/-! ### In the database -/

/-- A row of `hook_rules`: the document, and the column the list is ordered by.  The other columns
repeat fields of the document and are not read. -/
structure HookRuleRow where
  doc : StoredRule
  createdAt : GoBytes

/-- The table `hook_rules`, by its primary key. -/
structure SqlHookRules where
  rows : GoMap String HookRuleRow
  keyed : ∀ id row, rows.get id = some row → row.doc.ruleID = id

namespace SqlHookRules

variable (s : SqlHookRules)

/-- Writing a row keeps every document under its id. -/
theorem keyed_put (row : HookRuleRow) : ∀ id row', (s.rows.put row.doc.ruleID row).get id =
    some row' → row'.doc.ruleID = id := by
  intro id row' h
  rw [GoMap.get_put] at h
  split at h
  · rename_i hid
    rw [← Option.some.inj h, hid]
  · exact s.keyed id row' h

/-- `PutHookRule`: on a conflict the row keeps its `created_at`. -/
def put (r : StoredRule) : SqlHookRules where
  rows := s.rows.put r.ruleID
    ⟨r, ((s.rows.get r.ruleID).map (·.createdAt)).getD (GoTime.formatFixed r.createdAt)⟩
  keyed := s.keyed_put ⟨r, _⟩

/-- `MarkHookRuleFired`: the row the update finds gets the two fields of its document set. -/
def markFired (id : String) (at' : GoTime) : Option SqlHookRules :=
  match h : s.rows.get id with
  | none => none
  | some row => some {
      rows := s.rows.put id { row with doc := row.doc.fired at' }
      keyed := by
        have hid : (row.doc.fired at').ruleID = id := s.keyed id row h
        have hput := s.keyed_put { row with doc := row.doc.fired at' }
        rwa [hid] at hput }

/-- `DeleteHookRule`. -/
def delete (id : String) : Option SqlHookRules :=
  if (s.rows.get id).isNone then none
  else some {
      rows := s.rows.delete id
      keyed := by
        intro j row h
        rw [GoMap.get_delete] at h
        split at h
        · cases h
        · exact s.keyed j row h }

end SqlHookRules

/-- The libSQL store. -/
def sqlHookRules : HookRuleStore SqlHookRules where
  empty := ⟨.empty, by simp⟩
  get s id := (s.rows.get id).map (·.doc)
  list s := (s.rows.values.insertionSort fun a b ↦ a.createdAt ≤ b.createdAt).map (·.doc)
  put := .put
  markFired s := s.markFired
  delete s := s.delete
  get_empty id := by simp
  ruleID_of_get {s id r} h := by
    obtain ⟨row, hrow, rfl⟩ := Option.map_eq_some_iff.mp h
    exact s.keyed id row hrow
  mem_list s r := by
    rw [List.mem_map]
    constructor
    · rintro ⟨row, hrow, rfl⟩
      obtain ⟨id, hid⟩ := GoMap.mem_values.mp ((List.mem_insertionSort _).mp hrow)
      rw [s.keyed id row hid, hid, Option.map_some]
    · intro h
      obtain ⟨row, hrow, rfl⟩ := Option.map_eq_some_iff.mp h
      exact ⟨row, (List.mem_insertionSort _).mpr (GoMap.mem_values.mpr ⟨_, hrow⟩), rfl⟩
  get_put s r id := by
    rw [SqlHookRules.put, GoMap.get_put]
    split <;> rfl
  markFired_eq_none s id at' := by
    unfold SqlHookRules.markFired
    split <;> simp_all
  get_markFired {s s' id at'} h j := by
    unfold SqlHookRules.markFired at h
    split at h
    · cases h
    · rename_i row hrow
      cases h
      rw [GoMap.get_put, hrow]
      split <;> rfl
  delete_eq_none s id := by simp [SqlHookRules.delete]
  get_delete {s s' id} h j := by
    unfold SqlHookRules.delete at h
    split at h
    · cases h
    · cases h
      rw [GoMap.get_delete]
      split <;> rfl

end ClassG.Hooks
