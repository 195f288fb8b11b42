import ClassG.Health.Registry

/-!
# The verdict on the sensors

What `Snapshot` says is compared with the history of the messages.  A history is a list of updates,
newest first; what was last heard of a sensor, what kind it is and how it was declared are read off
the history alone, and `Ledger` says that the entry of the sensor holds just that.
-/

set_option autoImplicit false

namespace ClassG.Health

/-- A message to the registry. -/
inductive Update
  | expect (sensorID kind : String) (optional : Bool)
  | restore (sensorID kind : String) (last : GoTime) (reason : String)
  | heartbeat (hb : Heartbeat)
  | setFusionState (configured connected : Bool) (reason : String)
  | noteFusionMessage (at' : GoTime)

/-- One message. -/
def Registry.apply (r : Registry) : Update → Registry
  | .expect sensorID kind optional => r.expect sensorID kind optional
  | .restore sensorID kind last reason => r.restore sensorID kind last reason
  | .heartbeat hb => r.heartbeat hb
  | .setFusionState configured connected reason => r.setFusionState configured connected reason
  | .noteFusionMessage at' => r.noteFusionMessage at'

/-- The registry after a history, which is newest first. -/
def Registry.after (staleAfter : GoDuration) : List Update → Registry
  | [] => { staleAfter }
  | u :: h => (Registry.after staleAfter h).apply u

/-! ## Reading the history -/

/-- A heartbeat of a sensor.  One without an identifier is no sensor's. -/
def Update.heartbeatOf (id : String) : Update → Option Heartbeat
  | .heartbeat hb => if hb.sensorID = id ∧ id ≠ "" then some hb else none
  | _ => none

/-- A declaration of a sensor, with what kind it says it is and whether it need not be there. -/
def Update.declaration (id : String) : Update → Option (String × Bool)
  | .expect sensorID kind optional => if sensorID = id then some (kind, optional) else none
  | .restore sensorID kind _ _ => if sensorID = id then some (kind, false) else none
  | _ => none

/-- A restored sensor was heard before if there is a time at which it was. -/
def Update.restores (id : String) : Update → Bool
  | .restore sensorID _ last _ => sensorID = id ∧ 0 < last
  | _ => false

/-- The last heartbeat received from a sensor. -/
def lastHeartbeat (id : String) (h : List Update) : Option Heartbeat :=
  h.findSome? (Update.heartbeatOf id)

/-- A sensor that was ever heard, in this process or in one before it. -/
def Heard (id : String) (h : List Update) : Prop :=
  ∃ u ∈ h, (u.heartbeatOf id).isSome ∨ u.restores id

/-- A sensor that is known. -/
def Known (id : String) (h : List Update) : Prop :=
  ∃ u ∈ h, (u.heartbeatOf id).isSome ∨ (u.declaration id).isSome

/-- How a sensor was first declared. -/
def firstDeclared (id : String) : List Update → Option (String × Bool)
  | [] => none
  | u :: h => (firstDeclared id h).or (u.declaration id)

/-- The last kind that a sensor said it is. -/
def lastKind (id : String) (h : List Update) : Option String :=
  h.findSome? fun u ↦ ((u.heartbeatOf id).map Heartbeat.sensorKind).filter (· ≠ "")

/-- The kind of a sensor: the last that it said, or else the one it was first declared with. -/
def kindOf (id : String) (h : List Update) : String :=
  (lastKind id h).getD (((firstDeclared id h).map Prod.fst).getD "")

/-- A sensor that was first declared as one that need not be there. -/
def DeclaredOptional (id : String) (h : List Update) : Prop :=
  ∃ kind, firstDeclared id h = some (kind, true)

/-- Declarations of a sensor come before its first heartbeat. -/
def DeclaredFirst : List Update → Prop
  | [] => True
  | u :: h => DeclaredFirst h ∧ ∀ id, (u.declaration id).isSome → lastHeartbeat id h = none

/-- The last heartbeat of a sensor says that it is healthy, and is no older than `staleAfter`. -/
def HealthyNow (staleAfter : GoDuration) (now : GoTime) (id : String) (h : List Update) : Prop :=
  ∃ hb ∈ lastHeartbeat id h, hb.healthy ∧ GoTime.sub now hb.observed ≤ staleAfter

/-- A receiver of Wi-Fi that is healthy said in its last heartbeat that it has widened its plan. -/
def Widened (staleAfter : GoDuration) (now : GoTime) (h : List Update) : Prop :=
  ∃ id, kindOf id h = "wifi" ∧ ∃ hb ∈ lastHeartbeat id h, hb.healthy ∧
    GoTime.sub now hb.observed ≤ staleAfter ∧ hb.detail.get "plan_fallback" = some (.bool true)

/-- A sensor that counts: all do but those which need not be there and never were, and of these the
receivers of Wi-Fi do as long as no other has widened its plan. -/
def Counted (staleAfter : GoDuration) (now : GoTime) (id : String) (h : List Update) : Prop :=
  Known id h ∧ (DeclaredOptional id h → ¬Heard id h → kindOf id h = "wifi" ∧
    ¬Widened staleAfter now h)

/-- Whether fusion is configured. -/
def fusionConfigured : List Update → Bool
  | [] => false
  | .setFusionState configured _ _ :: _ => configured
  | _ :: h => fusionConfigured h

/-- What the last update of the connection to fusion says; a message says that there is one. -/
def fusionConnected : List Update → Bool
  | [] => false
  | .setFusionState _ connected _ :: _ => connected
  | .noteFusionMessage _ :: _ => true
  | _ :: h => fusionConnected h

/-! ## One update -/

section History

variable {id : String} {u : Update} {h : List Update}

theorem lastHeartbeat_cons :
    lastHeartbeat id (u :: h) = (u.heartbeatOf id).or (lastHeartbeat id h) := by
  rw [lastHeartbeat, List.findSome?_cons]
  cases u.heartbeatOf id <;> rfl

theorem known_cons : Known id (u :: h) ↔
    ((u.heartbeatOf id).isSome ∨ (u.declaration id).isSome) ∨ Known id h := by
  simp [Known]

theorem heard_cons :
    Heard id (u :: h) ↔ ((u.heartbeatOf id).isSome ∨ u.restores id) ∨ Heard id h := by
  simp [Heard]

theorem lastKind_cons_of_none (hu : u.heartbeatOf id = none) :
    lastKind id (u :: h) = lastKind id h := by
  simp [lastKind, hu]

/-- A sensor that is restored is declared. -/
theorem restores_eq_false (hu : u.declaration id = none) : u.restores id = false := by
  cases u with
  | restore sensorID kind last reason =>
    have hne : sensorID ≠ id := fun heq ↦ by simp [Update.declaration, heq] at hu
    simp [Update.restores, hne]
  | _ => rfl

theorem known_of_lastHeartbeat {hb : Heartbeat} (hlast : lastHeartbeat id h = some hb) :
    Known id h := by
  obtain ⟨u, hu, hhb⟩ := List.exists_of_findSome?_eq_some hlast
  exact ⟨u, hu, .inl (Option.isSome_iff_exists.mpr ⟨hb, hhb⟩)⟩

theorem known_of_firstDeclared {d : String × Bool} (hfirst : firstDeclared id h = some d) :
    Known id h := by
  induction h with
  | nil => cases hfirst
  | cons u h ih =>
    rw [known_cons]
    rcases Option.or_eq_some_iff.mp hfirst with hold | ⟨-, hnew⟩
    · exact .inr (ih hold)
    · exact .inl (.inr (Option.isSome_iff_exists.mpr ⟨d, hnew⟩))

end History

/-- The entry of a sensor holds what the history says of it. -/
structure Matches (id : String) (h : List Update) (e : Entry) : Prop where
  kind : e.kind = kindOf id h
  optional : e.optional = true ↔ DeclaredOptional id h
  seen : e.seen = true ↔ Heard id h
  heartbeat : ∀ hb ∈ lastHeartbeat id h, e.healthy = hb.healthy ∧ e.observed = hb.observed ∧
    e.detail = (Registry.splitReason hb.detail).1
  unheard : lastHeartbeat id h = none → e.healthy = false ∧ 0 ≤ e.last ∧
    (e.seen = true ↔ 0 < e.last) ∧ (firstDeclared id h).isSome

/-- There is an entry just if the sensor is known, and it holds what the history says. -/
structure Ledger (id : String) (h : List Update) (o : Option Entry) : Prop where
  known : o.isSome ↔ Known id h
  entry : ∀ e ∈ o, Matches id h e

section Step

variable {id : String} {u : Update} {h : List Update} {o : Option Entry}

theorem known_of_heard (hheard : Heard id h) : Known id h := by
  obtain ⟨u, hu, hb | hr⟩ := hheard
  · exact ⟨u, hu, .inl hb⟩
  · refine ⟨u, hu, .inr ?_⟩
    by_contra hnone
    rw [restores_eq_false (Option.not_isSome_iff_eq_none.mp hnone)] at hr
    cases hr

/-- What is not about a sensor changes nothing of it. -/
theorem Matches.skip {e : Entry} (hm : Matches id h e) (hb : u.heartbeatOf id = none)
    (hd : u.declaration id = none) : Matches id (u :: h) e := by
  have hlast : lastHeartbeat id (u :: h) = lastHeartbeat id h := by
    rw [lastHeartbeat_cons, hb, Option.none_or]
  have hfirst : firstDeclared id (u :: h) = firstDeclared id h := by
    rw [firstDeclared, hd, Option.or_none]
  have hheard : Heard id (u :: h) ↔ Heard id h := by
    rw [heard_cons, hb, restores_eq_false hd]
    simp
  refine ⟨?_, ?_, ?_, ?_, ?_⟩
  · rw [kindOf, lastKind_cons_of_none hb, hfirst]
    exact hm.kind
  · rw [DeclaredOptional, hfirst]
    exact hm.optional
  · rw [hheard]
    exact hm.seen
  · rw [hlast]
    exact hm.heartbeat
  · rw [hlast, hfirst]
    exact hm.unheard

theorem Ledger.skip (hl : Ledger id h o) (hb : u.heartbeatOf id = none)
    (hd : u.declaration id = none) : Ledger id (u :: h) o := by
  refine ⟨?_, fun e he ↦ (hl.entry e he).skip hb hd⟩
  rw [hl.known, known_cons, hb, hd]
  simp

/-- A sensor without an entry was never heard of. -/
theorem Ledger.unknown (hl : Ledger id h none) :
    lastHeartbeat id h = none ∧ firstDeclared id h = none ∧ ¬Heard id h := by
  have hnot : ¬Known id h := fun hk ↦ by simpa using hl.known.mpr hk
  refine ⟨?_, ?_, fun hheard ↦ hnot (known_of_heard hheard)⟩
  · exact Option.eq_none_iff_forall_ne_some.mpr fun hb he ↦ hnot (known_of_lastHeartbeat he)
  · exact Option.eq_none_iff_forall_ne_some.mpr fun d he ↦ hnot (known_of_firstDeclared he)

theorem lastKind_eq_none (hlast : lastHeartbeat id h = none) : lastKind id h = none := by
  rw [lastHeartbeat, List.findSome?_eq_none_iff] at hlast
  rw [lastKind, List.findSome?_eq_none_iff]
  intro u hu
  rw [hlast u hu]
  rfl

/-- A sensor that was declared already is not changed by a declaration, unless it is heard of in it. -/
theorem Matches.redeclare {e : Entry} (hm : Matches id h e) (hnone : lastHeartbeat id h = none)
    (hb : u.heartbeatOf id = none) (hr : u.restores id = false) : Matches id (u :: h) e := by
  obtain ⟨hhealthy, hpos, hseen, hfirst⟩ := hm.unheard hnone
  obtain ⟨d, hd⟩ := Option.isSome_iff_exists.mp hfirst
  have hlast : lastHeartbeat id (u :: h) = lastHeartbeat id h := by
    rw [lastHeartbeat_cons, hb, Option.none_or]
  have hfirst' : firstDeclared id (u :: h) = firstDeclared id h := by
    rw [firstDeclared, hd, Option.some_or]
  refine ⟨?_, ?_, ?_, ?_, ?_⟩
  · rw [kindOf, lastKind_cons_of_none hb, hfirst']
    exact hm.kind
  · rw [DeclaredOptional, hfirst']
    exact hm.optional
  · rw [heard_cons, hb, hr]
    simpa using hm.seen
  · rw [hlast]
    exact hm.heartbeat
  · rw [hlast, hfirst']
    exact hm.unheard

/-- A first declaration, of a sensor that is not heard of in it. -/
theorem Matches.declare {kind : String} {optional : Bool} (hl : Ledger id h none)
    (hb : u.heartbeatOf id = none) (hd : u.declaration id = some (kind, optional))
    (hr : u.restores id = false) : Matches id (u :: h) { kind, optional } := by
  obtain ⟨hnone, hfirst, hheard⟩ := hl.unknown
  have hlast : lastHeartbeat id (u :: h) = none := by
    rw [lastHeartbeat_cons, hb, hnone]
    rfl
  have hfirst' : firstDeclared id (u :: h) = some (kind, optional) := by
    rw [firstDeclared, hfirst, hd]
    rfl
  have hunheard : ¬Heard id (u :: h) := by
    rw [heard_cons, hb, hr]
    simpa using hheard
  refine ⟨?_, ?_, iff_of_false (by simp) hunheard, ?_, fun _ ↦ ⟨rfl, le_rfl, by simp, ?_⟩⟩
  · rw [kindOf, lastKind_eq_none hlast, hfirst']
    rfl
  · rw [DeclaredOptional, hfirst']
    simp
  · rw [hlast]
    exact fun hb he ↦ nomatch he
  · rw [hfirst']
    rfl

/-- **`Expect`**, of a sensor that has sent no heartbeat. -/
theorem Ledger.expect (hl : Ledger id h o) (hnone : lastHeartbeat id h = none) (kind : String)
    (optional : Bool) :
    Ledger id (.expect id kind optional :: h) (some (o.getD { kind, optional })) := by
  refine ⟨iff_of_true rfl (known_cons.mpr (.inl (.inr ?_))), fun e he ↦ ?_⟩
  · simp [Update.declaration]
  · obtain rfl := Option.some.inj he
    cases o with
    | none => exact .declare hl rfl (by simp [Update.declaration]) rfl
    | some e => exact (hl.entry e rfl).redeclare hnone rfl rfl

/-- **`Restore`**, of a sensor that has sent no heartbeat. -/
theorem Ledger.restore (hl : Ledger id h o) (hnone : lastHeartbeat id h = none) (kind : String)
    (last : GoTime) (reason : String) :
    Ledger id (.restore id kind last reason :: h)
      (some (let e := o.getD { kind }
        if e.last < last then { e with last, observed := last, seen := true, reason } else e)) := by
  have hdecl : (Update.restore id kind last reason).declaration id = some (kind, false) := by
    simp [Update.declaration]
  refine ⟨iff_of_true rfl (known_cons.mpr (.inl (.inr (by rw [hdecl]; rfl)))), fun e he ↦ ?_⟩
  obtain rfl := Option.some.inj he
  -- first the declaration on its own, as one with the zero time would be
  have hbase : Matches id (.restore id kind 0 reason :: h) (o.getD { kind }) := by
    cases o with
    | none => exact .declare hl rfl (by simp [Update.declaration]) (by simp [Update.restores])
    | some e => exact (hl.entry e rfl).redeclare hnone rfl (by simp [Update.restores])
  have hlast : lastHeartbeat id (.restore id kind 0 reason :: h) = none := by
    rw [lastHeartbeat_cons, hnone]
    rfl
  have hheard : Heard id (.restore id kind 0 reason :: h) ↔ Heard id h := by
    rw [heard_cons]
    simp [Update.heartbeatOf, Update.restores]
  have hheard' : Heard id (.restore id kind last reason :: h) ↔ 0 < last ∨ Heard id h := by
    rw [heard_cons]
    simp [Update.heartbeatOf, Update.restores]
  obtain ⟨hhealthy, hpos, hseen, hfirst⟩ := hbase.unheard hlast
  generalize o.getD { kind } = e at *
  dsimp only
  split
  · rename_i hlt
    have hpos' : 0 < last := hpos.trans_lt hlt
    exact ⟨hbase.kind, hbase.optional, iff_of_true rfl (hheard'.mpr (.inl hpos')),
      fun hb he ↦ absurd (hlast.symm.trans he) (Option.some_ne_none hb).symm,
      fun _ ↦ ⟨hhealthy, hpos'.le, iff_of_true rfl hpos', hfirst⟩⟩
  · rename_i hle
    refine ⟨hbase.kind, hbase.optional, ?_, hbase.heartbeat, hbase.unheard⟩
    rw [hheard', hbase.seen, hheard]
    refine ⟨.inr, fun hor ↦ hor.elim (fun hpos' ↦ ?_) (fun hold ↦ hold)⟩
    exact hheard.mp (hbase.seen.mp (hseen.mpr (hpos'.trans_le (not_lt.mp hle))))

/-- **`Heartbeat`**. -/
theorem Ledger.heartbeat (hl : Ledger id h o) {hb : Heartbeat} (hid : hb.sensorID = id)
    (hne : id ≠ "") :
    Ledger id (.heartbeat hb :: h)
      (some (let e := o.getD {}
        { e with
          kind := if hb.sensorKind ≠ "" then hb.sensorKind else e.kind
          seen := true
          last := hb.ts
          observed := hb.observed
          healthy := hb.healthy
          detail := (Registry.splitReason hb.detail).1
          reason := (Registry.splitReason hb.detail).2 })) := by
  have hof : (Update.heartbeat hb).heartbeatOf id = some hb := if_pos ⟨hid, hne⟩
  have hlast : lastHeartbeat id (.heartbeat hb :: h) = some hb := by
    rw [lastHeartbeat_cons, hof]
    rfl
  have hfirst : firstDeclared id (.heartbeat hb :: h) = firstDeclared id h := Option.or_none
  refine ⟨iff_of_true rfl (known_of_lastHeartbeat hlast), fun e he ↦ ?_⟩
  obtain rfl := Option.some.inj he
  refine ⟨?_, ?_, iff_of_true rfl (heard_cons.mpr (.inl (.inl ?_))), ?_, ?_⟩
  · have hold : (o.getD {}).kind = kindOf id h := by
      cases o with
      | none =>
        obtain ⟨hnone, hfirst, -⟩ := hl.unknown
        rw [kindOf, lastKind_eq_none hnone, hfirst]
        rfl
      | some e => exact (hl.entry e rfl).kind
    rw [kindOf, hfirst, lastKind, List.findSome?_cons, hof]
    by_cases hkind : hb.sensorKind = ""
    · simp only [hkind, Option.map_some, ne_eq, not_true_eq_false, if_false]
      exact hold
    · simp [hkind, Option.filter]
  · rw [DeclaredOptional, hfirst]
    cases o with
    | none =>
      obtain ⟨-, hfirst, -⟩ := hl.unknown
      rw [hfirst]
      simp
    | some e => exact (hl.entry e rfl).optional
  · rw [hof]
    rfl
  · rw [hlast]
    intro hb' he
    obtain rfl := Option.some.inj he
    exact ⟨rfl, rfl, rfl⟩
  · rw [hlast]
    exact fun h ↦ nomatch h

end Step

/-! ## All updates -/

/-- **The entries after a history hold what it says.** -/
theorem ledger_after (staleAfter : GoDuration) {h : List Update} (hfirst : DeclaredFirst h)
    (id : String) : Ledger id h ((Registry.after staleAfter h).sensors.get id) := by
  induction h with
  | nil =>
    refine ⟨iff_of_false (by simp [Registry.after]) fun hk ↦ ?_, fun e he ↦ ?_⟩
    · obtain ⟨u, hu, -⟩ := hk
      exact absurd hu List.not_mem_nil
    · simp [Registry.after] at he
  | cons u h ih =>
    have hl := ih hfirst.1
    have hnone := hfirst.2 id
    rw [Registry.after]
    generalize Registry.after staleAfter h = r at *
    cases u with
    | expect sensorID kind optional =>
      by_cases heq : sensorID = id
      · subst heq
        have hget : (r.expect sensorID kind optional).sensors.get sensorID =
            some ((r.sensors.get sensorID).getD { kind, optional }) := by
          rw [Registry.expect]
          cases hold : r.sensors.get sensorID with
          | none => simp [GoMap.get_put]
          | some e => exact hold
        exact hget ▸ hl.expect (hnone (by simp [Update.declaration])) kind optional
      · have hget : (r.expect sensorID kind optional).sensors.get id = r.sensors.get id := by
          rw [Registry.expect]
          split
          · rfl
          · rw [GoMap.get_put, if_neg fun h ↦ heq h.symm]
        exact hget ▸ hl.skip rfl (if_neg heq)
    | restore sensorID kind last reason =>
      by_cases heq : sensorID = id
      · subst heq
        have hget : (r.restore sensorID kind last reason).sensors.get sensorID = some _ :=
          (GoMap.get_put ..).trans (if_pos rfl)
        exact hget ▸ hl.restore (hnone (by simp [Update.declaration])) kind last reason
      · have hget : (r.restore sensorID kind last reason).sensors.get id = r.sensors.get id :=
          (GoMap.get_put ..).trans (if_neg fun h ↦ heq h.symm)
        exact hget ▸ hl.skip rfl (if_neg heq)
    | heartbeat hb =>
      by_cases hempty : hb.sensorID = ""
      · have hget : (r.heartbeat hb).sensors.get id = r.sensors.get id := by
          rw [Registry.heartbeat, if_pos hempty]
        exact hget ▸ hl.skip (if_neg fun h ↦ h.2 (h.1 ▸ hempty)) rfl
      · by_cases heq : hb.sensorID = id
        · subst heq
          rw [Registry.apply, Registry.heartbeat, if_neg hempty]
          show Ledger _ _ ((r.sensors.put hb.sensorID _).get hb.sensorID)
          rw [GoMap.get_put, if_pos rfl]
          exact hl.heartbeat rfl hempty
        · have hget : (r.heartbeat hb).sensors.get id = r.sensors.get id := by
            rw [Registry.heartbeat, if_neg hempty]
            exact (GoMap.get_put ..).trans (if_neg fun h ↦ heq h.symm)
          exact hget ▸ hl.skip (if_neg fun h ↦ heq h.1) rfl
    | setFusionState configured connected reason => exact hl.skip rfl rfl
    | noteFusionMessage at' => exact hl.skip rfl rfl

theorem staleAfter_after (staleAfter : GoDuration) (h : List Update) :
    (Registry.after staleAfter h).staleAfter = staleAfter := by
  induction h with
  | nil => rfl
  | cons u h ih =>
    rw [Registry.after]
    cases u with
    | expect sensorID kind optional =>
      rw [Registry.apply, Registry.expect]
      split <;> exact ih
    | heartbeat hb =>
      rw [Registry.apply, Registry.heartbeat]
      split <;> exact ih
    | _ => exact ih

/-- The registry knows of fusion what the last updates said. -/
theorem fusion_after (staleAfter : GoDuration) (h : List Update) :
    (Registry.after staleAfter h).fusionConfigured = fusionConfigured h ∧
      (Registry.after staleAfter h).fusionConnected = fusionConnected h := by
  induction h with
  | nil => exact ⟨rfl, rfl⟩
  | cons u h ih =>
    rw [Registry.after]
    cases u with
    | expect sensorID kind optional =>
      rw [Registry.apply, Registry.expect]
      split <;> exact ih
    | heartbeat hb =>
      rw [Registry.apply, Registry.heartbeat]
      split <;> exact ih
    | restore sensorID kind last reason => exact ih
    | setFusionState configured connected reason => exact ⟨rfl, rfl⟩
    | noteFusionMessage at' => exact ⟨ih.1, rfl⟩

/-! ## The report -/

/-- The loop over the sensors counts those that are counted, and of these the healthy ones. -/
theorem foldl_tally (r : Registry) (now : GoTime) (whole : Bool) (detections5m : String → ℤ)
    (entries : List (String × Entry)) (t : Registry.Tally) :
    let counted := entries.filter fun x ↦ !Registry.uncounted whole x.2
    (entries.foldl (r.tally now whole detections5m) t).total = t.total + counted.length ∧
      (entries.foldl (r.tally now whole detections5m) t).healthy = t.healthy +
        (counted.filter fun x ↦ (r.sensor now whole detections5m x.1 x.2).healthy).length := by
  induction entries generalizing t with
  | nil => exact ⟨rfl, rfl⟩
  | cons x entries ih =>
    obtain ⟨htotal, hhealthy⟩ := ih (r.tally now whole detections5m t x)
    rw [List.foldl_cons, htotal, hhealthy, Registry.tally]
    cases hx : Registry.uncounted whole x.2 with
    | true => simp [hx]
    | false =>
      cases hs : (r.sensor now whole detections5m x.1 x.2).healthy with
      | true =>
        simp [hx, hs]
        omega
      | false =>
        simp [hx, hs]
        omega

/-- What a status says of the two counters. -/
theorem status_eq_ok_iff {healthy total : ℕ} (hle : healthy ≤ total) (configured connected : Bool) :
    Registry.status healthy total configured connected = .ok ↔
      0 < total ∧ healthy = total ∧ ¬(configured = true ∧ connected = false) := by
  rw [Registry.status]
  rcases Nat.eq_zero_or_pos total with h0 | hpos
  · simp [h0]
  rcases Nat.eq_zero_or_pos healthy with h0 | hpos'
  · simp [h0, hpos.ne']
    omega
  rcases Nat.lt_or_ge healthy total with hlt | hge
  · simp [hpos.ne', hpos'.ne', hlt]
    omega
  · have heq : healthy = total := by omega
    subst heq
    cases configured <;> cases connected <;> simp [hpos, hpos.ne']

theorem status_eq_down_iff {healthy total : ℕ} (hle : healthy ≤ total) (configured connected : Bool) :
    Registry.status healthy total configured connected = .down ↔ healthy = 0 := by
  rw [Registry.status]
  rcases Nat.eq_zero_or_pos total with h0 | hpos
  · have hzero : healthy = 0 := by omega
    simp [h0, hzero]
  rcases Nat.eq_zero_or_pos healthy with h0 | hpos'
  · simp [h0, hpos.ne']
  rcases Nat.lt_or_ge healthy total with hlt | hge
  · simp [hpos.ne', hpos'.ne', hlt]
  · have heq : healthy = total := by omega
    subst heq
    cases configured <;> cases connected <;> simp [hpos.ne']

/-- The reason is taken out of the blob, and nothing else. -/
theorem get_splitReason (detail : Detail) {k : String} (hk : k ≠ "reason") :
    (Registry.splitReason detail).1.get k = detail.get k := by
  rw [Registry.splitReason]
  split
  · rw [GoMap.get_delete, if_neg hk]
  · rfl

theorem widened_iff {detail : Detail} :
    Registry.widened detail = true ↔ detail.get "plan_fallback" = some (.bool true) := by
  rw [Registry.widened]
  split
  · rename_i b hb
    simp [hb]
  · rename_i hnot
    exact ⟨Bool.noConfusion, fun h ↦ absurd h (hnot true)⟩

section Snapshot

variable {staleAfter : GoDuration} {now : GoTime} {id : String} {h : List Update} {e : Entry}
  {whole : Bool}

/-- **A sensor is reported healthy** just if its last heartbeat says so and is not stale. -/
theorem healthy_sensor_iff (hm : Matches id h e) (detections5m : String → ℤ) :
    ((Registry.after staleAfter h).sensor now whole detections5m id e).healthy = true ↔
      HealthyNow staleAfter now id h := by
  rw [Registry.sensor, HealthyNow]
  cases hlast : lastHeartbeat id h with
  | none =>
    obtain ⟨hhealthy, -, -, -⟩ := hm.unheard hlast
    refine iff_of_false (fun htrue ↦ ?_) fun ⟨hb, he, _⟩ ↦ nomatch he
    split at htrue
    · cases htrue
    · simp [hhealthy] at htrue
  | some hb =>
    obtain ⟨hhealthy, hobserved, -⟩ := hm.heartbeat hb hlast
    obtain ⟨u, hu, hof⟩ := List.exists_of_findSome?_eq_some hlast
    have hseen : e.seen = true :=
      hm.seen.mpr ⟨u, hu, .inl (Option.isSome_iff_exists.mpr ⟨hb, hof⟩)⟩
    simp [hseen, hhealthy, hobserved, Registry.fresh, staleAfter_after]

/-- **A sensor is not counted** just if the history says that it is not to be. -/
theorem uncounted_eq_false_iff (hm : Matches id h e) (hknown : Known id h)
    (hwhole : whole = true ↔ Widened staleAfter now h) :
    Registry.uncounted whole e = false ↔ Counted staleAfter now id h := by
  rw [Counted, and_iff_right hknown, ← hm.optional, ← hm.seen, ← hm.kind, ← hwhole,
    Registry.uncounted]
  cases e.optional <;> cases e.seen <;> cases whole <;> simp

theorem wifiCoverageIsWhole_iff (hfirst : DeclaredFirst h) :
    (Registry.after staleAfter h).wifiCoverageIsWhole now = true ↔ Widened staleAfter now h := by
  rw [Registry.wifiCoverageIsWhole, List.any_eq_true]
  constructor
  · rintro ⟨e, he, hall⟩
    obtain ⟨id, hid⟩ := GoMap.mem_values.mp he
    have hm := (ledger_after staleAfter hfirst id).entry e hid
    simp only [decide_eq_true_eq, Registry.fresh, staleAfter_after] at hall
    obtain ⟨hkind, -, hhealthy, hfresh, hwide⟩ := hall
    refine ⟨id, hm.kind ▸ hkind, ?_⟩
    cases hlast : lastHeartbeat id h with
    | none => exact absurd hhealthy (by simp [(hm.unheard hlast).1])
    | some hb =>
      obtain ⟨hhealthy', hobserved, hdetail⟩ := hm.heartbeat hb hlast
      rw [widened_iff, hdetail, get_splitReason _ (by decide)] at hwide
      exact ⟨hb, rfl, hhealthy' ▸ hhealthy, hobserved ▸ hfresh, hwide⟩
  · rintro ⟨id, hkind, hb, hlast, hhealthy, hfresh, hwide⟩
    have hl := ledger_after staleAfter hfirst id
    obtain ⟨e, he⟩ := Option.isSome_iff_exists.mp (hl.known.mpr (known_of_lastHeartbeat hlast))
    have hm := hl.entry e he
    obtain ⟨hhealthy', hobserved, hdetail⟩ := hm.heartbeat hb hlast
    obtain ⟨u, hu, hof⟩ := List.exists_of_findSome?_eq_some hlast
    have hseen : e.seen = true :=
      hm.seen.mpr ⟨u, hu, .inl (Option.isSome_iff_exists.mpr ⟨hb, hof⟩)⟩
    refine ⟨e, GoMap.mem_values.mpr ⟨id, he⟩, ?_⟩
    simp only [decide_eq_true_eq, Registry.fresh, staleAfter_after]
    refine ⟨hm.kind.trans hkind, hseen, hhealthy'.trans hhealthy, hobserved ▸ hfresh, ?_⟩
    rw [widened_iff, hdetail, get_splitReason _ (by decide)]
    exact hwide

/-- The sensors that the loop counts. -/
def Registry.counted (r : Registry) (now : GoTime) : List (String × Entry) :=
  r.sensors.entries.filter fun x ↦ !Registry.uncounted (r.wifiCoverageIsWhole now) x.2

/-- They are those that the history says are counted. -/
theorem counted_iff (hfirst : DeclaredFirst h) :
    Counted staleAfter now id h ↔ ∃ e, (id, e) ∈ (Registry.after staleAfter h).counted now := by
  have hl := ledger_after staleAfter hfirst id
  have hwhole : _ ↔ Widened staleAfter now h := wifiCoverageIsWhole_iff hfirst
  simp only [Registry.counted, List.mem_filter, GoMap.mem_entries, Bool.not_eq_true']
  constructor
  · intro hc
    obtain ⟨e, he⟩ := Option.isSome_iff_exists.mp (hl.known.mpr hc.1)
    exact ⟨e, he, (uncounted_eq_false_iff (hl.entry e he) hc.1 hwhole).mpr hc⟩
  · rintro ⟨e, he, hcount⟩
    have hknown := hl.known.mp (Option.isSome_iff_exists.mpr ⟨e, he⟩)
    exact (uncounted_eq_false_iff (hl.entry e he) hknown hwhole).mp hcount

/-- **The two counters**: there is a sensor that is counted, they all are healthy, none is. -/
theorem snapshot_status_iff (hfirst : DeclaredFirst h) (uptime : GoDuration) (version : String)
    (detections5m : String → ℤ) :
    (((Registry.after staleAfter h).snapshot now uptime version detections5m).status = .ok ↔
      (∃ id, Counted staleAfter now id h) ∧
        (∀ id, Counted staleAfter now id h → HealthyNow staleAfter now id h) ∧
        ¬(fusionConfigured h = true ∧ fusionConnected h = false)) ∧
      (((Registry.after staleAfter h).snapshot now uptime version detections5m).status = .down ↔
        ∀ id, Counted staleAfter now id h → ¬HealthyNow staleAfter now id h) := by
  have hcounted : ∀ id, Counted staleAfter now id h ↔
      ∃ e, (id, e) ∈ (Registry.after staleAfter h).counted now := fun _ ↦ counted_iff hfirst
  have hhealthy : ∀ x ∈ (Registry.after staleAfter h).counted now,
      (((Registry.after staleAfter h).sensor now
        ((Registry.after staleAfter h).wifiCoverageIsWhole now) detections5m x.1 x.2).healthy = true
        ↔ HealthyNow staleAfter now x.1 h) := fun x hx ↦
    healthy_sensor_iff ((ledger_after staleAfter hfirst x.1).entry x.2
      (GoMap.mem_entries.mp (List.mem_filter.mp hx).1)) detections5m
  obtain ⟨hconfigured, hconnected⟩ := fusion_after staleAfter h
  obtain ⟨htotal, htally⟩ := foldl_tally (Registry.after staleAfter h) now
    ((Registry.after staleAfter h).wifiCoverageIsWhole now) detections5m
    (Registry.after staleAfter h).sensors.entries {}
  rw [Registry.snapshot]
  dsimp only
  rw [hconfigured, hconnected, htotal, htally, ← Registry.counted, Nat.zero_add, Nat.zero_add,
    status_eq_ok_iff (List.length_filter_le _ _), status_eq_down_iff (List.length_filter_le _ _)]
  constructor
  · refine and_congr ?_ (and_congr ?_ Iff.rfl)
    · rw [List.length_pos_iff_exists_mem]
      exact ⟨fun ⟨x, hx⟩ ↦ ⟨x.1, (hcounted x.1).mpr ⟨x.2, hx⟩⟩,
        fun ⟨id, hid⟩ ↦ ((hcounted id).mp hid).elim fun e he ↦ ⟨_, he⟩⟩
    · rw [List.length_filter_eq_length_iff]
      refine ⟨fun hall id hid ↦ ?_, fun hall x hx ↦ ?_⟩
      · obtain ⟨e, he⟩ := (hcounted id).mp hid
        exact (hhealthy _ he).mp (hall _ he)
      · exact (hhealthy x hx).mpr (hall x.1 ((hcounted x.1).mpr ⟨x.2, hx⟩))
  · rw [List.length_eq_zero_iff, List.filter_eq_nil_iff]
    refine ⟨fun hall id hid ↦ ?_, fun hall x hx ↦ ?_⟩
    · obtain ⟨e, he⟩ := (hcounted id).mp hid
      exact fun h ↦ hall _ he ((hhealthy _ he).mpr h)
    · exact fun h ↦ hall x.1 ((hcounted x.1).mpr ⟨x.2, hx⟩) ((hhealthy x hx).mp h)

end Snapshot

/-- **A report of ok is never false.**  There is a sensor that counts; every sensor that was first
declared as one that has to be there, and every sensor that was ever heard, is healthy by its last
heartbeat; if a receiver of Wi-Fi that need not be there never was, another has widened its plan; and
fusion, if it is configured, is connected.  A report of down says that no sensor that counts is
healthy by its last heartbeat. -/
theorem ok_is_never_false (staleAfter : GoDuration) {h : List Update} (hfirst : DeclaredFirst h)
    (now : GoTime) (uptime : GoDuration) (version : String) (detections5m : String → ℤ) :
    let rep := (Registry.after staleAfter h).snapshot now uptime version detections5m
    (rep.status = .ok →
      (∃ id, Counted staleAfter now id h) ∧
        (∀ id, (Known id h ∧ ¬DeclaredOptional id h) ∨ Heard id h →
          HealthyNow staleAfter now id h) ∧
        (∀ id, kindOf id h = "wifi" → DeclaredOptional id h → ¬Heard id h →
          Widened staleAfter now h) ∧
        ¬(fusionConfigured h = true ∧ fusionConnected h = false)) ∧
      (rep.status = .down ↔
        ∀ id, Counted staleAfter now id h → ¬HealthyNow staleAfter now id h) := by
  refine ⟨fun hstatus ↦ ?_, (snapshot_status_iff hfirst uptime version detections5m).2⟩
  obtain ⟨hsome, hall, hfusion⟩ :=
    (snapshot_status_iff hfirst uptime version detections5m).1.mp hstatus
  refine ⟨hsome, fun id hid ↦ hall id ?_, fun id hkind hopt hnot ↦ ?_, hfusion⟩
  · rcases hid with ⟨hknown, hreq⟩ | hheard
    · exact ⟨hknown, fun hopt ↦ absurd hopt hreq⟩
    · exact ⟨known_of_heard hheard, fun _ hnot ↦ absurd hheard hnot⟩
  · by_contra hwide
    have hknown : Known id h := known_of_firstDeclared hopt.choose_spec
    obtain ⟨hb, hlast, -⟩ := hall id ⟨hknown, fun _ _ ↦ ⟨hkind, hwide⟩⟩
    obtain ⟨u, hu, hof⟩ := List.exists_of_findSome?_eq_some hlast
    exact hnot ⟨u, hu, .inl (Option.isSome_iff_exists.mpr ⟨hb, hof⟩)⟩

/-- A heartbeat of the first receiver of Wi-Fi. -/
def wifiHeartbeat : Heartbeat :=
  { sensorID := "wifi-0", sensorKind := "wifi", healthy := true, ts := 1000, at' := 1000 }

/-- The receiver is declared and heard. -/
theorem ok_is_never_false_sample :
    HealthyNow GoDuration.minute 2000 "wifi-0"
      [.heartbeat wifiHeartbeat, .expect "wifi-0" "wifi" false] := by
  have hfirst : DeclaredFirst [.heartbeat wifiHeartbeat, .expect "wifi-0" "wifi" false] :=
    ⟨⟨trivial, fun _ _ ↦ rfl⟩, fun _ h ↦ nomatch h⟩
  have hok := (ok_is_never_false GoDuration.minute hfirst 2000 0 "" fun _ ↦ 0).1 (by decide)
  exact hok.2.1 "wifi-0" (.inr ⟨_, List.mem_cons_self, .inl rfl⟩)

/-- **A second declaration is not heeded**: a sensor that need not be there by the first one, and has
to be by the second, is never heard, and the report is ok. -/
theorem second_expect_ignored :
    let h : List Update :=
      [.heartbeat wifiHeartbeat, .expect "sdr-0" "sdr" false, .expect "sdr-0" "sdr" true]
    DeclaredFirst h ∧ .expect "sdr-0" "sdr" false ∈ h ∧ lastHeartbeat "sdr-0" h = none ∧
      ((Registry.after GoDuration.minute h).snapshot 2000 0 "" fun _ ↦ 0).status = .ok := by
  refine ⟨⟨⟨⟨trivial, fun _ _ ↦ rfl⟩, fun _ _ ↦ rfl⟩, fun _ h ↦ nomatch h⟩, ?_, rfl, by decide⟩
  exact List.mem_cons_of_mem _ List.mem_cons_self

end ClassG.Health
