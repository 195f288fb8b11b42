import ClassG.Spectrum.Service

/-!
# The life of a sweep

At most one sweep is in flight, and `running` names it.  Of every sweep the service says, in this
order, that it is running and how it ended: the `log` of a sweep that is not in flight is one of the
five that `Ended` lists.

In one of them it ends in silence: the sweep was measured, and the store refused the record of it.
A failed sweep is published whether or not the store takes its record, and this one is not, so that
it stays reported as running.  `sweeps_settle_iff` says that nothing else goes wrong.
-/

set_option autoImplicit false

namespace ClassG.Spectrum

variable {ι : Type} [DecidableEq ι]

abbrev ServiceWorld (ι : Type) := World ι String serviceOps Unit Shared
abbrev ServiceMoment (ι : Type) := Moment ι String serviceOps Unit Shared

/-! ## What is said of a sweep -/

/-- What happens to a sweep, outside of the sweeper. -/
inductive SweepEvent
  | claimed
  | put (sweep : SpectrumSweep) (accepted : Bool)
  | published (sweep : SpectrumSweep)
  /-- `Start` has answered that it is running. -/
  | started (sweep : SpectrumSweep)
  | finished
  deriving DecidableEq

def eventOf (id : String) : What String serviceOps Unit → Option SweepEvent
  | .did .claim (.ok id') => if id' = id then some .claimed else none
  | .did (.putSweep sweep) ans =>
    if sweep.sweepID = id then some (.put sweep ans.isOk) else none
  | .did (.publish sweep) _ => if sweep.sweepID = id then some (.published sweep) else none
  | .did (.answer (.ok sweep)) _ => if sweep.sweepID = id then some (.started sweep) else none
  | .did (.finish id') _ => if id' = id then some .finished else none
  | _ => none

section eventOf

variable {id id' : String} {sweep : SpectrumSweep}

theorem eventOf_claim (h : id' = id) : eventOf id (.did .claim (.ok id')) = some .claimed := if_pos h

theorem eventOf_claim_ne (h : id' ≠ id) : eventOf id (.did .claim (.ok id')) = none := if_neg h

theorem eventOf_put (h : sweep.sweepID = id) (ans : Except String Unit) :
    eventOf id (.did (.putSweep sweep) ans) = some (.put sweep ans.isOk) := if_pos h

theorem eventOf_put_ne (h : sweep.sweepID ≠ id) (ans : Except String Unit) :
    eventOf id (.did (.putSweep sweep) ans) = none := if_neg h

theorem eventOf_publish (h : sweep.sweepID = id) :
    eventOf id (.did (.publish sweep) ()) = some (.published sweep) := if_pos h

theorem eventOf_answer (h : sweep.sweepID = id) :
    eventOf id (.did (.answer (.ok sweep)) ()) = some (.started sweep) := if_pos h

theorem eventOf_finish (h : id' = id) : eventOf id (.did (.finish id') ()) = some .finished := if_pos h

theorem eventOf_finish_ne (h : id' ≠ id) : eventOf id (.did (.finish id') ()) = none := if_neg h

/-- Only a write makes a put. -/
theorem eventOf_ne_put {op : ServiceOp} (hop : ∀ sweep, op ≠ .putSweep sweep)
    (ans : serviceOps.Ans op) (id : String) (sweep : SpectrumSweep) :
    eventOf id (.did op ans) ≠ some (.put sweep true) := by
  rcases op with _ | _ | _ | _ | written | _ | ⟨_ | _⟩ | _ | _ | _
  case putSweep => exact absurd rfl (hop written)
  case claim => rcases ans with _ | _ <;> simp [eventOf]
  all_goals simp [eventOf]

end eventOf

/-- What has happened to the sweep, latest first. -/
def log (id : String) (h : List (ServiceMoment ι)) : List SweepEvent :=
  h.filterMap fun x ↦ eventOf id x.what

/-- The documents that have been published, latest first. -/
def published (l : List SweepEvent) : List SpectrumSweep :=
  l.filterMap fun | .published sweep => some sweep | _ => none

/-- The document that the store has taken last. -/
def lastPut (l : List SweepEvent) : Option SpectrumSweep :=
  l.findSome? fun | .put sweep true => some sweep | _ => none

/-- What the event makes of the thread's sweep in flight, if it is a claim or the end of a sweep. -/
def takes : What String serviceOps Unit → Option (Option String)
  | .did .claim (.ok id) => some (some id)
  | .did (.finish _) _ => some none
  | _ => none

/-- The sweep that the thread has in flight: from the claim until `finish`. -/
def inFlight (i : ι) : List (ServiceMoment ι) → Option String
  | [] => none
  | x :: h => if x.thread = i then (takes x.what).getD (inFlight i h) else inFlight i h

/-- `Start` has answered that the sweep is running. -/
def Started (l : List SweepEvent) : Prop := ∃ sweep, .started sweep ∈ l

/-- The sweep was published twice: first as running, and last in the state it ended in.  The store
has that document, unless it refused it. -/
def Settled (l : List SweepEvent) (stored : Option SpectrumSweep) : Prop :=
  ∃ first final, published l = [final, first] ∧ first.state = .running ∧ final.state ≠ .running ∧
    (stored = some final ∨ .put final false ∈ l)

/-- The sweep was measured, and the store refused the record of it. -/
def CompletedRefused (l : List SweepEvent) : Prop :=
  ∃ sweep, sweep.state = .completed ∧ .put sweep false ∈ l

/-- The last that was published of the sweep is that it is running. -/
def ReportedRunning (l : List SweepEvent) : Prop :=
  ∃ sweep, (published l).head? = some sweep ∧ sweep.state = .running

/-- What is said of a sweep until `Start` has answered, latest first. -/
def opening (sweep : SpectrumSweep) : List SweepEvent :=
  [.started sweep, .published sweep, .put sweep true, .claimed]

/-- All that is said of a sweep that is not in flight. -/
inductive Ended : List SweepEvent → Prop
  | unclaimed : Ended []
  /-- The store refused that it is running, and `Start` answered with the error. -/
  | refused {sweep : SpectrumSweep} (h : sweep.state = .running) :
      Ended [.finished, .put sweep false, .claimed]
  | failed {sweep final : SpectrumSweep} {accepted : Bool} (h : sweep.state = .running)
      (hf : final.state = .failed) :
      Ended (.finished :: .published final :: .put final accepted :: opening sweep)
  | completed {sweep final : SpectrumSweep} (h : sweep.state = .running)
      (hf : final.state = .completed) :
      Ended (.finished :: .published final :: .put final true :: opening sweep)
  | silent {sweep final : SpectrumSweep} (h : sweep.state = .running)
      (hf : final.state = .completed) : Ended (.finished :: .put final false :: opening sweep)

/-- **What becomes of a sweep that was started.** -/
theorem Ended.settled_iff {l : List SweepEvent} (h : Ended l) (hstarted : Started l)
    {stored : Option SpectrumSweep}
    (hstored : ∀ sweep, lastPut l = some sweep → stored = some sweep) :
    Settled l stored ↔ ¬CompletedRefused l := by
  obtain ⟨sweep, hsweep⟩ := hstarted
  cases h with
  | unclaimed => nomatch hsweep
  | refused h => simp at hsweep
  | @failed first final accepted h hf =>
    refine iff_of_true ⟨first, final, rfl, h, by simp [hf], ?_⟩ ?_
    · cases accepted with
      | true => exact .inl (hstored final rfl)
      | false => exact .inr (by simp)
    · rintro ⟨other, hother, hmem⟩
      simp only [opening, List.mem_cons, SweepEvent.put.injEq, reduceCtorEq, List.not_mem_nil,
        and_false, or_false, false_or] at hmem
      rw [hmem.1, hf] at hother
      nomatch hother
  | @completed first final h hf =>
    refine iff_of_true ⟨first, final, rfl, h, by simp [hf], .inl (hstored final rfl)⟩ ?_
    rintro ⟨other, hother, hmem⟩
    simp [opening] at hmem
  | @silent first final h hf =>
    refine iff_of_false ?_ (not_not.mpr ⟨final, hf, by simp⟩)
    rintro ⟨a, b, hpub, -⟩
    simp [published, opening] at hpub

theorem Ended.silent_of_reported {l : List SweepEvent} (h : Ended l)
    (hreported : ReportedRunning l) : CompletedRefused l := by
  obtain ⟨sweep, hhead, hrunning⟩ := hreported
  cases h with
  | unclaimed | refused h => simp [published] at hhead
  | failed h hf | completed h hf =>
    obtain rfl : _ = sweep := Option.some.inj hhead
    rw [hf] at hrunning
    nomatch hrunning
  | @silent first final h hf => exact ⟨final, hf, by simp⟩

/-! ## What every call does -/

/-- One sweep at a time, and those that are not in flight have ended. -/
structure Orderly (w : ServiceWorld ι) : Prop where
  flag : ∀ i id, inFlight i w.history = some id →
    w.shared.running = id ∧ id ≠ "" ∧ id ∈ w.shared.minted
  single : ∀ i j, (inFlight i w.history).isSome → (inFlight j w.history).isSome → i = j
  held : w.shared.running ≠ "" → ∃ i, inFlight i w.history = some w.shared.running
  ended : ∀ id, (∀ i, inFlight i w.history ≠ some id) → Ended (log id w.history)
  stored : ∀ id sweep, lastPut (log id w.history) = some sweep → w.shared.sweeps.get id = some sweep
  minted : ∀ id, log id w.history ≠ [] → id ∈ w.shared.minted

/-- The outline of the proofs: nobody else says anything of the thread's sweep. -/
def serviceOutline (ι : Type) [DecidableEq ι] : Outline ι String serviceOps Unit Shared where
  inv := Orderly
  rely i w w' := inFlight i w'.history = inFlight i w.history ∧
    ∀ id, inFlight i w.history = some id → log id w'.history = log id w.history

theorem serviceOutline_lawful : (serviceOutline ι).Lawful where
  rely_refl _ _ := ⟨rfl, fun _ _ ↦ rfl⟩
  rely_trans _ _ _ _ h h' :=
    ⟨h'.1.trans h.1, fun id hid ↦ (h'.2 id (h.1.trans hid)).trans (h.2 id hid)⟩

section steps

variable (decode : GoBytes → Except String Doc) {i : ι} {k id : String} {l : List SweepEvent}
  {w w' : ServiceWorld ι} {e : ServiceEnv} {op : ServiceOp}

/-- The thread has the sweep in flight, and this has been said of it. -/
def At (i : ι) (id : String) (l : List SweepEvent) (w : ServiceWorld ι) : Prop :=
  inFlight i w.history = some id ∧ log id w.history = l

theorem At.finds (h : At i id l w) (hw : (serviceOutline ι).Finds i w w') : At i id l w' := by
  obtain ⟨-, ⟨hflight, hlog⟩, -⟩ := hw
  exact ⟨hflight.trans h.1, (hlog id h.1).trans h.2⟩

omit [DecidableEq ι] in
theorem log_cons (id : String) (x : ServiceMoment ι) (h : List (ServiceMoment ι)) :
    log id (x :: h) = (eventOf id x.what).toList ++ log id h := by
  rw [log, log, List.filterMap_cons]
  cases eventOf id x.what <;> rfl

theorem inFlight_of_ne {x : ServiceMoment ι} {h : List (ServiceMoment ι)} (hx : x.thread ≠ i) :
    inFlight i (x :: h) = inFlight i h := if_neg hx

theorem inFlight_of_eq {x : ServiceMoment ι} {h : List (ServiceMoment ι)} (hx : x.thread = i) :
    inFlight i (x :: h) = (takes x.what).getD (inFlight i h) := if_pos hx

/-- An event that is neither a claim nor an end leaves in flight what is. -/
theorem inFlight_of_takes {x : ServiceMoment ι} {h : List (ServiceMoment ι)}
    (hx : takes x.what = none) (j : ι) : inFlight j (x :: h) = inFlight j h := by
  by_cases hj : x.thread = j
  · rw [inFlight_of_eq hj, hx, Option.getD_none]
  · exact inFlight_of_ne hj

/-- An event that says something only of the sweep that the thread has in flight. -/
theorem keeps_event {x : ServiceMoment ι} {s : Shared} (hinv : Orderly w)
    (htakes : takes x.what = none)
    (hown : ∀ id, eventOf id x.what ≠ none → inFlight i w.history = some id)
    (hrunning : s.running = w.shared.running) (hminted : s.minted = w.shared.minted)
    (hstored : ∀ id sweep, lastPut (log id (x :: w.history)) = some sweep →
      s.sweeps.get id = some sweep) :
    (serviceOutline ι).Keeps i w ⟨s, x :: w.history⟩ := by
  have hlog {id : String} (h : inFlight i w.history ≠ some id) :
      log id (x :: w.history) = log id w.history := by
    have hnone : eventOf id x.what = none := by
      by_contra hne
      exact h (hown id hne)
    rw [log_cons, hnone, Option.toList_none, List.nil_append]
  refine ⟨⟨?_, ?_, ?_, ?_, hstored, ?_⟩, fun j hji ↦ ⟨inFlight_of_takes htakes j, fun id hj ↦ ?_⟩⟩
  · simp only [inFlight_of_takes htakes, hrunning, hminted]
    exact hinv.flag
  · simp only [inFlight_of_takes htakes]
    exact hinv.single
  · simp only [inFlight_of_takes htakes, hrunning]
    exact hinv.held
  · intro id hid
    simp only [inFlight_of_takes htakes] at hid
    rw [hlog (hid i)]
    exact hinv.ended id hid
  · intro id hid
    rw [hminted]
    by_cases hflight : inFlight i w.history = some id
    · exact (hinv.flag i id hflight).2.2
    · exact hinv.minted id (hlog hflight ▸ hid)
  · refine hlog fun hid ↦ hji (hinv.single j i ?_ ?_)
    · rw [hj]; rfl
    · rw [hid]; rfl

/-- An operation that neither claims a sweep nor ends one, and that says nothing of any other than
this one. -/
def Only (id : String) : ServiceOp → Prop
  | .claim | .finish _ => False
  | .putSweep sweep | .publish sweep | .answer (.ok sweep) => sweep.sweepID = id
  | _ => True

theorem effect_claim_free {e : ServiceEnv} {s : Shared} (h : s.running = "") :
    serviceEffect e s .claim =
      (.ok e.newID, { s with running := e.newID, minted := e.newID :: s.minted }) :=
  if_neg (not_not.mpr h)

theorem effect_claim_busy {e : ServiceEnv} {s : Shared} (h : s.running ≠ "") :
    serviceEffect e s .claim = (.error s.running, s) := if_pos h

theorem effect_put_refused {e : ServiceEnv} {s : Shared} {err : String} (h : e.refusal = some err)
    (sweep : SpectrumSweep) : serviceEffect e s (.putSweep sweep) = (.error err, s) := by
  simp only [serviceEffect, h]

theorem effect_put {e : ServiceEnv} {s : Shared} (h : e.refusal = none) (sweep : SpectrumSweep) :
    serviceEffect e s (.putSweep sweep) = (.ok (), { s with sweeps := s.sweeps.put sweep }) := by
  simp only [serviceEffect, h]

/-- An operation that says nothing of a sweep. -/
def Silent : ServiceOp → Prop
  | .claim | .finish _ | .putSweep _ | .publish _ | .answer (.ok _) => False
  | _ => True

theorem Only.event (h : Only id op) {ans : serviceOps.Ans op} {id' : String}
    (hev : eventOf id' (.did op ans) ≠ none) : id' = id := by
  rcases op with _ | _ | _ | _ | sweep | sweep | ⟨_ | sweep⟩ | _ | _ | _
  case putSweep | publish | answer.ok =>
    have hid : sweep.sweepID = id := h
    rw [← hid]
    by_contra hne
    exact hev (if_neg (Ne.symm hne))
  case claim | finish => exact h.elim
  all_goals exact absurd rfl hev

theorem Silent.event (h : Silent op) (ans : serviceOps.Ans op) (id : String) :
    eventOf id (.did op ans) = none := by
  rcases op with _ | _ | _ | _ | _ | _ | ⟨_ | _⟩ | _ | _ | _
  case claim | finish | putSweep | publish | answer.ok => exact h.elim
  all_goals rfl

theorem Silent.only (h : Silent op) (id : String) : Only id op := by
  rcases op with _ | _ | _ | _ | _ | _ | ⟨_ | _⟩ | _ | _ | _
  case claim | finish | putSweep | publish | answer.ok => exact h.elim
  all_goals trivial

theorem Only.takes (h : Only id op) (ans : serviceOps.Ans op) : takes (.did op ans) = none := by
  rcases op with _ | _ | _ | _ | _ | _ | _ | _ | _ | _
  case claim | finish => exact h.elim
  all_goals rfl

theorem Only.flags (h : Only id op) (e : ServiceEnv) (s : Shared) :
    (serviceEffect e s op).2.running = s.running ∧
      (serviceEffect e s op).2.minted = s.minted := by
  rcases op with _ | _ | _ | _ | _ | _ | _ | _ | _ | _
  case claim | finish => exact h.elim
  case putSweep sweep =>
    rcases hrefusal : e.refusal with _ | err
    · rw [effect_put hrefusal]
      exact ⟨rfl, rfl⟩
    · rw [effect_put_refused hrefusal]
      exact ⟨rfl, rfl⟩
  all_goals exact ⟨rfl, rfl⟩

theorem lastPut_cons (ev : SweepEvent) (l : List SweepEvent) :
    lastPut (ev :: l) = match ev with | .put sweep true => some sweep | _ => lastPut l := by
  rw [lastPut, List.findSome?_cons]
  rcases ev with _ | ⟨sweep, accepted⟩ | _ | _ | _ <;> try rfl
  cases accepted <;> rfl

/-- Only a write changes the store, and it is logged. -/
theorem sweeps_effect (e : ServiceEnv) (s : Shared) (op : ServiceOp) :
    (∃ sweep, op = .putSweep sweep ∧ e.refusal = none) ∨
      (serviceEffect e s op).2.sweeps = s.sweeps ∧
        ∀ id l, lastPut ((eventOf id (.did op (serviceEffect e s op).1)).toList ++ l) =
          lastPut l := by
  have hquiet {ev : Option SweepEvent} (hev : ∀ sweep, ev ≠ some (.put sweep true))
      (l : List SweepEvent) : lastPut (ev.toList ++ l) = lastPut l := by
    rcases ev with _ | ev
    · rfl
    · rw [Option.toList_some, List.singleton_append, lastPut_cons]
      split
      · exact absurd rfl (hev _)
      · rfl
  rcases op with _ | _ | _ | _ | sweep | sweep | ⟨_ | sweep⟩ | _ | ⟨id, raw⟩ | id'
  case putSweep =>
    rcases hrefusal : e.refusal with _ | err
    · exact .inl ⟨sweep, rfl, rfl⟩
    · rw [effect_put_refused hrefusal]
      refine .inr ⟨rfl, fun id l ↦ hquiet (fun other ↦ ?_) l⟩
      by_cases hid : sweep.sweepID = id
      · rw [eventOf_put hid]
        simp [Except.isOk, Except.toBool]
      · rw [eventOf_put_ne hid]
        exact Option.some_ne_none _ ∘ Eq.symm
  case claim =>
    refine .inr ⟨?_, fun id l ↦ hquiet (eventOf_ne_put (fun _ ↦ by simp) _ id) l⟩
    by_cases hfree : s.running = ""
    · rw [effect_claim_free hfree]
    · rw [effect_claim_busy hfree]
  case finish =>
    refine .inr ⟨?_, fun id l ↦ hquiet (eventOf_ne_put (fun _ ↦ by simp) _ id) l⟩
    rw [serviceEffect]
    split <;> rfl
  all_goals exact .inr ⟨rfl, fun id l ↦ hquiet (eventOf_ne_put (fun _ ↦ by simp) _ id) l⟩

/-- The store has what it has taken last of each sweep. -/
theorem stored_act {o : ServiceOp} (hinv : Orderly w) (id : String) (sweep : SpectrumSweep)
    (h : lastPut (log id ((service decode).act i e w o).history) = some sweep) :
    ((service decode).act i e w o).shared.sweeps.get id = some sweep := by
  rw [Component.act, log_cons] at h
  rcases sweeps_effect e w.shared o with ⟨written, rfl, hrefusal⟩ | ⟨hsame, hlast⟩
  · simp only [service, effect_put hrefusal] at h
    simp only [Component.act, service, effect_put hrefusal, Keyed.get_put]
    by_cases hid : written.sweepID = id
    · rw [eventOf_put hid, Option.toList_some, List.singleton_append, lastPut_cons] at h
      rw [if_pos hid.symm]
      exact h
    · rw [eventOf_put_ne hid] at h
      rw [if_neg (Ne.symm hid)]
      exact hinv.stored id sweep h
  · show (serviceEffect e w.shared o).2.sweeps.get id = some sweep
    rw [hsame]
    exact hinv.stored id sweep ((hlast id _).symm.trans h)

theorem keeps_silent (hinv : Orderly w) (hop : Silent op) :
    (serviceOutline ι).Keeps i w ((service decode).act i e w op) := by
  obtain ⟨hrunning, hminted⟩ := (hop.only "").flags e w.shared
  exact keeps_event hinv ((hop.only "").takes _) (fun id hev ↦ absurd (hop.event _ id) hev) hrunning
    hminted fun id sweep ↦ stored_act decode hinv id sweep

theorem keeps_only (hinv : Orderly w) (hat : At i id l w) (hop : Only id op) :
    (serviceOutline ι).Keeps i w ((service decode).act i e w op) ∧
      At i id ((eventOf id (.did op (serviceEffect e w.shared op).1)).toList ++ l)
        ((service decode).act i e w op) := by
  obtain ⟨hrunning, hminted⟩ := hop.flags e w.shared
  refine ⟨keeps_event hinv (hop.takes _) (fun id' hev ↦ hop.event hev ▸ hat.1) hrunning hminted
    fun id sweep ↦ stored_act decode hinv id sweep, ?_, ?_⟩
  · exact (inFlight_of_takes (hop.takes _) i).trans hat.1
  · rw [Component.act, log_cons, hat.2]
    rfl

/-- A claim that is granted: nothing was in flight. -/
theorem keeps_claim (hinv : Orderly w) (hfree : w.shared.running = "")
    (hmints : Mints e w.shared .claim) :
    (serviceOutline ι).Keeps i w ((service decode).act i e w .claim) ∧
      At i e.newID [.claimed] ((service decode).act i e w .claim) := by
  obtain ⟨hne, hfresh⟩ := hmints
  have hnone (j : ι) : inFlight j w.history = none := by
    refine Option.eq_none_iff_forall_ne_some.mpr fun id hid ↦ ?_
    obtain ⟨hflag, hid, -⟩ := hinv.flag j id hid
    exact hid (hflag.symm.trans hfree)
  have hact : (service decode).act i e w .claim =
      ⟨{ w.shared with running := e.newID, minted := e.newID :: w.shared.minted },
        ⟨w.shared, i, .did .claim (.ok e.newID)⟩ :: w.history⟩ := by
    simp only [Component.act, service, effect_claim_free hfree]
  have hstored := stored_act decode (i := i) (e := e) (o := .claim) hinv
  rw [hact] at hstored ⊢
  have hmine : inFlight i (⟨w.shared, i, .did .claim (.ok e.newID)⟩ :: w.history) = some e.newID :=
    inFlight_of_eq rfl
  have hothers {j : ι} (hj : j ≠ i) :
      inFlight j (⟨w.shared, i, .did .claim (.ok e.newID)⟩ :: w.history) = none :=
    (inFlight_of_ne (Ne.symm hj)).trans (hnone j)
  have honly {j : ι} {id : String}
      (hj : inFlight j (⟨w.shared, i, .did .claim (.ok e.newID)⟩ :: w.history) = some id) :
      j = i ∧ id = e.newID := by
    by_cases hji : j = i
    · rw [hji, hmine] at hj
      exact ⟨hji, (Option.some.inj hj).symm⟩
    · rw [hothers hji] at hj
      cases hj
  have hlog {id : String} (hid : e.newID ≠ id) :
      log id (⟨w.shared, i, .did .claim (.ok e.newID)⟩ :: w.history) = log id w.history := by
    rw [log_cons, eventOf_claim_ne hid]
    rfl
  have hnew : log e.newID w.history = [] := by
    by_contra hlogged
    exact hfresh (hinv.minted _ hlogged)
  refine ⟨⟨⟨?_, ?_, fun _ ↦ ⟨i, hmine⟩, ?_, hstored, ?_⟩, fun j hji ↦ ⟨?_, ?_⟩⟩, hmine, ?_⟩
  · intro j id hj
    obtain ⟨-, rfl⟩ := honly hj
    exact ⟨rfl, hne, List.mem_cons_self⟩
  · intro j j' hj hj'
    obtain ⟨id, hj⟩ := Option.isSome_iff_exists.mp hj
    obtain ⟨id', hj'⟩ := Option.isSome_iff_exists.mp hj'
    exact (honly hj).1.trans (honly hj').1.symm
  · intro id hid
    rw [hlog fun heq ↦ hid i (hmine.trans (congrArg some heq))]
    exact hinv.ended id fun j hj ↦ by rw [hnone j] at hj; cases hj
  · intro id hid
    by_cases heq : e.newID = id
    · exact heq ▸ List.mem_cons_self
    · exact List.mem_cons_of_mem _ (hinv.minted id (hlog heq ▸ hid))
  · rw [hothers hji, hnone j]
  · intro id hj
    rw [hnone j] at hj
    cases hj
  · rw [log_cons, hnew, eventOf_claim rfl]
    rfl

theorem keeps_busy (hinv : Orderly w) (hbusy : w.shared.running ≠ "") :
    (serviceOutline ι).Keeps i w ((service decode).act i e w .claim) := by
  have hact : (service decode).act i e w .claim =
      ⟨w.shared, ⟨w.shared, i, .did .claim (.error w.shared.running)⟩ :: w.history⟩ := by
    simp only [Component.act, service, effect_claim_busy hbusy]
  rw [hact]
  refine keeps_event hinv rfl (fun id hev ↦ absurd rfl hev) rfl rfl fun id sweep h ↦ ?_
  rw [log_cons] at h
  exact hinv.stored id sweep h

/-- The sweep ends, and all that is said of it has been said. -/
theorem keeps_finish (hinv : Orderly w) (hat : At i id l w) (hended : Ended (.finished :: l)) :
    (serviceOutline ι).Keeps i w ((service decode).act i e w (.finish id)) := by
  have hact : (service decode).act i e w (.finish id) =
      ⟨{ w.shared with running := "" }, ⟨w.shared, i, .did (.finish id) ()⟩ :: w.history⟩ := by
    simp [Component.act, service, serviceEffect, (hinv.flag i id hat.1).1]
  have hstored := stored_act decode (i := i) (e := e) (o := .finish id) hinv
  rw [hact] at hstored ⊢
  have hnone (j : ι) :
      inFlight j (⟨w.shared, i, .did (.finish id) ()⟩ :: w.history) = none := by
    by_cases hji : j = i
    · exact inFlight_of_eq hji.symm
    · rw [inFlight_of_ne (Ne.symm hji)]
      by_contra hsome
      exact hji (hinv.single j i (Option.isSome_iff_ne_none.mpr hsome) (by rw [hat.1]; rfl))
  have hlog {id' : String} (hid : id ≠ id') :
      log id' (⟨w.shared, i, .did (.finish id) ()⟩ :: w.history) = log id' w.history := by
    rw [log_cons, eventOf_finish_ne hid]
    rfl
  have hmine : log id (⟨w.shared, i, .did (.finish id) ()⟩ :: w.history) = .finished :: l := by
    rw [log_cons, hat.2, eventOf_finish rfl]
    rfl
  refine ⟨⟨?_, ?_, fun h ↦ absurd rfl h, ?_, hstored, ?_⟩, fun j hji ↦ ⟨?_, ?_⟩⟩
  · intro j id' hj
    rw [hnone j] at hj
    cases hj
  · intro j j' hj
    rw [hnone j] at hj
    cases hj
  · intro id' _
    by_cases heq : id = id'
    · rw [← heq, hmine]
      exact hended
    · rw [hlog heq]
      refine hinv.ended id' fun j hj ↦ ?_
      obtain rfl := hinv.single j i (by rw [hj]; rfl) (by rw [hat.1]; rfl)
      exact heq (Option.some.inj (hat.1.symm.trans hj))
  · intro id' hid
    by_cases heq : id = id'
    · exact heq ▸ (hinv.flag i id hat.1).2.2
    · exact hinv.minted id' (hlog heq ▸ hid)
  · exact inFlight_of_ne (Ne.symm hji)
  · intro id' hj
    refine hlog fun heq ↦ hji ?_
    exact hinv.single j i (by rw [hj]; rfl) (by rw [hat.1]; rfl)

/-! ### The programs -/

section proves

variable {Q : Unit → ServiceWorld ι → Prop} {α : Type} {Q' : α → ServiceWorld ι → Prop}

theorem proves_silent {next : serviceOps.Ans op → ServiceProgram α} (hop : Silent op)
    (hnext : ∀ ans w, (serviceOutline ι).Proves (service decode) i k Q' (next ans) w) :
    (serviceOutline ι).Proves (service decode) i k Q' (.perform op next) w :=
  fun _ hw _ _ _ ↦ ⟨trivial, keeps_silent decode hw.2.2 hop, hnext _ _⟩

theorem proves_only {next : serviceOps.Ans op → ServiceProgram α} (hat : At i id l w)
    (hop : Only id op)
    (hnext : ∀ ans w, At i id ((eventOf id (.did op ans)).toList ++ l) w →
      (serviceOutline ι).Proves (service decode) i k Q' (next ans) w) :
    (serviceOutline ι).Proves (service decode) i k Q' (.perform op next) w := by
  intro w₁ hw e _ _
  obtain ⟨hkeeps, hat₁⟩ := keeps_only decode (e := e) hw.2.2 (hat.finds hw) hop
  exact ⟨trivial, hkeeps, hnext _ _ hat₁⟩

variable {sweep first : SpectrumSweep}

theorem proves_put {next : Except String Unit → ServiceProgram α} (hat : At i id l w)
    (hid : sweep.sweepID = id)
    (hnext : ∀ ans w, At i id (.put sweep ans.isOk :: l) w →
      (serviceOutline ι).Proves (service decode) i k Q' (next ans) w) :
    (serviceOutline ι).Proves (service decode) i k Q' (.perform (.putSweep sweep) next) w := by
  refine proves_only decode hat hid fun ans w₁ hat₁ ↦ hnext ans w₁ ?_
  rwa [eventOf_put hid] at hat₁

theorem proves_publish {next : Unit → ServiceProgram α} (hat : At i id l w)
    (hid : sweep.sweepID = id)
    (hnext : ∀ w, At i id (.published sweep :: l) w →
      (serviceOutline ι).Proves (service decode) i k Q' (next ()) w) :
    (serviceOutline ι).Proves (service decode) i k Q' (.perform (.publish sweep) next) w := by
  refine proves_only decode hat hid fun ans w₁ hat₁ ↦ hnext w₁ ?_
  rwa [eventOf_publish hid] at hat₁

theorem proves_answer {next : Unit → ServiceProgram α} (hat : At i id l w)
    (hid : sweep.sweepID = id)
    (hnext : ∀ w, At i id (.started sweep :: l) w →
      (serviceOutline ι).Proves (service decode) i k Q' (next ()) w) :
    (serviceOutline ι).Proves (service decode) i k Q' (.perform (.answer (.ok sweep)) next) w := by
  refine proves_only decode hat hid fun ans w₁ hat₁ ↦ hnext w₁ ?_
  rwa [eventOf_answer hid] at hat₁

/-- The thread has its sweep in flight still, and all but the end has been said of it. -/
def Through (i : ι) (id : String) (w : ServiceWorld ι) : Prop :=
  ∃ l, At i id l w ∧ Ended (.finished :: l)

theorem proves_finish (hw : Through i id w) (hQ : ∀ w, Q () w) :
    (serviceOutline ι).Proves (service decode) i k Q (Program.call serviceOps (.finish id)) w := by
  intro w₁ hw₁ e _ _
  obtain ⟨l, hat, hended⟩ := hw
  exact ⟨trivial, keeps_finish decode hw₁.2.2 (hat.finds hw₁) hended, hQ _⟩

theorem proves_recordFailure (hat : At i id (opening first) w) (hfirst : first.state = .running)
    (sweep : SpectrumSweep) (hid : sweep.sweepID = id) (err : String) :
    (serviceOutline ι).Proves (service decode) i k (fun _ w ↦ Through i id w)
      (recordFailure sweep err) w :=
  proves_put decode hat hid fun _ _ hat₁ ↦ proves_publish decode hat₁ hid fun _ hat₂ ↦
    ⟨_, hat₂, .failed hfirst rfl⟩

theorem proves_recordMeasurement (hat : At i id (opening first) w) (hfirst : first.state = .running)
    (sweep : SpectrumSweep) (hid : sweep.sweepID = id) (raw : GoBytes) (doc : Doc) :
    (serviceOutline ι).Proves (service decode) i k (fun _ w ↦ Through i id w)
      (recordMeasurement sweep raw doc) w := by
  refine proves_put decode hat hid fun ans w₁ hat₁ ↦ ?_
  rcases ans with err | ⟨⟩
  · exact ⟨_, hat₁, .silent hfirst rfl⟩
  · exact proves_only decode hat₁ trivial fun _ _ hat₂ ↦ proves_publish decode hat₂ hid fun _ hat₃ ↦
      ⟨_, hat₃, .completed hfirst rfl⟩

theorem proves_measure (hat : At i id (opening sweep) w) (hrunning : sweep.state = .running)
    (hid : sweep.sweepID = id) :
    (serviceOutline ι).Proves (service decode) i k (fun _ w ↦ Through i id w)
      (measure decode sweep) w := by
  refine proves_only decode hat trivial fun swept w₁ hat₁ ↦ ?_
  refine proves_only decode hat₁ trivial fun ended w₂ hat₂ ↦ ?_
  rw [Program.bind]
  dsimp only
  split
  · refine proves_recordFailure decode hat₂ hrunning _ ?_ _
    exact hid
  · split
    · refine proves_recordFailure decode hat₂ hrunning _ ?_ _
      exact hid
    · refine proves_recordMeasurement decode hat₂ hrunning _ ?_ _ _
      exact hid

theorem proves_run (hat : At i id (opening sweep) w) (hrunning : sweep.state = .running)
    (hid : sweep.sweepID = id) (hQ : ∀ w, Q () w) :
    (serviceOutline ι).Proves (service decode) i k Q (run decode sweep) w := by
  refine Outline.proves_bind.mpr
    ((proves_measure decode hat hrunning hid).mono fun _ w₁ hthrough ↦ ?_)
  rw [hid]
  exact proves_finish decode hthrough hQ

theorem proves_begin (hat : At i id [.claimed] w) (plan : Band) (hQ : ∀ w, Q () w) :
    (serviceOutline ι).Proves (service decode) i k Q (begin decode id plan) w := by
  refine proves_only decode hat trivial fun startedAt w₁ hat₁ ↦ ?_
  refine proves_put decode hat₁ rfl fun ans w₂ hat₂ ↦ ?_
  rw [Program.bind]
  rcases ans with err | ⟨⟩
  · refine Outline.proves_bind.mpr (proves_finish decode ⟨_, hat₂, .refused rfl⟩ fun w₃ ↦ ?_)
    exact proves_silent decode trivial fun _ ↦ hQ
  · exact proves_publish decode hat₂ rfl fun _ hat₃ ↦ proves_answer decode hat₃ rfl fun _ hat₄ ↦
      proves_run decode hat₄ rfl rfl hQ

theorem proves_start (band : String) (hQ : ∀ w, Q () w) :
    (serviceOutline ι).Proves (service decode) i k Q (start decode band) w := by
  have herror (r : StartError) (w : ServiceWorld ι) :
      (serviceOutline ι).Proves (service decode) i k Q (answer (.error r)) w :=
    proves_silent decode trivial fun _ ↦ hQ
  refine proves_silent decode trivial fun available w₁ ↦ ?_
  rcases available with ⟨_ | _, why⟩
  · exact herror _ _
  refine proves_silent decode trivial fun bands w₂ ↦ ?_
  rw [Program.bind]
  dsimp only
  split
  · exact herror _ _
  split
  · exact herror _ _
  · rename_i plan _
    intro w₃ hw₃ e hmints _
    by_cases hfree : w₃.shared.running = ""
    · obtain ⟨hkeeps, hat⟩ := keeps_claim decode (i := i) hw₃.2.2 hfree hmints
      have hans : ((service decode).effect i e w₃.shared .claim).1 = .ok e.newID := by
        simp only [service, effect_claim_free hfree]
      refine ⟨trivial, hkeeps, ?_⟩
      rw [hans]
      exact proves_begin decode hat plan hQ
    · have hans : ((service decode).effect i e w₃.shared .claim).1 =
          .error w₃.shared.running := by
        simp only [service, effect_claim_busy hfree]
      refine ⟨trivial, keeps_busy decode hw₃.2.2 hfree, ?_⟩
      rw [hans]
      exact herror _ _

end proves

/-- A call begins or returns. -/
theorem keeps_record (hinv : Orderly w) {what : What String serviceOps Unit}
    (hevent : ∀ id, eventOf id what = none) (htakes : takes what = none) :
    (serviceOutline ι).Keeps i w (w.record i what) := by
  refine keeps_event hinv htakes (fun id hev ↦ absurd (hevent id) hev) rfl rfl fun id sweep h ↦ ?_
  rw [log_cons, hevent] at h
  exact hinv.stored id sweep h

theorem serviceOutline_sound : (serviceOutline ι).Sound (service decode) := fun _ k _ _ hinv ↦
  ⟨keeps_record hinv (fun _ ↦ rfl) rfl,
    proves_start decode k fun _ _ hw ↦ keeps_record hw.2.2 (fun _ ↦ rfl) rfl⟩

end steps

/-! ## Whole runs -/

variable {decode : GoBytes → Except String Doc}
  {tr : Component.Trace ι String serviceOps Unit Shared ServiceEnv}
  {s : Component.State ι String serviceOps Unit Shared}

theorem orderly_of_run (h : (service decode).machine.Run tr s) : Orderly s.world := by
  refine (Outline.sound serviceOutline_lawful (serviceOutline_sound decode) ?_ h fun x _ ↦ ?_).inv
  · intro t ht
    exact ⟨fun _ _ h ↦ (nomatch h), fun _ _ h ↦ (nomatch h), fun hne ↦ absurd ht hne,
      fun _ _ ↦ .unclaimed, fun _ _ h ↦ (nomatch h), fun _ hne ↦ absurd rfl hne⟩
  · cases x.act <;> simp [Outline.Assumed, serviceOutline]

instance (e : ServiceEnv) (s : Shared) : (op : ServiceOp) → Decidable (Mints e s op)
  | .claim => inferInstanceAs (Decidable (_ ∧ _))
  | .available | .bands | .now | .putSweep _ | .publish _ | .answer _ | .sweep _
  | .putSweepBins _ _ | .finish _ => .isTrue trivial

instance {ι : Type} (decode : GoBytes → Except String Doc) (i : ι) (k : String) :
    Decidable ((service decode).admits i k) := .isTrue trivial

instance {ι : Type} (decode : GoBytes → Except String Doc) (i : ι) (e : ServiceEnv) (s : Shared)
    (op : ServiceOp) : Decidable ((service decode).ready i e s op) :=
  inferInstanceAs (Decidable (Mints e s op))

/-- A band of one step. -/
def band : Band := ⟨"fpv_1g2", "B", "", 1200000000, 1300000000, 1⟩

/-- Every document reads as a sweep of the band in which nothing was measured. -/
def decodeNothing (_ : GoBytes) : Except String Doc := .ok ⟨"fpv_1g2", none, none, [], []⟩

/-- Nothing has been swept yet. -/
def nothingSwept : Shared := ⟨"", .empty, []⟩

/-- One sweep, from `Start` to its end.  The store answers the record of what was measured with
`refusal`. -/
def oneSweep (refusal : Option String) : List (Turn Unit String ServiceEnv) :=
  ([.start () "fpv_1g2", .step () {}, .step () { bands := .ok [band] }, .step () { newID := "S1" },
    .step () { now := 5 }, .step () {}, .step () {}, .step () {}, .step () {},
    .step () { now := 9 }, .step () { refusal := refusal }] : List (Turn Unit String ServiceEnv)) ++
    -- a record that is refused is the last
    (if refusal.isNone then [.step () {}, .step () {}] else [] : List (Turn Unit String ServiceEnv)) ++
      ([.step () {}, .finish ()] : List (Turn Unit String ServiceEnv))

/-- Its record once it has been measured. -/
def measured : SpectrumSweep :=
  { runningSweep "S1" band 5 with state := .completed, endedAt := some 9, steps := 0 }

end ClassG.Spectrum
