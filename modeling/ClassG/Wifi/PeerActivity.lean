import Mathlib.Data.String.Basic
import ClassG.ForGo.Bytes
import ClassG.ForPython.Datetime
import ClassG.ForPython.Json
import ClassG.Machine

/-!
# Peer activity

`PeerActivity` of `classg_wifi/bus.py` reads the tracks that fusion publishes, and remembers when
there was last one that another receiver is hearing right now: one of its contributors is another
sensor, and was last heard within `active_for_s` of the one that was heard last.

The time stamps are compared as texts to find the last one, and as datetimes after that.
`poll_of_regular` says of which messages that gives the right answer, and does not raise.
-/

set_option autoImplicit false

namespace ClassG.Wifi

open PyDatetime Machine

/-- What escapes from a poll. -/
inductive Escaped
  /-- `TypeError`. -/
  | typeError
  /-- `RecursionError`. -/
  | recursionError
  deriving DecidableEq

structure PeerActivity where
  sensorId : String
  activeForS : ℚ
  messages : ℕ
  parseErrors : ℕ
  lastPeerAt : Option ℚ

/-- `_within`. -/
def within (stamp : PyJson) (newest : String) (windowS : ℚ) : Except Escaped Bool :=
  match stamp with
  | .str stamp =>
    match fromisoformat (replaceZ stamp.toList), fromisoformat (replaceZ newest.toList) with
    | some a, some b =>
      match sub b a with
      | some d => .ok (|Double.nearest (d / 1000000)| ≤ windowS)
      | none => .error .typeError
    | _, _ => .ok false
  | _ => .ok false

/-- The `last_seen` of an entry, if it is a text. -/
def stampOf : PyJson → Option String
  | .dict entry =>
    match PyJson.get entry "last_seen" with
    | .str stamp => some stamp
    | _ => none
  | _ => none

/-- The loop that looks for the newest stamp. -/
def newestFrom (newest : Option String) : List PyJson → Option String
  | [] => newest
  | entry :: receivers =>
    match stampOf entry with
    | some stamp =>
      if newest.all (· < stamp) then newestFrom (some stamp) receivers
      else newestFrom newest receivers
    | none => newestFrom newest receivers

namespace PeerActivity

/-- `entry.get("sensor_id") in (None, self.sensor_id)`. -/
def isOwn (p : PeerActivity) (entry : List (String × PyJson)) : Bool :=
  match PyJson.get entry "sensor_id" with
  | .none => true
  | .str id => id = p.sensorId
  | _ => false

/-- The loop that looks for an active peer. -/
def anyActive (p : PeerActivity) (newest : String) : List PyJson → Except Escaped Bool
  | [] => .ok false
  | .dict entry :: receivers =>
    if p.isOwn entry then p.anyActive newest receivers
    else do
      if ← within (PyJson.get entry "last_seen") newest p.activeForS then return true
      p.anyActive newest receivers
  | _ :: receivers => p.anyActive newest receivers

/-- `_names_an_active_peer`, from where it has the receivers. -/
def scan (p : PeerActivity) (receivers : List PyJson) : Except Escaped Bool :=
  match newestFrom none receivers with
  | some newest => p.anyActive newest receivers
  | none => .ok false

/-- `_names_an_active_peer`, of what `json.loads` makes of the body. -/
def namesAnActivePeer (p : PeerActivity) : Loaded → Except Escaped Bool × PeerActivity
  | .recursionError => (.error .recursionError, p)
  | .value (.dict track) =>
    let receivers := PyJson.get track "receivers"
    -- `or []`
    if receivers.truthy then
      match receivers.iter with
      | some receivers => (p.scan receivers, p)
      | none => (.error .typeError, p)
    else (p.scan [], p)
  -- A `ValueError`, or the `AttributeError` of a value that has no `get`.
  | _ => (.ok false, { p with parseErrors := p.parseErrors + 1 })

variable (loads : List Byte → Loaded)

/-- `poll`, with the messages that are there when it is called: what escapes from it, and the
messages that are left.  A message is its parts. -/
def poll (now : ℚ) : PeerActivity → List (List (List Byte)) →
    Option Escaped × PeerActivity × List (List (List Byte))
  | p, [] => (none, p, [])
  | p, parts :: queue =>
    let p := { p with messages := p.messages + 1 }
    match p.namesAnActivePeer (loads (parts.getLastD [])) with
    | (.error e, p) => (some e, p, queue)
    | (.ok true, p) => poll now { p with lastPeerAt := some now } queue
    | (.ok false, p) => poll now p queue

end PeerActivity

/-! ## What a message says -/

/-- The items of a list; what is none has no items. -/
def itemsOf : PyJson → List PyJson
  | .list items => items
  | _ => []

/-- The receivers of a track; what is none has no receivers. -/
def receiversOf : Loaded → List PyJson
  | .value (.dict track) => itemsOf (PyJson.get track "receivers")
  | _ => []

/-- The entry says when its sensor heard the aircraft last. -/
def Says (entry : PyJson) (r : Rendering) : Prop := ∃ s ∈ stampOf entry, s.toList = r.text

/-- The entry is of a sensor, and of another one than this. -/
def NamesPeer (sensorId : String) : PyJson → Prop
  | .dict entry => PyJson.get entry "sensor_id" ≠ .none ∧ PyJson.get entry "sensor_id" ≠ .str sensorId
  | _ => False

/-- **What peer activity is**: an entry of another sensor that is no older than `activeForS`, as
seconds are counted from the newest entry of the message. -/
def IsActivity (sensorId : String) (activeForS : ℚ) (message : Loaded) : Prop :=
  ∃ entry ∈ receiversOf message, ∃ peer newest : Rendering,
    NamesPeer sensorId entry ∧ Says entry peer ∧
      (∃ entry ∈ receiversOf message, Says entry newest) ∧
      (∀ entry ∈ receiversOf message, ∀ r, Says entry r → r.instant ≤ newest.instant) ∧
      Double.nearest (newest.instant - peer.instant) ≤ activeForS

/-- The stamp is the greatest of the message, as a text. -/
def IsGreatest (message : Loaded) (s : String) : Prop :=
  (∃ entry ∈ receiversOf message, stampOf entry = some s) ∧
    ∀ entry ∈ receiversOf message, ∀ s' ∈ stampOf entry, s' ≤ s

/-- The messages that are read right. -/
structure Regular (message : Loaded) : Prop where
  /-- The text is not nested too deep. -/
  notDeep : message ≠ .recursionError
  /-- The receivers can be gone through. -/
  iterable : ∀ track, message = .value (.dict track) →
    (PyJson.get track "receivers").truthy → (PyJson.get track "receivers").iter.isSome
  /-- A stamp that is not a text of RFC 3339 is not read as a datetime. -/
  refused : ∀ entry ∈ receiversOf message, ∀ s ∈ stampOf entry,
    (∃ r, Says entry r) ∨ fromisoformat (replaceZ s.toList) = none
  /-- A stamp that is one is a datetime of Python, to the microsecond. -/
  plain : ∀ entry ∈ receiversOf message, ∀ r, Says entry r → r.Exists ∧ r.fraction.length ≤ 6
  /-- All stamps have a zone, or none has. -/
  zones : ∀ entry ∈ receiversOf message, ∀ entry' ∈ receiversOf message, ∀ r r',
    Says entry r → Says entry' r' → r.zone.isSome = r'.zone.isSome
  /-- The stamp that is the greatest as a text is the newest. -/
  newest : ∀ s, IsGreatest message s → (∃ entry ∈ receiversOf message, ∃ r, Says entry r) →
    ∃ r : Rendering, s.toList = r.text ∧
      ∀ entry ∈ receiversOf message, ∀ r', Says entry r' → r'.instant ≤ r.instant

/-! ## Stamps -/

theorem newestFrom_eq_none {newest : Option String} {receivers : List PyJson}
    (h : newestFrom newest receivers = none) :
    newest = none ∧ ∀ entry ∈ receivers, stampOf entry = none := by
  induction receivers generalizing newest with
  | nil => exact ⟨h, fun _ hmem ↦ (List.not_mem_nil hmem).elim⟩
  | cons entry receivers ih =>
    rw [newestFrom] at h
    split at h
    · split at h
      · cases (ih h).1
      · rename_i hall
        obtain ⟨hnone, -⟩ := ih h
        rw [hnone] at hall
        exact absurd rfl hall
    · rename_i hstamp
      obtain ⟨hnone, hall⟩ := ih h
      exact ⟨hnone, List.forall_mem_cons.mpr ⟨hstamp, hall⟩⟩

/-- What the loop finds is one of the stamps, and the greatest of them. -/
theorem newestFrom_eq_some {newest : Option String} {receivers : List PyJson} {s : String}
    (h : newestFrom newest receivers = some s) :
    (newest = some s ∨ ∃ entry ∈ receivers, stampOf entry = some s) ∧ (∀ n ∈ newest, n ≤ s) ∧
      ∀ entry ∈ receivers, ∀ s' ∈ stampOf entry, s' ≤ s := by
  induction receivers generalizing newest with
  | nil =>
    rw [newestFrom] at h
    subst h
    exact ⟨.inl rfl, fun n hn ↦ (Option.some.inj hn).ge, fun _ hmem ↦ (List.not_mem_nil hmem).elim⟩
  | cons entry receivers ih =>
    rw [newestFrom] at h
    split at h
    · rename_i stamp hstamp
      split at h
      · rename_i hall
        obtain ⟨hfrom, hle, hrest⟩ := ih h
        have hs : stamp ≤ s := hle stamp rfl
        refine ⟨.inr ?_, fun n hn ↦ ?_, List.forall_mem_cons.mpr ⟨fun s' hs' ↦ ?_, hrest⟩⟩
        · rcases hfrom with hfrom | ⟨e, he, hfrom⟩
          · exact ⟨entry, List.mem_cons_self, hstamp.trans hfrom⟩
          · exact ⟨e, List.mem_cons_of_mem _ he, hfrom⟩
        · rw [Option.mem_def.mp hn] at hall
          exact (of_decide_eq_true hall).le.trans hs
        · rw [hstamp] at hs'
          exact Option.some.inj hs' ▸ hs
      · rename_i hall
        obtain ⟨hfrom, hle, hrest⟩ := ih h
        obtain ⟨n, rfl, hn⟩ : ∃ n, newest = some n ∧ stamp ≤ n := by
          cases newest with
          | none => exact absurd rfl hall
          | some n => exact ⟨n, rfl, not_lt.mp (by simpa using hall)⟩
        refine ⟨?_, hle, List.forall_mem_cons.mpr ⟨fun s' hs' ↦ ?_, hrest⟩⟩
        · rcases hfrom with hfrom | ⟨e, he, hfrom⟩
          · exact .inl hfrom
          · exact .inr ⟨e, List.mem_cons_of_mem _ he, hfrom⟩
        · rw [hstamp] at hs'
          exact Option.some.inj hs' ▸ hn.trans (hle n rfl)
    · rename_i hstamp
      obtain ⟨hfrom, hle, hrest⟩ := ih h
      refine ⟨?_, hle, List.forall_mem_cons.mpr ⟨fun s' hs' ↦ ?_, hrest⟩⟩
      · rcases hfrom with hfrom | ⟨e, he, hfrom⟩
        · exact .inl hfrom
        · exact .inr ⟨e, List.mem_cons_of_mem _ he, hfrom⟩
      · rw [hstamp] at hs'
        cases hs'

theorem fromisoformat_of_says {s : String} {r : Rendering} (hs : s.toList = r.text)
    (hr : r.Exists) : fromisoformat (replaceZ s.toList) = some r.datetime := by
  rw [hs, fromisoformat_text, if_pos hr]

/-- Two stamps that can be compared are as far apart as their instants. -/
theorem within_of_says {s newest : String} {windowS : ℚ} {r r' : Rendering}
    (hs : s.toList = r.text) (hnewest : newest.toList = r'.text)
    (hr : r.Exists ∧ r.fraction.length ≤ 6) (hr' : r'.Exists ∧ r'.fraction.length ≤ 6)
    (hzone : r'.zone.isSome = r.zone.isSome) (hle : r.instant ≤ r'.instant) :
    within (.str s) newest windowS =
      .ok (decide (Double.nearest (r'.instant - r.instant) ≤ windowS)) := by
  obtain ⟨d, hsub, hd⟩ := sub_datetime hr'.2 hr.2 hzone
  have hpos : 0 ≤ Double.nearest (r'.instant - r.instant) :=
    Double.le_nearest Double.representable_zero (sub_nonneg.mpr hle)
  rw [within, fromisoformat_of_says hs hr.1, fromisoformat_of_says hnewest hr'.1]
  dsimp only
  rw [hsub]
  dsimp only
  rw [hd, abs_of_nonneg hpos]

/-- The `last_seen` of an entry. -/
def lastSeen : PyJson → PyJson
  | .dict entry => PyJson.get entry "last_seen"
  | _ => .none

theorem within_of_stampOf_eq_none {entry : PyJson} (h : stampOf entry = none) (newest : String)
    (windowS : ℚ) : within (lastSeen entry) newest windowS = .ok false := by
  cases entry with
  | dict entry =>
    rw [stampOf] at h
    rw [lastSeen, within.eq_def]
    cases hget : PyJson.get entry "last_seen" <;> first | rfl | (rw [hget] at h; cases h)
  | _ => rfl

theorem lastSeen_of_stampOf {entry : PyJson} {s : String} (h : stampOf entry = some s) :
    lastSeen entry = .str s := by
  cases entry with
  | dict entry =>
    rw [stampOf] at h
    rw [lastSeen]
    cases hget : PyJson.get entry "last_seen" <;> rw [hget] at h <;> cases h
    rfl
  | _ => cases h

variable {message : Loaded} {newest : String} {windowS : ℚ}

/-- **The step of the search**: of a regular message, the comparison with the greatest stamp tells
whether the entry is young enough. -/
theorem within_of_regular (h : Regular message) (hnewest : IsGreatest message newest)
    {entry : PyJson} (hentry : entry ∈ receiversOf message) :
    ∃ b, within (lastSeen entry) newest windowS = .ok b ∧
      (b = true ↔ ∃ peer r : Rendering, Says entry peer ∧
        (∃ entry ∈ receiversOf message, Says entry r) ∧
        (∀ entry ∈ receiversOf message, ∀ r', Says entry r' → r'.instant ≤ r.instant) ∧
        Double.nearest (r.instant - peer.instant) ≤ windowS) := by
  cases hstamp : stampOf entry with
  | none =>
    refine ⟨false, within_of_stampOf_eq_none hstamp _ _, iff_of_false Bool.false_ne_true ?_⟩
    rintro ⟨peer, r, ⟨s, hs, -⟩, -⟩
    rw [hstamp] at hs
    cases hs
  | some s =>
    rw [lastSeen_of_stampOf hstamp]
    by_cases hsays : ∃ r, Says entry r
    · obtain ⟨r, hr⟩ := hsays
      obtain ⟨r', htext, hmax⟩ := h.newest newest hnewest ⟨entry, hentry, r, hr⟩
      obtain ⟨⟨e, he, hgreatest⟩, -⟩ := hnewest
      have hr' : Says e r' := ⟨newest, hgreatest, htext⟩
      have hwithin : ∀ {peer}, Says entry peer → within (.str s) newest windowS =
          .ok (decide (Double.nearest (r'.instant - peer.instant) ≤ windowS)) := by
        rintro peer ⟨s', hs', htext'⟩
        rw [hstamp] at hs'
        cases hs'
        have hpeer : Says entry peer := ⟨s, hstamp, htext'⟩
        exact within_of_says htext' htext (h.plain entry hentry peer hpeer) (h.plain e he r' hr')
          (h.zones e he entry hentry r' peer hr' hpeer) (hmax entry hentry peer hpeer)
      refine ⟨_, hwithin hr, ?_⟩
      rw [decide_eq_true_iff]
      constructor
      · exact fun hle ↦ ⟨r, r', hr, ⟨e, he, hr'⟩, hmax, hle⟩
      · rintro ⟨peer, r₁, hpeer, ⟨e₁, he₁, hr₁⟩, hmax₁, hle⟩
        -- Both are the newest, and the two texts of the entry are one.
        have heq : r₁.instant = r'.instant :=
          le_antisymm (hmax e₁ he₁ r₁ hr₁) (hmax₁ e he r' hr')
        have hsame := Except.ok.inj ((hwithin hr).symm.trans (hwithin hpeer))
        rw [heq] at hle
        rw [decide_eq_true hle] at hsame
        exact of_decide_eq_true hsame
    · refine ⟨false, ?_, iff_of_false Bool.false_ne_true fun ⟨peer, r, hr, _⟩ ↦ hsays ⟨peer, hr⟩⟩
      have hnone := (h.refused entry hentry s hstamp).resolve_left hsays
      rw [within, hnone]

/-! ## Messages -/

namespace PeerActivity

variable {p p' : PeerActivity}

theorem isOwn_iff (p : PeerActivity) (entry : List (String × PyJson)) :
    p.isOwn entry = true ↔ ¬NamesPeer p.sensorId (.dict entry) := by
  rw [isOwn, NamesPeer]
  cases PyJson.get entry "sensor_id" <;> simp

/-- The search stops at the first peer that is active, and where no comparison raises, it finds
one if there is any. -/
theorem anyActive_eq {receivers : List PyJson} {active : PyJson → Prop}
    (hwithin : ∀ entry ∈ receivers, ∃ b, within (lastSeen entry) newest p.activeForS = .ok b ∧
      (b = true ↔ active entry)) :
    ∃ b, p.anyActive newest receivers = .ok b ∧
      (b = true ↔ ∃ entry ∈ receivers, NamesPeer p.sensorId entry ∧ active entry) := by
  induction receivers with
  | nil => exact ⟨false, rfl, by simp⟩
  | cons entry receivers ih =>
    obtain ⟨⟨b, hb, hactive⟩, hrest⟩ := List.forall_mem_cons.mp hwithin
    obtain ⟨b', hb', hactive'⟩ := ih hrest
    -- What is not an active peer is passed over.
    have hskip : ¬(NamesPeer p.sensorId entry ∧ active entry) → (b' = true ↔
        ∃ e ∈ entry :: receivers, NamesPeer p.sensorId e ∧ active e) := by
      intro hno
      rw [hactive', List.exists_mem_cons_iff]
      exact (or_iff_right hno).symm
    cases entry with
    | dict entry =>
      by_cases hown : p.isOwn entry
      · refine ⟨b', ?_, hskip fun hpeer ↦ (p.isOwn_iff entry).mp hown hpeer.1⟩
        rw [anyActive, if_pos hown]
        exact hb'
      · have hpeer : NamesPeer p.sensorId (.dict entry) :=
          not_not.mp (mt (p.isOwn_iff entry).mpr hown)
        rw [anyActive, if_neg hown]
        rw [lastSeen] at hb
        rw [hb]
        cases b with
        | true => exact ⟨true, rfl, iff_of_true rfl ⟨_, List.mem_cons_self, hpeer, hactive.mp rfl⟩⟩
        | false => exact ⟨b', hb', hskip fun h ↦ Bool.false_ne_true (hactive.mpr h.2)⟩
    | _ => exact ⟨b', hb', hskip fun h ↦ h.1⟩

theorem scan_eq_false {receivers : List PyJson} (h : ∀ entry ∈ receivers, stampOf entry = none) :
    p.scan receivers = .ok false := by
  have hnone : newestFrom none receivers = none := by
    induction receivers with
    | nil => rfl
    | cons entry receivers ih =>
      obtain ⟨hentry, hrest⟩ := List.forall_mem_cons.mp h
      rw [newestFrom, hentry]
      exact ih hrest
  rw [scan, hnone]

/-- The characters of a text and the keys of a dictionary are no entries. -/
theorem scan_of_iter {v : PyJson} {items : List PyJson} (h : v.iter = some items) :
    p.scan items = p.scan (itemsOf v) := by
  cases v with
  | list items => exact congrArg p.scan (Option.some.inj h).symm
  | str s =>
    cases h
    refine (scan_eq_false fun entry hentry ↦ ?_).trans (scan_eq_false (by simp [itemsOf])).symm
    obtain ⟨c, -, rfl⟩ := List.mem_map.mp hentry
    rfl
  | dict items =>
    cases h
    refine (scan_eq_false fun entry hentry ↦ ?_).trans (scan_eq_false (by simp [itemsOf])).symm
    obtain ⟨item, -, rfl⟩ := List.mem_map.mp hentry
    rfl
  | _ => cases h

theorem itemsOf_of_falsy {v : PyJson} (h : v.truthy = false) : itemsOf v = [] := by
  cases v with
  | list items => simpa [PyJson.truthy, itemsOf] using h
  | _ => rfl

/-- Of receivers that are not a list there is nothing to be found. -/
theorem not_isActivity (h : receiversOf message = []) {sensorId : String} {activeForS : ℚ} :
    ¬IsActivity sensorId activeForS message := by
  rintro ⟨entry, hentry, -⟩
  rw [h] at hentry
  cases hentry

/-- **A message that is regular is read right.** -/
theorem namesAnActivePeer_of_regular (h : Regular message) :
    ∃ b p', p.namesAnActivePeer message = (.ok b, p') ∧
      (b = true ↔ IsActivity p.sensorId p.activeForS message) ∧
        p'.sensorId = p.sensorId ∧ p'.activeForS = p.activeForS ∧ p'.messages = p.messages ∧
          p'.lastPeerAt = p.lastPeerAt := by
  have hscan : ∃ b, p.scan (receiversOf message) = .ok b ∧
      (b = true ↔ IsActivity p.sensorId p.activeForS message) := by
    rw [scan]
    split
    · rename_i newest hnewest
      obtain ⟨hfrom, -, hgreatest⟩ := newestFrom_eq_some hnewest
      have hgreatest : IsGreatest message newest :=
        ⟨hfrom.resolve_left (by simp), hgreatest⟩
      obtain ⟨b, hb, hiff⟩ := p.anyActive_eq fun entry hentry ↦
        within_of_regular h hgreatest hentry
      refine ⟨b, hb, hiff.trans ?_⟩
      simp only [IsActivity, exists_and_left]
    · rename_i hnone
      have hstamps := (newestFrom_eq_none hnone).2
      refine ⟨false, rfl, iff_of_false Bool.false_ne_true ?_⟩
      rintro ⟨entry, hentry, peer, -, -, ⟨s, hs, -⟩, -⟩
      rw [hstamps entry hentry] at hs
      cases hs
  cases message with
  | recursionError => exact absurd rfl h.notDeep
  | valueError =>
    exact ⟨false, _, rfl, iff_of_false Bool.false_ne_true (not_isActivity rfl), rfl, rfl, rfl, rfl⟩
  | value v =>
    cases v with
    | dict track =>
      obtain ⟨b, hb, hiff⟩ := hscan
      rw [receiversOf] at hb
      have hiter := h.iterable track rfl
      suffices hcall : p.namesAnActivePeer (.value (.dict track)) = (.ok b, p) from
        ⟨b, p, hcall, hiff, rfl, rfl, rfl, rfl⟩
      rw [namesAnActivePeer]
      cases htruthy : (PyJson.get track "receivers").truthy with
      | true =>
        obtain ⟨items, hitems⟩ := Option.isSome_iff_exists.mp (hiter htruthy)
        rw [if_pos rfl, hitems, ← hb, ← scan_of_iter hitems]
      | false => rw [if_neg Bool.false_ne_true, ← hb, itemsOf_of_falsy htruthy]
    | _ =>
      exact ⟨false, _, rfl, iff_of_false Bool.false_ne_true (not_isActivity rfl), rfl, rfl, rfl,
        rfl⟩

/-! ## Polls -/

variable (loads : List Byte → Loaded)

/-- Some message of the queue says that a peer is active. -/
def AnyActivity (p : PeerActivity) (queue : List (List (List Byte))) : Prop :=
  ∃ parts ∈ queue, IsActivity p.sensorId p.activeForS (loads (parts.getLastD []))

/-- A poll that does what it is for: nothing escapes, nothing is left, and the time is taken down if
there is activity. -/
structure PollsRight (p : PeerActivity) (now : ℚ) (queue : List (List (List Byte))) : Prop where
  quiet : (p.poll loads now queue).1 = none
  drained : (p.poll loads now queue).2.2 = []
  same : (p.poll loads now queue).2.1.sensorId = p.sensorId ∧
    (p.poll loads now queue).2.1.activeForS = p.activeForS
  counted : (p.poll loads now queue).2.1.messages = p.messages + queue.length
  active : p.AnyActivity loads queue → (p.poll loads now queue).2.1.lastPeerAt = some now
  inactive : ¬p.AnyActivity loads queue →
    (p.poll loads now queue).2.1.lastPeerAt = p.lastPeerAt

variable {loads}

/-- The step lemma of the loop. -/
theorem PollsRight.cons {p₁ : PeerActivity} {now : ℚ} {parts : List (List Byte)}
    {queue : List (List (List Byte))} {b : Bool}
    (hcall : ({ p with messages := p.messages + 1 } : PeerActivity).namesAnActivePeer
      (loads (parts.getLastD [])) = (.ok b, p₁))
    (hiff : b = true ↔ IsActivity p.sensorId p.activeForS (loads (parts.getLastD [])))
    (hsame : p₁.sensorId = p.sensorId ∧ p₁.activeForS = p.activeForS ∧
      p₁.messages = p.messages + 1 ∧ p₁.lastPeerAt = p.lastPeerAt)
    (hrest : ∀ p, PollsRight loads p now queue) : p.PollsRight loads now (parts :: queue) := by
  obtain ⟨hid, hwindow, hmessages, hlast⟩ := hsame
  have hany : ∀ p₂ : PeerActivity, p₂.sensorId = p.sensorId → p₂.activeForS = p.activeForS →
      (p.AnyActivity loads (parts :: queue) ↔ b = true ∨ p₂.AnyActivity loads queue) := by
    intro p₂ hid hwindow
    rw [AnyActivity, AnyActivity, List.exists_mem_cons_iff, hiff, hid, hwindow]
  cases b with
  | true =>
    have hpoll : p.poll loads now (parts :: queue) =
        poll loads now { p₁ with lastPeerAt := some now } queue := by
      rw [poll, hcall]
    obtain ⟨hquiet, hdrained, hsame, hcounted, hactive, hinactive⟩ :=
      hrest { p₁ with lastPeerAt := some now }
    have htime : (poll loads now { p₁ with lastPeerAt := some now } queue).2.1.lastPeerAt =
        some now := by
      by_cases hmore : AnyActivity loads { p₁ with lastPeerAt := some now } queue
      · exact hactive hmore
      · exact hinactive hmore
    constructor <;> rw [hpoll]
    · exact hquiet
    · exact hdrained
    · exact ⟨hsame.1.trans hid, hsame.2.trans hwindow⟩
    · rw [hcounted, List.length_cons]
      dsimp only
      omega
    · exact fun _ ↦ htime
    · exact fun hno ↦ absurd ((hany p₁ hid hwindow).mpr (.inl rfl)) hno
  | false =>
    have hpoll : p.poll loads now (parts :: queue) = poll loads now p₁ queue := by
      rw [poll, hcall]
    have hany := (hany p₁ hid hwindow).trans (or_iff_right Bool.false_ne_true)
    obtain ⟨hquiet, hdrained, hsame, hcounted, hactive, hinactive⟩ := hrest p₁
    constructor <;> rw [hpoll]
    · exact hquiet
    · exact hdrained
    · exact ⟨hsame.1.trans hid, hsame.2.trans hwindow⟩
    · rw [hcounted, List.length_cons]
      omega
    · exact fun h ↦ hactive (hany.mp h)
    · exact fun h ↦ (hinactive (mt hany.mpr h)).trans hlast

theorem pollsRight_of_regular (now : ℚ) {queue : List (List (List Byte))}
    (h : ∀ parts ∈ queue, Regular (loads (parts.getLastD []))) (p : PeerActivity) :
    p.PollsRight loads now queue := by
  induction queue generalizing p with
  | nil =>
    exact ⟨rfl, rfl, ⟨rfl, rfl⟩, rfl, fun ⟨_, hmem, _⟩ ↦ (List.not_mem_nil hmem).elim,
      fun _ ↦ rfl⟩
  | cons parts queue ih =>
    obtain ⟨hparts, hqueue⟩ := List.forall_mem_cons.mp h
    obtain ⟨b, p₁, hcall, hiff, hid, hwindow, hmessages, hlast⟩ :=
      namesAnActivePeer_of_regular (p := { p with messages := p.messages + 1 }) hparts
    exact .cons hcall hiff ⟨hid, hwindow, hmessages, hlast⟩ (ih hqueue)

end PeerActivity

/-! ## Runs -/

/-- A poll: its time, and the messages that have come since the last one. -/
structure Poll where
  now : ℚ
  queue : List (List (List Byte))

variable (loads : List Byte → Loaded)

/-- The messages of the poll are regular. -/
def Poll.Meets (a : Poll) : Prop := ∀ parts ∈ a.queue, Regular (loads (parts.getLastD []))

/-- A subscriber from the moment it is built. -/
def polling (sensorId : String) (activeForS : ℚ) : Machine PeerActivity Poll where
  init p := p = ⟨sensorId, activeForS, 0, 0, none⟩
  next p a p' := p' = (p.poll loads a.now a.queue).2.1

/-- There is activity in the poll. -/
def Heard (x : Step PeerActivity Poll) : Prop := x.pre.AnyActivity loads x.act.queue

/-- When there was last activity. -/
def IsLastHeard (tr : List (Step PeerActivity Poll)) (now : ℚ) : Prop :=
  ∃ newer x older, tr = newer ++ x :: older ∧ Heard loads x ∧ x.act.now = now ∧
    ∀ y ∈ newer, ¬Heard loads y

variable {loads} {sensorId : String} {activeForS : ℚ} {tr : List (Step PeerActivity Poll)}
  {p : PeerActivity}

theorem isLastHeard_of_heard {x : Step PeerActivity Poll} (hx : Heard loads x) {now : ℚ} :
    IsLastHeard loads (x :: tr) now ↔ x.act.now = now := by
  constructor
  · rintro ⟨newer, y, older, heq, -, hnow, hnewer⟩
    rcases List.cons_eq_append_iff.mp heq with ⟨rfl, hcons⟩ | ⟨newer', rfl, -⟩
    · rw [(List.cons.inj hcons).1] at hnow
      exact hnow
    · exact absurd hx (hnewer x List.mem_cons_self)
  · exact fun hnow ↦ ⟨[], x, tr, rfl, hx, hnow, fun _ hmem ↦ (List.not_mem_nil hmem).elim⟩

theorem isLastHeard_of_not_heard {x : Step PeerActivity Poll} (hx : ¬Heard loads x) {now : ℚ} :
    IsLastHeard loads (x :: tr) now ↔ IsLastHeard loads tr now := by
  constructor
  · rintro ⟨newer, y, older, heq, hy, hnow, hnewer⟩
    rcases List.cons_eq_append_iff.mp heq with ⟨rfl, hcons⟩ | ⟨newer', rfl, htr⟩
    · rw [(List.cons.inj hcons).1] at hy
      exact absurd hy hx
    · exact ⟨newer', y, older, htr, hy, hnow, (List.forall_mem_cons.mp hnewer).2⟩
  · rintro ⟨newer, y, older, rfl, hy, hnow, hnewer⟩
    exact ⟨x :: newer, y, older, rfl, hy, hnow, List.forall_mem_cons.mpr ⟨hx, hnewer⟩⟩

/-- What a subscriber remembers: when there was last activity. -/
theorem remembers_of_meets (hr : Run (polling loads sensorId activeForS) tr p)
    (h : ∀ x ∈ tr, x.act.Meets loads) (now : ℚ) :
    p.lastPeerAt = some now ↔ IsLastHeard loads tr now := by
  refine hr.trace_invariant_of (C := fun _ a ↦ a.Meets loads)
    (I := fun tr p ↦ p.lastPeerAt = some now ↔ IsLastHeard loads tr now) h ?_ ?_
  · rintro p rfl
    refine iff_of_false (by simp) ?_
    rintro ⟨newer, x, older, hnil, -⟩
    simp at hnil
  · rintro tr p a _ - hi hmeets rfl
    have hright := PeerActivity.pollsRight_of_regular a.now hmeets p
    by_cases hheard : Heard loads ⟨p, a, (p.poll loads a.now a.queue).2.1⟩
    · rw [isLastHeard_of_heard hheard, hright.active hheard, Option.some.injEq]
    · rw [isLastHeard_of_not_heard hheard, hright.inactive hheard, hi]

/-- Noon of a day. -/
def noon : Rendering where
  date := ⟨2026, 8, 17⟩
  hour := 12
  minute := 0
  second := 0
  fraction := []
  zone := .utc
  year_mem := by decide
  date_valid := by decide
  time_valid := by decide
  fraction_valid := by simp
  zone_valid := by simp

theorem noon_text : "2026-08-17T12:00:00Z".toList = noon.text := by decide

/-- The entry of another receiver, which heard the aircraft last at noon. -/
def peerEntry : PyJson :=
  .dict [("sensor_id", .str "wifi-1"), ("last_seen", .str "2026-08-17T12:00:00Z")]

/-- What `json.loads` makes of a track with that entry, and of what is no JSON. -/
def loadsPeer (body : List Byte) : Loaded :=
  if body = GoBytes.ofASCII ("\x7b\"receivers\":[\x7b\"sensor_id\":\"wifi-1\"," ++
      "\"last_seen\":\"2026-08-17T12:00:00Z\"\x7d]\x7d") then
    .value (.dict [("receivers", .list [peerEntry])])
  else .valueError

theorem stampOf_peerEntry : stampOf peerEntry = some "2026-08-17T12:00:00Z" := by
  simp [stampOf, peerEntry, PyJson.get, List.lookup_cons]

theorem receiversOf_peerEntry :
    receiversOf (.value (.dict [("receivers", .list [peerEntry])])) = [peerEntry] := by
  simp [receiversOf, itemsOf, PyJson.get]

theorem regular_peerEntry : Regular (.value (.dict [("receivers", .list [peerEntry])])) := by
  have hplain : noon.Exists ∧ noon.fraction.length ≤ 6 := ⟨by decide, by decide⟩
  have hsame : ∀ {r : Rendering}, Says peerEntry r → (r.Exists ∧ r.fraction.length ≤ 6) ∧
      r.zone.isSome = noon.zone.isSome ∧ r.instant = noon.instant := by
    rintro r ⟨s, hs, htext⟩
    rw [stampOf_peerEntry] at hs
    cases hs
    exact same_of_text (htext.symm.trans noon_text) hplain
  have hmem : ∀ {entry}, entry ∈ receiversOf (.value (.dict [("receivers", .list [peerEntry])])) →
      entry = peerEntry := by
    intro entry hentry
    rwa [receiversOf_peerEntry, List.mem_singleton] at hentry
  refine ⟨by simp, ?_, ?_, ?_, ?_, ?_⟩
  · rintro track h -
    cases h
    simp [PyJson.get, PyJson.iter]
  · intro entry hentry s hs
    rw [hmem hentry] at hs ⊢
    refine .inl ⟨noon, s, hs, ?_⟩
    rw [stampOf_peerEntry] at hs
    cases hs
    exact noon_text
  · intro entry hentry r hr
    exact (hsame (hmem hentry ▸ hr)).1
  · intro entry hentry entry' hentry' r r' hr hr'
    exact (hsame (hmem hentry ▸ hr)).2.1.trans (hsame (hmem hentry' ▸ hr')).2.1.symm
  · rintro s ⟨⟨entry, hentry, hs⟩, -⟩ -
    rw [hmem hentry, stampOf_peerEntry] at hs
    cases hs
    exact ⟨noon, noon_text, fun entry hentry r hr ↦ (hsame (hmem hentry ▸ hr)).2.2.le⟩

/-- One message, with a topic before the track. -/
def peerPoll : Poll where
  now := 100
  queue := [[[], GoBytes.ofASCII ("\x7b\"receivers\":[\x7b\"sensor_id\":\"wifi-1\"," ++
      "\"last_seen\":\"2026-08-17T12:00:00Z\"\x7d]\x7d")]]

/-- What `json.loads` makes of a track whose receivers are a number. -/
def loadsFive (body : List Byte) : Loaded :=
  if body = GoBytes.ofASCII "\x7b\"receivers\":5\x7d" then .value (.dict [("receivers", .int 5)])
  else .valueError

/-- That track. -/
def fivePoll : Poll where
  now := 100
  queue := [[[], GoBytes.ofASCII "\x7b\"receivers\":5\x7d"]]

end ClassG.Wifi
