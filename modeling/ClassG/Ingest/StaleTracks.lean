import ClassG.ForGo.Strings
import ClassG.Program
import ClassG.Store.Accounts
import ClassG.Store.Mem

/-!
# Closing stale tracks

Fusion owns the life of a track: it sends documents, which `Ingestor.Track` stores, and in the end
that a track is closed.  If it restarts it forgets to, and then `StaleTrackCloser` closes what has
not been seen for long (`ingest/stale_tracks.go`).  It lists the stale tracks, and reads each of
them again before it writes the closed copy back.

Between that read and that write fusion's next document may be stored, and then it is lost
(`update_lost`).  `faithful_iff` says that nothing else can go wrong.

What follows from a message besides the write, the frames and the hooks, is left out.
-/

set_option autoImplicit false

namespace ClassG.Ingest

open Store

/-! ## Documents -/

/-- The document of a track: what is looked at here, the positions of its trail and the rest. -/
structure Document (π ρ : Type) where
  trackID : GoBytes
  state : String
  lastSeen : GoTime
  history : List π
  rest : ρ
  deriving DecidableEq

variable {π ρ : Type}

/-- The document with the state `CLOSED`. -/
def Document.close (t : Document π ρ) : Document π ρ := { t with state := "CLOSED" }

@[simp] theorem Document.close_trackID (t : Document π ρ) : t.close.trackID = t.trackID := rfl

@[simp] theorem Document.close_close (t : Document π ρ) : t.close.close = t.close := rfl

/-- The stored documents. -/
abbrev Tracks (π ρ : Type) : Type := Keyed (@Document.trackID π ρ)

/-- The filter of `ListTracks`, for the fields that the sweep sets. -/
def matchesTrack (q : TrackQuery) (t : Document π ρ) : Bool :=
  let states := set q.states
  !((states ≠ [] ∧ t.state ∉ states) ∨
    (q.since ≠ 0 ∧ t.lastSeen < q.since) ∨
    (q.lastSeenBefore ≠ 0 ∧ ¬t.lastSeen < q.lastSeenBefore))

/-- `ListTracks`. -/
def listTracks (s : Tracks π ρ) (q : TrackQuery) : List (Document π ρ) :=
  (paginate Document.lastSeen Document.trackID (s.rows.filter (matchesTrack q)) q.limit none).rows

/-! ## The calls -/

/-- What a document that is written comes from: fusion has sent it, or it is the closed copy of one
that was read. -/
inductive Origin
  | fusion
  | closing
  deriving DecidableEq

/-- What the calls ask of the store and of the recording switch. -/
inductive TrackOp (π ρ : Type)
  | recording
  | listTracks (q : TrackQuery)
  | getTrack (id : GoBytes)
  | upsertTrack (origin : Origin) (t : Document π ρ)

@[reducible] def trackOps (π ρ : Type) : Interface where
  Op := TrackOp π ρ
  Ans
    | .recording => Bool
    | .listTracks _ => Except StoreError (List (Document π ρ))
    | .getTrack _ => Except StoreError (Document π ρ)
    | .upsertTrack _ _ => Except StoreError Unit

abbrev TrackProgram (π ρ α : Type) := Program (trackOps π ρ) α

/-- A message on the track topic: what `json.Unmarshal` reads as the id of a closed track, and what
`DecodeTrack` makes of the body. -/
structure TrackMessage (π ρ : Type) where
  topic : String
  closedID : Option GoBytes
  decoded : Option (Document π ρ)

/-- The trail is cut to its last positions. -/
def truncate (maxHistory : ℤ) (t : Document π ρ) : Document π ρ :=
  if 0 < maxHistory ∧ maxHistory < t.history.length then
    { t with history := t.history.drop (t.history.length - maxHistory.toNat) }
  else t

section calls

variable (π ρ)

def recording : TrackProgram π ρ Bool := .call (trackOps π ρ) .recording

def listStored (q : TrackQuery) : TrackProgram π ρ (Except StoreError (List (Document π ρ))) :=
  .call (trackOps π ρ) (.listTracks q)

def getTrack (id : GoBytes) : TrackProgram π ρ (Except StoreError (Document π ρ)) :=
  .call (trackOps π ρ) (.getTrack id)

variable {π ρ}

def upsertTrack (origin : Origin) (t : Document π ρ) : TrackProgram π ρ (Except StoreError Unit) :=
  .call (trackOps π ρ) (.upsertTrack origin t)

/-- The message that a track is closed. -/
def trackClosed (id : GoBytes) : TrackProgram π ρ Unit := do
  match ← getTrack π ρ id with
  | .error _ => return ()
  | .ok t =>
    let _ ← upsertTrack .closing t.close
    return ()

/-- `Ingestor.Track`. -/
def track (maxHistory : ℤ) (m : TrackMessage π ρ) : TrackProgram π ρ Unit := do
  if ← recording π ρ then
    match m.closedID.filter fun id ↦ GoString.hasSuffix m.topic "closed" ∧ id ≠ [] with
    | some id => trackClosed id
    | none =>
      match m.decoded with
      | none => return ()
      | some t =>
        let _ ← upsertTrack .fusion (truncate maxHistory t)
        return ()
  else return ()

/-- The body of the loop of `closeMatching`. -/
def closeCandidate (stillStale : GoTime → Bool) (id : GoBytes) : TrackProgram π ρ Unit := do
  match ← getTrack π ρ id with
  | .error _ => return ()
  | .ok current =>
    if current.state = "CLOSED" ∨ current.lastSeen = 0 ∨ ¬stillStale current.lastSeen then
      return ()
    else
      let _ ← upsertTrack .closing current.close
      return ()

/-- Its loop. -/
def closeAll (stillStale : GoTime → Bool) : List (Document π ρ) → TrackProgram π ρ Unit
  | [] => return ()
  | candidate :: rest => do
    closeCandidate stillStale candidate.trackID
    closeAll stillStale rest

variable (π ρ)

/-- `closeMatching`. -/
def closeMatching (q : TrackQuery) (stillStale : GoTime → Bool) : TrackProgram π ρ Unit := do
  match ← listStored π ρ q with
  | .error _ => return ()
  | .ok page => closeAll stillStale page

/-- `Sweep`. -/
def sweep (ttl : GoDuration) (now : GoTime) : TrackProgram π ρ Unit := do
  if ttl ≤ 0 then return ()
  else
    let cutoff := now + GoDuration.neg ttl
    closeMatching π ρ
      { states := ["TENTATIVE", "CONFIRMED", "COASTING"], lastSeenBefore := cutoff,
        skipTotal := true, limit := maxLimit }
      fun lastSeen ↦ lastSeen ≠ 0 ∧ lastSeen < cutoff
    let horizon := now + ttl
    closeMatching π ρ
      { states := ["TENTATIVE", "CONFIRMED", "COASTING"], since := horizon, skipTotal := true,
        limit := maxLimit }
      fun lastSeen ↦ ¬lastSeen < horizon

end calls

/-! ## The component -/

/-- The subscriber of the track topic, and the sweep. -/
inductive Party
  | ingest
  | sweeper
  deriving DecidableEq

inductive TrackCall (π ρ : Type)
  | message (m : TrackMessage π ρ)
  | sweep (now : GoTime)

/-- Each party makes its own calls. -/
def Party.makes : Party → TrackCall π ρ → Prop
  | .ingest, .message _ | .sweeper, .sweep _ => True
  | _, _ => False

/-- What is up to the environment: whether the store fails, and whether recording is on. -/
structure TrackEnv where
  fails : Bool := false
  recording : Bool := true

/-- The document gets into the store. -/
def TrackEnv.Stores (e : TrackEnv) (t : Document π ρ) : Prop := e.fails = false ∧ t.trackID ≠ []

instance (e : TrackEnv) (t : Document π ρ) : Decidable (e.Stores t) :=
  inferInstanceAs (Decidable (_ ∧ _))

/-- What the operations do. -/
def trackEffect (e : TrackEnv) (s : Tracks π ρ) :
    (op : TrackOp π ρ) → (trackOps π ρ).Ans op × Tracks π ρ
  | .recording => (e.recording, s)
  | .listTracks q => (if e.fails then .error (.failed "list tracks") else .ok (listTracks s q), s)
  | .getTrack id => (if e.fails then .error (.failed "get track") else found (s.get id), s)
  | .upsertTrack _ t =>
    if e.Stores t then (.ok (), s.put t) else (.error (.failed "upsert track"), s)

/-- The two parties, over what is stored already. -/
def closing (ttl : GoDuration) (maxHistory : ℤ) (start : Tracks π ρ) :
    Component Party (TrackCall π ρ) (trackOps π ρ) Unit (Tracks π ρ) TrackEnv where
  init s := s = start
  admits := Party.makes
  program
    | .message m => track maxHistory m
    | .sweep now => sweep π ρ ttl now
  ready _ _ _ _ := True
  effect _ := trackEffect

/-! ## What the history says about a track -/

abbrev TrackWorld (π ρ : Type) := World Party (TrackCall π ρ) (trackOps π ρ) Unit (Tracks π ρ)
abbrev TrackMoment (π ρ : Type) := Moment Party (TrackCall π ρ) (trackOps π ρ) Unit (Tracks π ρ)

/-- The document of fusion's that the event stores. -/
def sentBy (id : GoBytes) (x : TrackMoment π ρ) : Option (Document π ρ) :=
  match x.what with
  | .did (.upsertTrack .fusion t) (.ok ()) => if t.trackID = id then some t else none
  | _ => none

/-- What fusion has sent of a track and the store has taken, latest first. -/
def sent (id : GoBytes) (h : List (TrackMoment π ρ)) : List (Document π ρ) :=
  h.filterMap (sentBy id)

/-- The last document, which may be from before the start. -/
def lastSent (start : Tracks π ρ) (id : GoBytes) (h : List (TrackMoment π ρ)) :
    Option (Document π ρ) :=
  (sent id h).head?.or (start.get id)

/-- The event is a read of the track. -/
def readsTrack (id : GoBytes) : What (TrackCall π ρ) (trackOps π ρ) Unit → Bool
  | .did (.getTrack id') _ => id' = id
  | _ => false

/-- The closed copy that the sweep stores with the event. -/
def sweptBy (x : TrackMoment π ρ) : Option (Document π ρ) :=
  match x.what with
  | .did (.upsertTrack .closing t) (.ok ()) => if x.thread = .sweeper then some t else none
  | _ => none

/-- What fusion has sent of a track since the sweep read it. -/
def sentSince (id : GoBytes) (h : List (TrackMoment π ρ)) : List (Document π ρ) :=
  sent id (since .sweeper (readsTrack id) h)

/-- No update is lost: of each track there is the last document that fusion has sent or a closing of
that one, and the sweep has never stored the closing of a document when one that was seen later had
been stored since it read it. -/
structure Faithful (start : Tracks π ρ) (w : TrackWorld π ρ) : Prop where
  last : ∀ id, w.shared.get id = lastSent start id w.history ∨
    w.shared.get id = (lastSent start id w.history).map .close
  newest : ∀ x older t, x :: older <:+ w.history → sweptBy x = some t →
    ∀ d ∈ sentSince t.trackID older, d.lastSeen ≤ t.lastSeen

/-- The write comes in time: of what fusion has sent since the sweep read the track, nothing was
seen later, and the last differs in nothing but its state. -/
def InTime (w : TrackWorld π ρ) (i : Party) (e : TrackEnv) : TrackOp π ρ → Prop
  | .upsertTrack .closing t => i = .sweeper → e.Stores t →
      (∀ d ∈ sentSince t.trackID w.history, d.lastSeen ≤ t.lastSeen) ∧
        ∀ d ∈ (sentSince t.trackID w.history).head?, d.close = t
  | _ => True

/-- The turn comes in time. -/
def ClosesInTime (s : Component.State Party (TrackCall π ρ) (trackOps π ρ) Unit (Tracks π ρ)) :
    Turn Party (TrackCall π ρ) TrackEnv → Prop
  | .step i e => ∀ x ∈ s.about i, InTime s.world i e x.2
  | _ => True

/-! ## What every call does -/

section outline

variable {start : Tracks π ρ} {ttl : GoDuration} {maxHistory : ℤ} {i : Party} {e : TrackEnv}
  {k : TrackCall π ρ} {w w' : TrackWorld π ρ} {t : Document π ρ} {id : GoBytes}

theorem sent_cons (id : GoBytes) (x : TrackMoment π ρ) (h : List (TrackMoment π ρ)) :
    sent id (x :: h) = (sentBy id x).toList ++ sent id h := by
  rw [sent, sent, List.filterMap_cons]
  cases sentBy id x <;> rfl

theorem sent_append (id : GoBytes) (h h' : List (TrackMoment π ρ)) :
    sent id (h ++ h') = sent id h ++ sent id h' := List.filterMap_append

theorem sent_split (i : Party) (p : What (TrackCall π ρ) (trackOps π ρ) Unit → Bool) (id : GoBytes)
    (h : List (TrackMoment π ρ)) : sent id h = sent id (since i p h) ++ sent id (upTo i p h) := by
  rw [← sent_append, since_append_upTo]

/-- A read sends nothing. -/
theorem sentBy_of_reads {x : TrackMoment π ρ} (h : readsTrack id x.what) : sentBy id x = none := by
  unfold readsTrack at h
  unfold sentBy
  split at h
  · simp [*]
  · cases h

/-- The document is the closed copy of what the party has read last of the track. -/
def Closes (i : Party) (w : TrackWorld π ρ) (t : Document π ρ) : Prop :=
  ∃ x older t₀, upTo i (readsTrack t.trackID) w.history = x :: older ∧
    x.pre.get t.trackID = some t₀ ∧ t = t₀.close ∧
      -- fusion's documents go through the one subscriber
      (i = .ingest → sent t.trackID w.history = sent t.trackID older)

/-- What a party writes. -/
def Due (i : Party) (w : TrackWorld π ρ) : TrackOp π ρ → Prop
  | .upsertTrack .fusion _ => i = .ingest
  | .upsertTrack .closing t => Closes i w t
  | _ => True

/-- The outline of the proofs: the subscriber relies on being the only one to send. -/
def closingOutline (π ρ : Type) :
    Outline Party (TrackCall π ρ) (trackOps π ρ) Unit (Tracks π ρ) where
  promise i _ w op := Due i w op
  rely i w w' := i = .ingest → ∀ id, sent id w'.history = sent id w.history

theorem closingOutline_lawful : (closingOutline π ρ).Lawful where
  rely_refl _ _ _ _ := rfl
  rely_trans _ _ _ _ h h' hi id := (h' hi id).trans (h hi id)

/-- An event that sends nothing. -/
theorem keeps_quiet {s : Tracks π ρ} (x : TrackMoment π ρ) (hx : ∀ id, sentBy id x = none) :
    (closingOutline π ρ).Keeps i w ⟨s, x :: w.history⟩ := by
  refine ⟨trivial, fun j _ _ id ↦ ?_⟩
  rw [sent_cons, hx, Option.toList_none, List.nil_append]

theorem keeps_act {op : TrackOp π ρ} (hdue : Due i w op) :
    (closingOutline π ρ).Keeps i w ((closing ttl maxHistory start).act i e w op) := by
  cases op with
  | recording | listTracks | getTrack => exact keeps_quiet _ fun _ ↦ rfl
  | upsertTrack origin t =>
    cases origin with
    | closing => exact keeps_quiet _ fun _ ↦ rfl
    | fusion => exact ⟨trivial, fun j hji hj ↦ absurd (hj.trans hdue.symm) hji⟩

theorem returns (w : TrackWorld π ρ) : (closingOutline π ρ).Returns i k () w :=
  fun _ _ ↦ keeps_quiet _ fun _ ↦ rfl

theorem get_of_ok {s : Tracks π ρ} (h : (trackEffect e s (.getTrack id)).1 = .ok t) :
    s.get id = some t := by
  rw [trackEffect] at h
  dsimp only at h
  split at h
  · cases h
  · exact found_eq_ok.mp h

/-- What has been read is the closed copy's until the write. -/
theorem closes_of_read (hget : w.shared.get id = some t)
    (hw : (closingOutline π ρ).Finds i ((closing ttl maxHistory start).act i e w (.getTrack id)) w') :
    Closes i w' t.close := by
  have hid : t.trackID = id := Keyed.key_of_get hget
  obtain ⟨hmeanwhile, hrely, -⟩ := hw
  have hupTo := hmeanwhile.upTo_eq (readsTrack t.trackID)
  rw [Component.act, upTo_cons_of_own (by simp [Moment.own, readsTrack, hid])] at hupTo
  refine ⟨_, w.history, t, hupTo, ?_, rfl, fun hi ↦ ?_⟩
  · rwa [Document.close_trackID, hid]
  · rw [hrely hi, Component.act, sent_cons, sentBy]
    rfl

section proves

variable {Q : Unit → TrackWorld π ρ → Prop}

/-- The closed copy of what has just been read is written. -/
theorem proves_upsert (hQ : ∀ w, Q () w) (hget : w.shared.get id = some t) :
    (closingOutline π ρ).Proves (closing ttl maxHistory start) i k Q
      (upsertTrack .closing t.close >>= fun _ ↦ pure ())
      ((closing ttl maxHistory start).act i e w (.getTrack id)) := by
  intro w₁ h₁ e₁ _ _
  have hdue : Due i w₁ (.upsertTrack .closing t.close) := closes_of_read hget h₁
  exact ⟨hdue, keeps_act hdue, hQ _⟩

theorem proves_trackClosed (hQ : ∀ w, Q () w) (id : GoBytes) (w : TrackWorld π ρ) :
    (closingOutline π ρ).Proves (closing ttl maxHistory start) i k Q (trackClosed id) w := by
  intro w₁ h₁ e₁ _ _
  refine ⟨trivial, keeps_act trivial, ?_⟩
  cases hans : ((closing ttl maxHistory start).effect i e₁ w₁.shared (.getTrack id)).1 with
  | error err => exact hQ _
  | ok t =>
    exact proves_upsert hQ (get_of_ok hans)

theorem proves_closeCandidate (hQ : ∀ w, Q () w) (stillStale : GoTime → Bool) (id : GoBytes)
    (w : TrackWorld π ρ) : (closingOutline π ρ).Proves (closing ttl maxHistory start) i k Q
      (closeCandidate stillStale id) w := by
  intro w₁ h₁ e₁ _ _
  refine ⟨trivial, keeps_act trivial, ?_⟩
  cases hans : ((closing ttl maxHistory start).effect i e₁ w₁.shared (.getTrack id)).1 with
  | error err => exact hQ _
  | ok t =>
    change (closingOutline π ρ).Proves _ i k Q (if _ then _ else _) _
    split
    · exact hQ _
    · exact proves_upsert hQ (get_of_ok hans)

/-- The loop: the induction is on what is left of the page. -/
theorem proves_closeAll (hQ : ∀ w, Q () w) (stillStale : GoTime → Bool)
    (page : List (Document π ρ)) (w : TrackWorld π ρ) :
    (closingOutline π ρ).Proves (closing ttl maxHistory start) i k Q (closeAll stillStale page)
      w := by
  induction page generalizing w with
  | nil => exact hQ w
  | cons candidate rest ih =>
    exact Outline.proves_bind.mpr (proves_closeCandidate ih stillStale candidate.trackID w)

theorem proves_closeMatching (hQ : ∀ w, Q () w) (q : TrackQuery) (stillStale : GoTime → Bool)
    (w : TrackWorld π ρ) : (closingOutline π ρ).Proves (closing ttl maxHistory start) i k Q
      (closeMatching π ρ q stillStale) w := by
  intro w₁ h₁ e₁ _ _
  refine ⟨trivial, keeps_act trivial, ?_⟩
  cases hans : ((closing ttl maxHistory start).effect i e₁ w₁.shared (.listTracks q)).1 with
  | error err => exact hQ _
  | ok page => exact proves_closeAll hQ stillStale page _

end proves

theorem holds_sweep (now : GoTime) (w : TrackWorld π ρ) :
    (closingOutline π ρ).Holds (closing ttl maxHistory start) i k (sweep π ρ ttl now) w := by
  unfold sweep
  split
  · exact returns w
  · exact Outline.proves_bind.mpr
      (proves_closeMatching (fun w ↦ proves_closeMatching (fun w ↦ returns w) _ _ w) _ _ w)

theorem holds_track (m : TrackMessage π ρ) (w : TrackWorld π ρ) :
    (closingOutline π ρ).Holds (closing ttl maxHistory start) .ingest k (track maxHistory m)
      w := by
  intro w₁ h₁ e₁ _ _
  refine ⟨trivial, keeps_act trivial, ?_⟩
  change (closingOutline π ρ).Holds _ _ _ (if e₁.recording then _ else _) _
  split
  · split
    · exact proves_trackClosed (fun w ↦ returns w) _ _
    · split
      · exact returns _
      · intro w₂ h₂ e₂ _ _
        exact ⟨rfl, keeps_act rfl, returns _⟩
  · exact returns _

theorem closingOutline_sound : (closingOutline π ρ).Sound (closing ttl maxHistory start) := by
  intro i k w hk _
  refine ⟨keeps_quiet _ fun _ ↦ rfl, ?_⟩
  cases k with
  | sweep now => exact holds_sweep now _
  | message m =>
    cases i with
    | ingest => exact holds_track m _
    | sweeper => exact hk.elim

/-- In every run, what a party is about to write is due. -/
theorem good_of_run
    {tr : Component.Trace Party (TrackCall π ρ) (trackOps π ρ) Unit (Tracks π ρ) TrackEnv}
    {s : Component.State Party (TrackCall π ρ) (trackOps π ρ) Unit (Tracks π ρ)}
    (h : (closing ttl maxHistory start).machine.Run tr s) :
    (closingOutline π ρ).Good (closing ttl maxHistory start) s := by
  refine Outline.sound closingOutline_lawful closingOutline_sound (fun _ _ ↦ trivial) h ?_
  intro x _
  cases x.act <;> simp [Outline.Assumed, closingOutline]

/-! ## When no update is lost -/

theorem lastSent_quiet {x : TrackMoment π ρ} {h : List (TrackMoment π ρ)}
    (hx : ∀ id, sentBy id x = none) (id : GoBytes) :
    lastSent start id (x :: h) = lastSent start id h := by
  rw [lastSent, sent_cons, hx, Option.toList_none, List.nil_append, lastSent]

/-- What the sweep has stored in time so far is no matter of a new event, unless that is one more. -/
theorem newest_cons {x : TrackMoment π ρ} {h : List (TrackMoment π ρ)} :
    (∀ y older t, y :: older <:+ x :: h → sweptBy y = some t →
        ∀ d ∈ sentSince t.trackID older, d.lastSeen ≤ t.lastSeen) ↔
      (∀ t, sweptBy x = some t → ∀ d ∈ sentSince t.trackID h, d.lastSeen ≤ t.lastSeen) ∧
        ∀ y older t, y :: older <:+ h → sweptBy y = some t →
          ∀ d ∈ sentSince t.trackID older, d.lastSeen ≤ t.lastSeen := by
  constructor
  · intro hall
    exact ⟨fun t ht ↦ hall x h t (List.suffix_refl _) ht,
      fun y older t hsuf ↦ hall y older t (hsuf.trans (List.suffix_cons x h))⟩
  · rintro ⟨hx, hall⟩ y older t hsuf ht
    rcases List.suffix_cons_iff.mp hsuf with heq | hsuf
    · obtain ⟨rfl, rfl⟩ := List.cons.inj heq
      exact hx t ht
    · exact hall y older t hsuf ht

/-- An event that writes nothing. -/
theorem faithful_quiet {x : TrackMoment π ρ} (h : Faithful start w)
    (hsent : ∀ id, sentBy id x = none) (hswept : sweptBy x = none) :
    Faithful start ⟨w.shared, x :: w.history⟩ where
  last id := by
    rw [lastSent_quiet hsent]
    exact h.last id
  newest := newest_cons.mpr ⟨fun t ht ↦ (by rw [hswept] at ht; cases ht), h.newest⟩

/-- A document that the store takes. -/
theorem act_upsert {origin : Origin} (he : e.Stores t) :
    (closing ttl maxHistory start).act i e w (.upsertTrack origin t) =
      ⟨w.shared.put t, ⟨w.shared, i, .did (.upsertTrack origin t) (.ok ())⟩ :: w.history⟩ := by
  simp only [Component.act, closing, trackEffect, if_pos he]

/-- A document that the store does not take. -/
theorem faithful_refused {origin : Origin} (h : Faithful start w) (he : ¬e.Stores t) :
    Faithful start ((closing ttl maxHistory start).act i e w (.upsertTrack origin t)) := by
  have hact : (closing ttl maxHistory start).act i e w (.upsertTrack origin t) =
      ⟨w.shared, ⟨w.shared, i, .did (.upsertTrack origin t) (.error (.failed "upsert track"))⟩ ::
        w.history⟩ := by
    simp only [Component.act, closing, trackEffect, if_neg he]
  rw [hact]
  cases origin <;> exact faithful_quiet h (fun _ ↦ rfl) rfl

/-- **A document of fusion's** is the last it has sent. -/
theorem faithful_fusion (h : Faithful start w) :
    Faithful start ((closing ttl maxHistory start).act i e w (.upsertTrack .fusion t)) := by
  by_cases he : e.Stores t
  · rw [act_upsert he]
    refine ⟨fun id ↦ ?_, newest_cons.mpr ⟨nofun, h.newest⟩⟩
    have hlast : lastSent start id (⟨w.shared, i, .did (.upsertTrack .fusion t) (.ok ())⟩ ::
        w.history) = if id = t.trackID then some t else lastSent start id w.history := by
      by_cases hid : id = t.trackID <;> simp [lastSent, sent_cons, sentBy, hid, Ne.symm]
    rw [hlast, Keyed.get_put]
    split
    · exact .inl rfl
    · exact h.last id
  · exact faithful_refused h he

/-- The closed copy is one of the document that was the last when it was read. -/
theorem Closes.of_last (h : Closes i w t) (hpast : ∀ v, w.Past v → Faithful start v) :
    ∃ older d, lastSent start t.trackID older = some d ∧ d.close = t ∧
      (i = .ingest → sent t.trackID w.history = sent t.trackID older) ∧
      sent t.trackID w.history =
        sent t.trackID (since i (readsTrack t.trackID) w.history) ++ sent t.trackID older := by
  obtain ⟨x, older, t₀, hupTo, hget, ht, hingest⟩ := h
  have hx : sentBy t.trackID x = none := sentBy_of_reads (own_of_upTo hupTo).2
  have hsplit := sent_split i (readsTrack t.trackID) t.trackID w.history
  rw [hupTo, sent_cons, hx, Option.toList_none, List.nil_append] at hsplit
  have hlast := (hpast ⟨x.pre, older⟩
    ⟨since i (readsTrack t.trackID) w.history, x, by rw [← hupTo, since_append_upTo], rfl⟩).last
      t.trackID
  dsimp only at hlast
  rw [hget] at hlast
  rcases hlast with hlast | hlast
  · exact ⟨older, t₀, hlast.symm, ht.symm, hingest, hsplit⟩
  · obtain ⟨d, hd, hclose⟩ := Option.map_eq_some_iff.mp hlast.symm
    exact ⟨older, d, hd, by rw [ht, ← hclose, Document.close_close], hingest, hsplit⟩

/-- **A closed copy** loses no update exactly if it comes in time. -/
theorem faithful_closing_iff (h : Faithful start w) (hdue : Closes i w t)
    (hpast : ∀ v, w.Past v → Faithful start v) :
    Faithful start ((closing ttl maxHistory start).act i e w (.upsertTrack .closing t)) ↔
      InTime w i e (.upsertTrack .closing t) := by
  by_cases he : e.Stores t
  swap
  · exact iff_of_true (faithful_refused h he) fun _ hstores ↦ absurd hstores he
  obtain ⟨older, d, hd, hclose, hingest, hsplit⟩ := hdue.of_last hpast
  have hlast : Faithful start ((closing ttl maxHistory start).act i e w (.upsertTrack .closing t)) ↔
      (some t = lastSent start t.trackID w.history ∨
        some t = (lastSent start t.trackID w.history).map .close) ∧
          (i = .sweeper → ∀ d ∈ sentSince t.trackID w.history, d.lastSeen ≤ t.lastSeen) := by
    rw [act_upsert he]
    have hquiet : ∀ id, lastSent start id
        (⟨w.shared, i, .did (.upsertTrack .closing t) (.ok ())⟩ :: w.history) =
          lastSent start id w.history := lastSent_quiet fun _ ↦ rfl
    constructor
    · intro hafter
      have hid := hafter.last t.trackID
      rw [hquiet, Keyed.get_put, if_pos rfl] at hid
      exact ⟨hid, fun hi ↦ (newest_cons.mp hafter.newest).1 t (if_pos hi)⟩
    · rintro ⟨hid, hnewest⟩
      refine ⟨fun id ↦ ?_, newest_cons.mpr ⟨fun t' ht' ↦ ?_, h.newest⟩⟩
      · rw [hquiet, Keyed.get_put]
        split
        · rename_i hkey
          rwa [hkey]
        · exact h.last id
      · obtain ⟨hi, heq⟩ := Option.ite_none_right_eq_some.mp ht'
        obtain rfl := Option.some.inj heq
        exact hnewest hi
  rw [hlast]
  cases i with
  | ingest =>
    refine iff_of_true ⟨.inr ?_, nofun⟩ nofun
    rw [lastSent, hingest rfl, ← lastSent, hd, Option.map_some, hclose]
  | sweeper =>
    have hnow : lastSent start t.trackID w.history =
        some ((sentSince t.trackID w.history).head?.getD d) := by
      rw [lastSent, hsplit, List.head?_append, Option.or_assoc, ← lastSent, hd]
      change (sentSince t.trackID w.history).head?.or (some d) = _
      cases (sentSince t.trackID w.history).head? <;> rfl
    rw [hnow]
    constructor
    · rintro ⟨hid, hnewest⟩ _ _
      refine ⟨hnewest rfl, fun d' hd' ↦ ?_⟩
      rw [Option.mem_def.mp hd'] at hid
      rcases hid with hid | hid
      · have htd : t = d' := Option.some.inj hid
        rw [← htd, ← hclose, Document.close_close]
      · exact (Option.some.inj hid).symm
    · intro htime
      obtain ⟨hnewest, hhead⟩ := htime rfl he
      refine ⟨.inr ?_, fun _ ↦ hnewest⟩
      cases hsince : (sentSince t.trackID w.history).head? with
      | none => exact congrArg some hclose.symm
      | some d' => exact congrArg some (hhead d' hsince).symm

/-- **No update is lost in any state of a run exactly if every closed copy that the sweep writes
comes in time.** -/
theorem faithful_iff
    {tr : Component.Trace Party (TrackCall π ρ) (trackOps π ρ) Unit (Tracks π ρ) TrackEnv}
    {s : Component.State Party (TrackCall π ρ) (trackOps π ρ) Unit (Tracks π ρ)}
    (h : (closing ttl maxHistory start).machine.Run tr s) :
    Machine.Always (fun _ x ↦ Faithful start x.post.world) tr ↔
      Machine.Always (fun _ x ↦ ClosesInTime x.pre x.act) tr := by
  refine h.always_iff_past (I := fun s ↦ Faithful start s.world)
    (C := fun _ s a ↦ ClosesInTime s a) ?_ ?_
  · rintro s ⟨t, rfl, rfl⟩
    exact ⟨fun id ↦ .inl rfl, fun x older t hsuf ↦ absurd (List.suffix_nil.mp hsuf) (by simp)⟩
  · intro tr s a s' hrun hfaithful hall hn
    have hgood := good_of_run hrun
    have hpast (v) (hv : s.world.Past v) : Faithful start v := by
      obtain ⟨x, hx, rfl⟩ := Component.past_of_run hrun hv
      exact hall x hx
    cases Component.taken_of_next hn with
    | nothing ha =>
      refine iff_of_true hfaithful ?_
      cases a with
      | step i e => simp [ClosesInTime, ha i e rfl]
      | start i k => trivial
      | finish i => trivial
    | start hi hk => exact iff_of_true (faithful_quiet hfaithful (fun _ ↦ rfl) rfl) trivial
    | finish hi => exact iff_of_true (faithful_quiet hfaithful (fun _ ↦ rfl) rfl) trivial
    | @step i k e op next hi hready =>
      have hdue : Due i s.world op := hgood.promise closingOutline_lawful hi hready trivial
      have htime : ClosesInTime s (.step i e) ↔ InTime s.world i e op := by
        simp [ClosesInTime, Component.State.about_of_thread hi]
      rw [htime]
      cases op with
      | recording => exact iff_of_true (faithful_quiet hfaithful (fun _ ↦ rfl) rfl) trivial
      | listTracks q => exact iff_of_true (faithful_quiet hfaithful (fun _ ↦ rfl) rfl) trivial
      | getTrack id => exact iff_of_true (faithful_quiet hfaithful (fun _ ↦ rfl) rfl) trivial
      | upsertTrack origin t =>
        cases origin with
        | fusion => exact iff_of_true (faithful_fusion hfaithful) trivial
        | closing => exact faithful_closing_iff hfaithful hdue hpast

end outline

/-! ## Two runs -/

section decidable

variable [DecidableEq π] [DecidableEq ρ]

instance : (i : Party) → (k : TrackCall π ρ) → Decidable (i.makes k)
  | .ingest, .message _ | .sweeper, .sweep _ => .isTrue trivial
  | .ingest, .sweep _ | .sweeper, .message _ => .isFalse id

instance (ttl : GoDuration) (maxHistory : ℤ) (start : Tracks π ρ) (i : Party) (k : TrackCall π ρ) :
    Decidable ((closing ttl maxHistory start).admits i k) := inferInstanceAs (Decidable (i.makes k))

instance (ttl : GoDuration) (maxHistory : ℤ) (start : Tracks π ρ) (i : Party) (e : TrackEnv)
    (s : Tracks π ρ) (op : TrackOp π ρ) :
    Decidable ((closing ttl maxHistory start).ready i e s op) := .isTrue trivial

instance (w : TrackWorld π ρ) (i : Party) (e : TrackEnv) :
    (op : TrackOp π ρ) → Decidable (InTime w i e op)
  | .upsertTrack .closing _ => inferInstanceAs (Decidable (_ → _ → _ ∧ _))
  | .upsertTrack .fusion _ | .recording | .listTracks _ | .getTrack _ => .isTrue trivial

instance (s : Component.State Party (TrackCall π ρ) (trackOps π ρ) Unit (Tracks π ρ)) :
    (a : Turn Party (TrackCall π ρ) TrackEnv) → Decidable (ClosesInTime s a)
  | .step _ _ => inferInstanceAs (Decidable (∀ _ ∈ _, _))
  | .start _ _ | .finish _ => .isTrue trivial

end decidable

/-- A track that was seen at some instant. -/
def seen (lastSeen : GoTime) : Document Unit Unit := ⟨[97], "CONFIRMED", lastSeen, [], ()⟩

/-- What fusion left behind. -/
def leftBehind : Tracks Unit Unit := Keyed.empty.put (seen 1)

/-- Fusion's message that the track is seen again. -/
def seenAgain : TrackMessage Unit Unit := ⟨"track.update", none, some (seen 20)⟩

/-- The sweep reads the track again; before it writes, fusion's update is stored. -/
def updatedWhileClosing : List (Turn Party (TrackCall Unit Unit) TrackEnv) :=
  [.start .sweeper (.sweep 20), .step .sweeper {}, .step .sweeper {}, .start .ingest
    (.message seenAgain), .step .ingest {}, .step .ingest {}, .step .sweeper {}]

/-- The same in order. -/
def updatedAfterClosing : List (Turn Party (TrackCall Unit Unit) TrackEnv) :=
  [.start .sweeper (.sweep 20), .step .sweeper {}, .step .sweeper {}, .step .sweeper {},
    .start .ingest (.message seenAgain), .step .ingest {}, .step .ingest {}]

theorem faithful_updatedAfterClosing :
    Machine.Always (fun _ x ↦ Faithful leftBehind x.post.world)
      (Machine.replaySteps (closing 10 0 leftBehind).take (.fresh leftBehind) updatedAfterClosing
        []) :=
  (faithful_iff (Component.run_replay _ _ rfl (by decide))).mpr (by decide)

/-- **An update is lost** that is stored between the read and the write of the sweep: the store holds
the closing of an older document. -/
theorem update_lost :
    ∃ tr s, (closing 10 0 leftBehind).machine.Run tr s ∧
      s.world.shared.get [97] = some (seen 1).close ∧
      lastSent leftBehind [97] s.world.history = some (seen 20) ∧
      ¬Faithful leftBehind s.world := by
  have hrun := Component.run_replay (closing 10 0 leftBehind) updatedWhileClosing rfl (by decide)
  have hget : (Machine.replay (closing 10 0 leftBehind).take (.fresh leftBehind)
      updatedWhileClosing).world.shared.get [97] = some (seen 1).close := by decide
  have hlast : lastSent leftBehind [97] (Machine.replay (closing 10 0 leftBehind).take
      (.fresh leftBehind) updatedWhileClosing).world.history = some (seen 20) := by decide
  refine ⟨_, _, hrun, hget, hlast, fun h ↦ ?_⟩
  have hwrong := h.last [97]
  rw [hget, hlast] at hwrong
  exact absurd hwrong (by decide)

end ClassG.Ingest
