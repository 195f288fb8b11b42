import ClassG.Fusion.Decode
import ClassG.Fusion.MainLoop

/-!
# Fusion without the operator

The operator's position goes into `Track.operator` and is never read back.  `blind` takes it away,
and it comes to the same whether that is done before or after: for one track, for the store, and for
an iteration of the loop (`Loop.blind_handle`).  So what fusion says of two sequences of detections
that differ in the operator's position differs in nothing else.
-/

set_option autoImplicit false

namespace ClassG.Fusion

/-! ## One track -/

/-- Without the operator's position. -/
def Track.blind (t : Track) : Track := { t with operator := none }

namespace Track

variable (t : Track) (d : Detection)

theorem blind_addPosition (dist : DistanceFn) (p : Position) (lc : Lifecycle) :
    (t.addPosition dist p lc).blind = t.blind.addPosition dist p lc := by
  rw [addPosition]
  dsimp only
  rw [apply_ite blind, apply_ite blind]
  rfl

theorem blind_count (seen : GoTime) (weight : ℚ) :
    (t.count d seen weight).blind = t.blind.count d.blind seen weight := by
  rw [count, count]
  dsimp only [noteReceiver, addEvidence, recomputeConfidence, blind, Detection.blind]
  split <;> rfl

theorem blind_locate (dist : DistanceFn) (lc : Lifecycle) (terrain : TerrainResolver) :
    (t.locate dist d lc terrain).blind = t.blind.locate dist d.blind lc terrain := by
  have hposition : d.blind.position = d.position := rfl
  have hoperator : d.blind.operator = none := rfl
  rw [locate, locate, hposition, hoperator]
  cases d.position with
  | none => cases d.operator <;> rfl
  | some q =>
    have hadd := blind_addPosition t dist (fixOf d terrain q) lc
    cases d.operator <;> exact hadd

theorem blind_updateState (now : GoTime) (lc : Lifecycle) :
    (t.updateState now lc).blind = t.blind.updateState now lc := rfl

/-- **Folding a detection in.** -/
theorem blind_absorb (dist : DistanceFn) (seen now : GoTime) (weight : ℚ) (lc : Lifecycle)
    (terrain : TerrainResolver) :
    (t.absorb dist d seen now weight lc terrain).blind =
      t.blind.absorb dist d.blind seen now weight lc terrain := by
  rw [absorb, absorb, blind_updateState, blind_locate, blind_count]
  rfl

end Track

/-! ## The store -/

/-- Without the operators' positions. -/
def TrackStore.blind (σ : TrackStore) : TrackStore := { σ with heap := fun r ↦ (σ.heap r).blind }

/-- The store of a result without the operators' positions. -/
def blindFst {α : Type} (x : TrackStore × α) : TrackStore × α := (x.1.blind, x.2)

variable (cfg : Config)

namespace TrackStore

variable (σ : TrackStore) (t : Option Ref) (d : Detection) (seen now : GoTime)

theorem blind_update (r : Ref) (x : Track) :
    { σ with heap := Function.update σ.heap r x }.blind =
      { σ.blind with heap := Function.update σ.blind.heap r x.blind } := by
  refine congrArg (fun heap ↦ { σ with heap := heap }) (funext fun r' ↦ ?_)
  rw [Function.apply_update (fun _ ↦ Track.blind)]
  rfl

theorem blind_modify (r : Ref) {f g : Track → Track} (h : ∀ t, (f t).blind = g t.blind) :
    (σ.modify r f).blind = σ.blind.modify r g := by
  rw [modify, modify, blind_update, h]
  rfl

theorem blind_resolve (serial mac : String) :
    blindFst (σ.resolve serial mac) = σ.blind.resolve serial mac := by
  have hget : σ.blind.bySerial.get serial = σ.bySerial.get serial := rfl
  have hfind : find σ.blind.byMAC mac = find σ.byMAC mac := rfl
  rw [resolve, resolve, hget, hfind]
  split
  · split
    · split <;> rfl
    · split
      · rename_i t ht
        show blindFst (if (σ.heap t).identity.serial = "" then _ else _) =
          if (σ.heap t).identity.serial = "" then _ else _
        split
        · refine Prod.ext ?_ rfl
          have hmodify := blind_modify σ t (f := fun t ↦ t.withSerial serial)
            (g := fun t ↦ t.withSerial serial) fun _ ↦ rfl
          exact congrArg (fun σ : TrackStore ↦ { σ with bySerial := σ.bySerial.put serial t }) hmodify
        · rfl
      · rfl
  · rfl

theorem blind_dropFinished :
    blindFst (σ.dropFinished cfg t d seen) = σ.blind.dropFinished cfg t d.blind seen := by
  rcases t with _ | t
  · rfl
  · rw [dropFinished, dropFinished]
    show blindFst (if flightIsOver cfg (σ.heap t) seen ∧ ¬resumes cfg (σ.heap t) d seen then _ else _) =
      if flightIsOver cfg (σ.heap t) seen ∧ ¬resumes cfg (σ.heap t) d seen then _ else _
    split <;> rfl

theorem blind_reopen (c : Ref) : (σ.reopen c).blind = σ.blind.reopen c := by
  rw [reopen, reopen]
  have hmodify := blind_modify (σ.forget c) c (f := fun t ↦ { t with state := .coasting })
    (g := fun t ↦ { t with state := .coasting }) fun _ ↦ rfl
  exact congrArg (fun τ : TrackStore ↦ { τ with
    all := τ.all.insert c
    bySerial := if (σ.heap c).identity.serial ≠ "" then
      τ.bySerial.put (σ.heap c).identity.serial c else τ.bySerial
    byMAC := τ.byMAC.putAll (σ.heap c).identity.macs c }) hmodify

theorem blind_rejoin :
    blindFst (σ.rejoin cfg t d seen) = σ.blind.rejoin cfg t d.blind seen := by
  rcases t with _ | t
  · have hclosed : σ.blind.resolveClosed d.blind.identity.serial d.blind.identity.mac =
        σ.resolveClosed d.identity.serial d.identity.mac := rfl
    rw [rejoin, rejoin, hclosed]
    split
    · rename_i c hc
      show blindFst (if resumes cfg (σ.heap c) d seen = true then _ else _) =
        if resumes cfg (σ.heap c) d seen = true then _ else _
      split
      · exact Prod.ext (blind_reopen σ c) rfl
      · rfl
    · rfl
  · rfl

theorem blind_start :
    blindFst (σ.start cfg t d seen) = σ.blind.start cfg t d.blind seen := by
  rcases t with _ | t
  · rw [start, start]
    show blindFst (if d.identity.serial = "" ∧ d.identity.mac = "" then _ else _) =
      if d.identity.serial = "" ∧ d.identity.mac = "" then _ else _
    split
    · rfl
    · refine Prod.ext ?_ rfl
      exact congrArg (fun τ : TrackStore ↦ { τ with
        next := σ.next + 1
        all := σ.all.insert σ.next
        bySerial := if d.identity.serial ≠ "" then σ.bySerial.put d.identity.serial σ.next
          else σ.bySerial }) (blind_update σ σ.next _)
  · rfl

theorem blind_foldIn (r : Ref) (terrain : TerrainResolver) :
    (σ.foldIn cfg r d seen now terrain).blind =
      σ.blind.foldIn cfg r d.blind seen now terrain := by
  rw [foldIn, foldIn]
  exact blind_modify _ r fun t ↦ t.blind_absorb d ..

/-- **`Ingest`.** -/
theorem blind_ingest (terrain : TerrainResolver) :
    blindFst (σ.ingest cfg d now terrain) = σ.blind.ingest cfg d.blind now terrain := by
  rw [ingest, ingest]
  by_cases hclass : d.detectionClass = classADSB
  · rw [if_pos hclass, if_pos (show d.blind.detectionClass = classADSB from hclass)]
    rfl
  rw [if_neg hclass, if_neg (show d.blind.detectionClass ≠ classADSB from hclass)]
  -- each stage hands its store and its track on to the next
  rcases hresolve : σ.resolve d.identity.serial d.identity.mac with ⟨σ₁, t₁⟩
  rcases hdrop : σ₁.dropFinished cfg t₁ d (d.seen now) with ⟨σ₂, t₂⟩
  rcases hrejoin : σ₂.rejoin cfg t₂ d (d.seen now) with ⟨σ₃, t₃⟩
  rcases hstart : σ₃.start cfg t₃ d (d.seen now) with ⟨σ₄, t₄⟩
  have hresolve' : σ.blind.resolve d.blind.identity.serial d.blind.identity.mac = (σ₁.blind, t₁) :=
    (blind_resolve σ _ _).symm.trans (congrArg blindFst hresolve)
  have hdrop' : σ₁.blind.dropFinished cfg t₁ d.blind (d.blind.seen now) = (σ₂.blind, t₂) :=
    (blind_dropFinished cfg σ₁ t₁ d _).symm.trans (congrArg blindFst hdrop)
  have hrejoin' : σ₂.blind.rejoin cfg t₂ d.blind (d.blind.seen now) = (σ₃.blind, t₃) :=
    (blind_rejoin cfg σ₂ t₂ d _).symm.trans (congrArg blindFst hrejoin)
  have hstart' : σ₃.blind.start cfg t₃ d.blind (d.blind.seen now) = (σ₄.blind, t₄) :=
    (blind_start cfg σ₃ t₃ d _).symm.trans (congrArg blindFst hstart)
  dsimp only
  rw [hdrop, hresolve', hdrop']
  dsimp only
  rw [hrejoin, hrejoin']
  dsimp only
  rw [hstart, hstart']
  rcases t₄ with _ | r
  · rfl
  · exact Prod.ext (blind_foldIn cfg σ₄ d (d.seen now) now r terrain) rfl

/-! ### Reaping and correlating -/

theorem blind_remember (r : Ref) : (σ.remember r).blind = σ.blind.remember r := by
  rw [remember, remember]
  show blind (if (σ.heap r).history = [] then _ else _) =
    if (σ.heap r).history = [] then _ else _
  split <;> rfl

/-- What `reapOne` does with a track that has its new state. -/
def reaped (prev : TrackState) (σ : TrackStore) (changed : List Ref) (r : Ref) :
    TrackStore × List Ref :=
  let changed := if (σ.heap r).state ≠ prev then changed ++ [r] else changed
  if (σ.heap r).state = .closed then
    let σ := { σ.unindex r with all := σ.all.erase r }
    (if prev = .coasting ∨ prev = .confirmed then σ.remember r else σ, changed)
  else (σ, changed)

theorem reapOne_eq (acc : TrackStore × List Ref) (r : Ref) :
    reapOne cfg now acc r = reaped (acc.1.heap r).state
      (acc.1.modify r fun t ↦ t.updateState now cfg.lifecycle) acc.2 r := rfl

theorem blind_reaped (prev : TrackState) (changed : List Ref) (r : Ref) :
    blindFst (reaped prev σ changed r) = reaped prev σ.blind changed r := by
  rw [reaped, reaped]
  show blindFst (if (σ.heap r).state = .closed then _ else _) =
    if (σ.heap r).state = .closed then _ else _
  split
  · refine Prod.ext ?_ rfl
    show blind (if prev = .coasting ∨ prev = .confirmed then _ else _) =
      if prev = .coasting ∨ prev = .confirmed then _ else _
    split
    · exact blind_remember _ r
    · rfl
  · rfl

theorem blind_reapOne (acc : TrackStore × List Ref) (r : Ref) :
    blindFst (reapOne cfg now acc r) = reapOne cfg now (blindFst acc) r := by
  rw [reapOne_eq, reapOne_eq, blind_reaped, blind_modify _ r (g := fun t ↦
    t.updateState now cfg.lifecycle) fun t ↦ t.blind_updateState now cfg.lifecycle]
  rfl

theorem blind_expire (r : Ref) : (expire cfg now σ r).blind = expire cfg now σ.blind r := by
  rw [expire, expire]
  show blind (if cfg.lifecycle.resumeWithin < GoTime.sub now (σ.heap r).lastSeen then _ else _) =
    if cfg.lifecycle.resumeWithin < GoTime.sub now (σ.heap r).lastSeen then _ else _
  split <;> rfl

theorem blind_prune : (σ.prune cfg now).blind = σ.blind.prune cfg now := by
  have hfold (l : List Ref) (σ : TrackStore) :
      (l.foldl (expire cfg now) σ).blind = l.foldl (expire cfg now) σ.blind :=
    (List.foldl_hom blind fun σ r ↦ (blind_expire cfg σ now r).symm).symm
  rw [prune, hfold]
  show List.foldl (expire cfg now) _
    (List.foldl (expire cfg now) σ σ.closedBySerial.values).blind.closedByMAC.values = _
  rw [hfold]
  rfl

/-- **`Reap`.** -/
theorem blind_reap (order : List Ref) :
    blindFst (σ.reap cfg now order) = σ.blind.reap cfg now order := by
  have hfold : order.foldl (reapOne cfg now) (blindFst (σ, [])) =
      blindFst (order.foldl (reapOne cfg now) (σ, [])) :=
    List.foldl_hom blindFst fun acc r ↦ (blind_reapOne cfg now acc r).symm
  rw [reap, reap, show (σ.blind, []) = blindFst (σ, ([] : List Ref)) from rfl, hfold]
  exact Prod.ext (blind_prune cfg _ now) rfl

theorem blind_correlateOne (contacts : List ADSBContact) (acc : TrackStore × List Ref) (r : Ref) :
    blindFst (correlateOne cfg contacts acc r) = correlateOne cfg contacts (blindFst acc) r := by
  obtain ⟨σ, changed⟩ := acc
  rw [correlateOne, correlateOne]
  show blindFst (if (σ.heap r).adsbCorrelated ≠ matchesAny cfg contacts (σ.heap r) then _ else _) =
    if (σ.heap r).adsbCorrelated ≠ matchesAny cfg contacts (σ.heap r) then _ else _
  split
  · refine Prod.ext ?_ rfl
    exact blind_modify σ r (f := fun t ↦ { t with adsbCorrelated := matchesAny cfg contacts (σ.heap r) })
      (g := fun t ↦ { t with adsbCorrelated := matchesAny cfg contacts (σ.heap r) }) fun _ ↦ rfl
  · rfl

/-- **`CorrelateContacts`.** -/
theorem blind_correlateContacts (contacts : List ADSBContact) :
    blindFst (σ.correlateContacts cfg contacts) = σ.blind.correlateContacts cfg contacts :=
  (List.foldl_hom blindFst fun acc r ↦ (blind_correlateOne cfg contacts acc r).symm).symm

end TrackStore

/-! ## The loop -/

/-- Without the operator's position. -/
def Message.blind (m : Message) : Message where
  topic := m.topic
  payload := match m.payload with
    | .relayed body => .relayed (body.map Detection.blind)
    | .track t => .track t.blind
    | .trackID id => .trackID id

/-- Without the operator's position. -/
def Event.blind : Event → Event
  | .message msg now terrain => .message ⟨msg.topic, msg.body.map Detection.blind⟩ now terrain
  | .tick now order => .tick now order

/-- Without the operators' positions. -/
def Loop.blind (s : Loop) : Loop where
  tracks := s.tracks.blind
  contacts := s.contacts
  published := s.published.map Message.blind

theorem blind_parseDetection (decoded : Except String Detection) :
    (parseDetection decoded).map Detection.blind = parseDetection (decoded.map Detection.blind) := by
  rcases decoded with err | d
  · rfl
  show (if d.schemaVersion = "" ∨ d.detectionClass = "" ∨ d.sensorID = "" then _ else _ :
      Except String Detection).map Detection.blind =
    if d.schemaVersion = "" ∨ d.detectionClass = "" ∨ d.sensorID = "" then _ else _
  split
  · rfl
  · have hposition : d.blind.position = d.position := rfl
    rw [hposition]
    cases d.position <;> rfl

namespace Loop

variable (lc : LoopConfig) (s : Loop)

theorem blind_publishUpdate (r : Ref) :
    (s.publishUpdate lc r).blind = s.blind.publishUpdate lc r := rfl

theorem blind_publishLifecycle (r : Ref) :
    (s.publishLifecycle lc r).blind = s.blind.publishLifecycle lc r := by
  rw [publishLifecycle, publishLifecycle]
  show blind (if (s.tracks.heap r).state = .closed then _ else _) =
    if (s.tracks.heap r).state = .closed then _ else _
  split <;> rfl

theorem blind_handleMessage (msg : BusMessage) (now : GoTime) (terrain : TerrainResolver) :
    (s.handleMessage lc msg now terrain).blind =
      s.blind.handleMessage lc ⟨msg.topic, msg.body.map Detection.blind⟩ now terrain := by
  rw [handleMessage, handleMessage]
  dsimp only
  by_cases hheartbeat : GoString.hasPrefix msg.topic lc.heartbeatTopic = true
  · rw [if_pos hheartbeat, if_pos hheartbeat]
    rfl
  rw [if_neg hheartbeat, if_neg hheartbeat, ← blind_parseDetection]
  rcases parseDetection msg.body with err | d
  · rfl
  dsimp only [Except.map]
  by_cases hclass : d.detectionClass = classADSB
  · rw [if_pos hclass, if_pos (show d.blind.detectionClass = classADSB from hclass)]
    rfl
  rw [if_neg hclass, if_neg (show d.blind.detectionClass ≠ classADSB from hclass)]
  have hingest := TrackStore.blind_ingest lc.cfg s.tracks d now terrain
  rcases hresult : s.tracks.ingest lc.cfg d now terrain with ⟨σ, track⟩
  rw [hresult] at hingest
  dsimp only [send, blind]
  rw [hresult, ← hingest]
  cases track with
  | none => rfl
  | some r => rfl

theorem blind_foldl_publish {publish : Loop → Ref → Loop}
    (h : ∀ s r, (publish s r).blind = publish s.blind r) (l : List Ref) :
    (l.foldl publish s).blind = l.foldl publish s.blind :=
  (List.foldl_hom blind fun s r ↦ (h s r).symm).symm

/-- The half of a tick that reaps. -/
def reapTracks (now : GoTime) (order : List Ref) : Loop :=
  (s.tracks.reap lc.cfg now order).2.foldl (publishLifecycle lc)
    { s with
      tracks := (s.tracks.reap lc.cfg now order).1
      contacts := (s.contacts.reap lc.contacts now).1 }

/-- The half that correlates. -/
def correlateTracks : Loop :=
  (s.tracks.correlateContacts lc.cfg s.contacts.active).2.foldl (publishUpdate lc)
    { s with tracks := (s.tracks.correlateContacts lc.cfg s.contacts.active).1 }

theorem handleTick_eq (now : GoTime) (order : List Ref) :
    s.handleTick lc now order = (s.reapTracks lc now order).correlateTracks lc := rfl

theorem blind_reapTracks (now : GoTime) (order : List Ref) :
    (s.reapTracks lc now order).blind = s.blind.reapTracks lc now order := by
  have hreap : s.blind.tracks.reap lc.cfg now order =
      blindFst (s.tracks.reap lc.cfg now order) :=
    (TrackStore.blind_reap lc.cfg s.tracks now order).symm
  rw [reapTracks, reapTracks, hreap, blind_foldl_publish _ (blind_publishLifecycle lc)]
  rfl

theorem blind_correlateTracks : (s.correlateTracks lc).blind = s.blind.correlateTracks lc := by
  have hcorrelate : s.blind.tracks.correlateContacts lc.cfg s.blind.contacts.active =
      blindFst (s.tracks.correlateContacts lc.cfg s.contacts.active) :=
    (TrackStore.blind_correlateContacts lc.cfg s.tracks _).symm
  rw [correlateTracks, correlateTracks, hcorrelate, blind_foldl_publish _ (blind_publishUpdate lc)]
  rfl

theorem blind_handleTick (now : GoTime) (order : List Ref) :
    (s.handleTick lc now order).blind = s.blind.handleTick lc now order := by
  rw [handleTick_eq, handleTick_eq, blind_correlateTracks, blind_reapTracks]

/-- **An iteration.** -/
theorem blind_handle (e : Event) : (s.handle lc e).blind = s.blind.handle lc e.blind := by
  cases e with
  | message msg now terrain => exact blind_handleMessage lc s msg now terrain
  | tick now order => exact blind_handleTick lc s now order

end Loop

end ClassG.Fusion
