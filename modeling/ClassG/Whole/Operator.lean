import ClassG.Fusion.Mirror
import ClassG.Fusion.OperatorBlind
import ClassG.TwoRuns
import ClassG.Whole.Services
import ClassG.Wifi.OperatorDocuments

/-!
# Where the operator is

Where operators are not exposed, `Redact` takes `operator` away from all that is handed on.  It does
not take away `raw`, which has the element that the sensor decoded.  So two runs that differ in
nothing but the bytes that say where operators are can be told apart from outside exactly when the
API hands on a detection whose elements differ: `operator_told_iff`.  The tracks never tell.
-/

set_option autoImplicit false

namespace ClassG.Whole

open Wifi Ingest

/-! ## Two runs -/

/-- The same event, or two frames that differ in the bytes that say where operators are. -/
inductive EventTwins : Event → Event → Prop
  | refl (e : Event) : EventTwins e e
  | frame {bytes bytes' : List Byte} (draw : ℕ → Draw) (h : FrameTwins bytes bytes') :
      EventTwins (.frame bytes draw) (.frame bytes' draw)

/-- The detection that the API takes next, if it takes one. -/
def nextAccepted (recording : Bool) (s : State) : Option (Sent × Model.Detection) :=
  s.detections.head?.bind fun m ↦
    (accepted recording (Model.decodeDetection m.document)).map fun d ↦ (m, d)

/-- If the API takes a detection, the element that it was decoded from is the same in both runs. -/
def SameElement (s : State) (e : Event) (s' : State) (_ : Event) : Prop :=
  match e with
  | .takeDetection recording _ =>
    ∀ m d m' d', nextAccepted recording s = some (m, d) →
      nextAccepted recording s' = some (m', d') → m.element = m'.element
  | _ => True

/-- What differs in nothing but where operators are, and in what `clear` takes away. -/
structure Alike (sensorID : String) (clear : Model.Detection → Model.Detection) (s s' : State) :
    Prop where
  sensors : List.Forall₂ (SentTwins sensorID) s.sensors s'.sensors
  fusion : s.fusion.blind = s'.fusion.blind
  detections : List.Forall₂ (SentTwins sensorID) s.detections s'.detections
  tracks : s.tracks.map Fusion.Message.blind = s'.tracks.map Fusion.Message.blind
  kept : s.kept.hide clear = s'.kept.hide clear

/-! ## Fusion -/

variable {cfg : Services} {clear : Model.Detection → Model.Detection} {s s' : State}

theorem aboutTrack_blind (m : Fusion.Message) : aboutTrack m.blind = aboutTrack m := by
  obtain ⟨topic, payload⟩ := m
  cases payload <;> rfl

theorem map_blind_aboutTrack (l : List Fusion.Message) :
    (l.reverse.filter aboutTrack).map Fusion.Message.blind =
      (l.map Fusion.Message.blind).reverse.filter aboutTrack := by
  rw [← List.map_reverse, List.filter_map]
  exact congrArg (List.map _) (List.filter_congr fun m _ ↦ (aboutTrack_blind m).symm)

/-- **An iteration of fusion's.** -/
theorem Alike.iterate (h : Alike cfg.sensor.sensorID clear s s') {e e' : Fusion.Event}
    (he : e.blind = e'.blind) : Alike cfg.sensor.sensorID clear (s.iterate cfg e) (s'.iterate cfg e') := by
  have hloop : (s.fusion.handle cfg.fusion e).blind = (s'.fusion.handle cfg.fusion e').blind := by
    rw [Fusion.Loop.blind_handle, Fusion.Loop.blind_handle, h.fusion, he]
  constructor
  case sensors => exact h.sensors
  case detections => exact h.detections
  case kept => exact h.kept
  case fusion => exact congrArg (fun loop ↦ { loop with published := [] }) hloop
  case tracks =>
    have hpublished : (s.fusion.handle cfg.fusion e).published.map Fusion.Message.blind =
        (s'.fusion.handle cfg.fusion e').published.map Fusion.Message.blind :=
      congrArg Fusion.Loop.published hloop
    rw [State.iterate, State.iterate, List.map_append, List.map_append, map_blind_aboutTrack,
      map_blind_aboutTrack, hpublished, h.tracks]

/-! ## The API and tracks -/

/-- An effect with its document redacted. -/
def hideEffect : Effect → Effect
  | .upsertTrack t => .upsertTrack (t.redact false)
  | e => e

/-- A message with its document redacted. -/
def hideMessage (m : FusionMessage) : FusionMessage :=
  { m with decoded := m.decoded.map (·.redact false) }

/-- Answers with the document of the store redacted. -/
def hideAnswers (a : Answers) : Answers := { a with stored := a.stored.map (·.redact false) }

theorem fusionMessage_blind (m : Fusion.Message) :
    fusionMessage m.blind = hideMessage (fusionMessage m) := by
  obtain ⟨topic, payload⟩ := m
  cases payload with
  | relayed body => rfl
  | track t =>
    exact congrArg (FusionMessage.mk topic (some t.trackID)) (Model.map_redact_decodeTrack t).symm
  | trackID id =>
    refine congrArg (FusionMessage.mk topic (some id)) ?_
    show (if id = "" then none else _) = Option.map _ (if id = "" then none else _)
    split <;> rfl

theorem trimHistory_redact (n : ℤ) (t : Model.Track) :
    trimHistory n (t.redact false) = (trimHistory n t).redact false := by
  rw [trimHistory, trimHistory]
  show (if 0 < n ∧ n < t.history.length then _ else _) =
    Model.Track.redact (if 0 < n ∧ n < t.history.length then _ else _) false
  split <;> rfl

theorem map_hideEffect_closeByID (a : Answers) (id : String) :
    (closeByID a id).map hideEffect = closeByID (hideAnswers a) id := by
  obtain ⟨recording, now, stored⟩ := a
  cases stored <;> rfl

theorem map_hideEffect_takeTrack {api : Ingestor} (hexpose : api.expose = false) (a : Answers)
    (t : Model.Track) :
    (takeTrack api a t).map hideEffect = takeTrack api (hideAnswers a) (t.redact false) := by
  rw [takeTrack, takeTrack, hexpose]
  show List.map hideEffect (if t.state = "CLOSED" then _ else _) =
    if t.state = "CLOSED" then _ else _
  split
  · rfl
  · show _ :: _ :: _ :: List.map hideEffect (if t.state = "CONFIRMED" then _ else _) =
      _ :: _ :: _ :: if t.state = "CONFIRMED" then _ else _
    split <;> rfl

/-- **What the API does with a message about a track** does not depend on the operator. -/
theorem map_hideEffect_track {api : Ingestor} (hexpose : api.expose = false) (a : Answers)
    (m : FusionMessage) :
    (api.track a m).map hideEffect = api.track (hideAnswers a) (hideMessage m) := by
  have hrecording : (hideAnswers a).recording = a.recording := rfl
  have hcloses : (hideMessage m).closes = m.closes := rfl
  have hdecoded : (hideMessage m).decoded = m.decoded.map (·.redact false) := rfl
  rw [Ingestor.track, Ingestor.track, hrecording, hcloses, hdecoded]
  split
  · rfl
  · cases m.closes with
    | some id => exact map_hideEffect_closeByID a id
    | none =>
      cases m.decoded with
      | none => rfl
      | some t =>
        dsimp only [Option.map_some]
        rw [trimHistory_redact]
        exact map_hideEffect_takeTrack hexpose a _

theorem trackOutput_hideEffect (e : Effect) : trackOutput (hideEffect e) = trackOutput e := by
  cases e <;> rfl

theorem hide_writeTrack (kept : Archive) (e : Effect) :
    (writeTrack kept e).hide clear = writeTrack (kept.hide clear) (hideEffect e) := by
  cases e with
  | upsertTrack t => exact kept.hide_upsertTrack clear t
  | _ => rfl

theorem hide_foldl_writeTrack (kept : Archive) (es : List Effect) :
    (es.foldl writeTrack kept).hide clear =
      (es.map hideEffect).foldl writeTrack (kept.hide clear) := by
  induction es generalizing kept with
  | nil => rfl
  | cons e es ih => rw [List.foldl_cons, ih, hide_writeTrack, List.map_cons, List.foldl_cons]

theorem hide_stored (clear : Model.Detection → Model.Detection) (s : State) (m : FusionMessage) :
    (s.stored m).map (·.redact false) =
      ({ s with kept := s.kept.hide clear } : State).stored (hideMessage m) := by
  have hcloses : (hideMessage m).closes = m.closes := rfl
  rw [State.stored, State.stored, hcloses]
  cases m.closes with
  | none => rfl
  | some id => exact s.kept.hide_getTrack clear _

theorem Alike.takeTrack (hexpose : cfg.api.expose = false) (h : Alike cfg.sensor.sensorID clear s s')
    (recording : Bool) (now : GoTime) :
    Alike cfg.sensor.sensorID clear (s.step cfg (.takeTrack recording now)).1
        (s'.step cfg (.takeTrack recording now)).1 ∧
      (s.step cfg (.takeTrack recording now)).2 = (s'.step cfg (.takeTrack recording now)).2 := by
  rw [State.step, State.step]
  have htracks := h.tracks
  rcases hs : s.tracks with _ | ⟨m, rest⟩ <;> rcases hs' : s'.tracks with _ | ⟨m', rest'⟩ <;>
    rw [hs, hs'] at htracks
  · exact ⟨h, rfl⟩
  · cases htracks
  · cases htracks
  obtain ⟨hm, hrest⟩ := List.cons.inj htracks
  have hmessage : hideMessage (fusionMessage m) = hideMessage (fusionMessage m') := by
    rw [← fusionMessage_blind, ← fusionMessage_blind, hm]
  have hanswers : hideAnswers ⟨recording, now, s.stored (fusionMessage m)⟩ =
      hideAnswers ⟨recording, now, s'.stored (fusionMessage m')⟩ := by
    refine congrArg (Answers.mk recording now) ?_
    rw [hide_stored clear, hide_stored clear, hmessage, State.stored, State.stored, h.kept]
  have heffects : (cfg.api.track ⟨recording, now, s.stored (fusionMessage m)⟩
        (fusionMessage m)).map hideEffect =
      (cfg.api.track ⟨recording, now, s'.stored (fusionMessage m')⟩
        (fusionMessage m')).map hideEffect := by
    rw [map_hideEffect_track hexpose, map_hideEffect_track hexpose, hmessage, hanswers]
  constructor
  · refine ⟨h.sensors, h.fusion, h.detections, hrest, ?_⟩
    show Archive.hide (List.foldl writeTrack _ _) clear = Archive.hide (List.foldl writeTrack _ _) clear
    rw [hide_foldl_writeTrack, hide_foldl_writeTrack, heffects, h.kept]
  · have houtput (es : List Effect) :
        es.filterMap trackOutput = (es.map hideEffect).filterMap trackOutput := by
      rw [List.filterMap_map]
      exact congrArg (List.filterMap · es) (funext fun e ↦ (trackOutput_hideEffect e).symm)
    show List.filterMap trackOutput _ = List.filterMap trackOutput _
    rw [houtput, heffects, ← houtput]

/-! ## The API and detections -/

/-- What a detection is handed on as. -/
def handedOn (cfg : Services) (now : GoTime) (d : Model.Detection) : List Output :=
  [.detection (d.redact cfg.api.expose), .hooks (detectionEvent (d.redact cfg.api.expose) now)]

/-- **A detection is kept and handed on** if it is taken, and nothing happens otherwise. -/
theorem step_takeDetection (cfg : Services) (recording : Bool) (now : GoTime) {m : Sent} {rest : List Sent}
    (hs : s.detections = m :: rest) :
    s.step cfg (.takeDetection recording now) =
      match accepted recording (Model.decodeDetection m.document) with
      | some d => ({ s with detections := rest, kept := s.kept.insertDetection d },
          handedOn cfg now d)
      | none => ({ s with detections := rest }, []) := by
  rw [State.step, hs]
  dsimp only
  rw [detection_eq]
  cases accepted recording (Model.decodeDetection m.document) with
  | some d => rfl
  | none => cases recording <;> rfl

/-- Twins are both taken, or neither is. -/
theorem accepted_twins {sensorID : String} {m m' : Sent} (h : SentTwins sensorID m m')
    (recording : Bool) :
    (accepted recording (Model.decodeDetection m.document)).map bare =
      (accepted recording (Model.decodeDetection m'.document)).map bare := by
  have hmap (o : Option Model.Detection) :
      (accepted recording o).map bare = accepted recording (o.map bare) := by
    cases o with
    | none => rfl
    | some d =>
      show Option.map bare (if decide (recording ∧ d.detectionID ≠ "") then some d else none) =
        if decide (recording ∧ d.detectionID ≠ "") then some (bare d) else none
      split <;> rfl
  rw [hmap, hmap, h.decode]

theorem nextAccepted_eq (recording : Bool) {m : Sent} {rest : List Sent}
    (hs : s.detections = m :: rest) : nextAccepted recording s =
      (accepted recording (Model.decodeDetection m.document)).map fun d ↦ (m, d) := by
  rw [nextAccepted, hs, List.head?_cons, Option.bind_some]

/-- What became of the next detection: neither run took one, or both did, and these are twins. -/
inductive Taken (cfg : Services) (recording : Bool) (now : GoTime) (s s' : State) : Prop
  | neither {rest rest' : List Sent} (hnext : nextAccepted recording s = none)
      (hrest : List.Forall₂ (SentTwins cfg.sensor.sensorID) rest rest')
      (hs : s.step cfg (.takeDetection recording now) = ({ s with detections := rest }, []))
      (hs' : s'.step cfg (.takeDetection recording now) = ({ s' with detections := rest' }, []))
  | both {m m' : Sent} {d d' : Model.Detection} {rest rest' : List Sent}
      (hnext : nextAccepted recording s = some (m, d))
      (hnext' : nextAccepted recording s' = some (m', d'))
      (hm : SentTwins cfg.sensor.sensorID m m') (hd : Model.decodeDetection m.document = some d)
      (hd' : Model.decodeDetection m'.document = some d') (hbare : bare d = bare d')
      (hrest : List.Forall₂ (SentTwins cfg.sensor.sensorID) rest rest')
      (hs : s.step cfg (.takeDetection recording now) =
        ({ s with detections := rest, kept := s.kept.insertDetection d }, handedOn cfg now d))
      (hs' : s'.step cfg (.takeDetection recording now) =
        ({ s' with detections := rest', kept := s'.kept.insertDetection d' }, handedOn cfg now d'))

theorem step_takeDetection_nil (recording : Bool) (now : GoTime) (hs : s.detections = []) :
    s.step cfg (.takeDetection recording now) = ({ s with detections := [] }, []) := by
  rw [State.step, hs]
  obtain ⟨sensors, fusion, detections, tracks, kept⟩ := s
  exact congrArg (fun l ↦ ((⟨sensors, fusion, l, tracks, kept⟩ : State), ([] : List Output))) hs

theorem Alike.taken (h : Alike cfg.sensor.sensorID clear s s') (recording : Bool) (now : GoTime) :
    Taken cfg recording now s s' := by
  have hdetections := h.detections
  rcases hs : s.detections with _ | ⟨m, rest⟩ <;> rcases hs' : s'.detections with _ | ⟨m', rest'⟩ <;>
    rw [hs, hs'] at hdetections
  · exact .neither (by rw [nextAccepted, hs]; rfl) .nil (step_takeDetection_nil recording now hs)
      (step_takeDetection_nil recording now hs')
  · cases hdetections
  · cases hdetections
  obtain ⟨hm, hrest⟩ := List.forall₂_cons.mp hdetections
  have hbare := accepted_twins hm recording
  have hstep := step_takeDetection cfg recording now hs
  have hstep' := step_takeDetection cfg recording now hs'
  have hnext := nextAccepted_eq recording hs
  have hnext' := nextAccepted_eq recording hs'
  cases hd : accepted recording (Model.decodeDetection m.document) with
  | none =>
    have hd' : accepted recording (Model.decodeDetection m'.document) = none := by
      rwa [hd, Option.map_none, eq_comm, Option.map_eq_none_iff] at hbare
    rw [hd] at hstep hnext
    rw [hd'] at hstep'
    exact .neither hnext hrest hstep hstep'
  | some d =>
    rw [hd, Option.map_some, eq_comm] at hbare
    obtain ⟨d', hd', hbare⟩ := Option.map_eq_some_iff.mp hbare
    rw [hd] at hstep hnext
    rw [hd'] at hstep' hnext'
    exact .both hnext hnext' hm (Option.filter_eq_some_iff.mp hd).1
      (Option.filter_eq_some_iff.mp hd').1 hbare.symm hrest hstep hstep'

/-- **What the API keeps** of what it takes, where `clear` leaves nothing that differs. -/
theorem Alike.takeDetection (h : Alike cfg.sensor.sensorID clear s s') {recording : Bool}
    {now : GoTime} (hrecord : ∀ d, (clear d).record = d.record)
    (hclear : ∀ m d m' d', nextAccepted recording s = some (m, d) →
      nextAccepted recording s' = some (m', d') → SentTwins cfg.sensor.sensorID m m' →
        Model.decodeDetection m.document = some d → Model.decodeDetection m'.document = some d' →
          bare d = bare d' → clear d = clear d') :
    Alike cfg.sensor.sensorID clear (s.step cfg (.takeDetection recording now)).1
      (s'.step cfg (.takeDetection recording now)).1 := by
  cases h.taken recording now with
  | neither hnext hrest hs hs' =>
    rw [hs, hs']
    exact ⟨h.sensors, h.fusion, hrest, h.tracks, h.kept⟩
  | both hnext hnext' hm hd hd' hbare hrest hs hs' =>
    rw [hs, hs']
    refine ⟨h.sensors, h.fusion, hrest, h.tracks, ?_⟩
    show (s.kept.insertDetection _).hide clear = (s'.kept.insertDetection _).hide clear
    rw [Archive.hide_insertDetection _ (hrecord _), Archive.hide_insertDetection _ (hrecord _),
      h.kept, hclear _ _ _ _ hnext hnext' hm hd hd' hbare]

/-! ## All events -/

/-- The events that do not take a detection. -/
theorem Alike.step_of_ne (hexpose : cfg.api.expose = false)
    (h : Alike cfg.sensor.sensorID clear s s') {e e' : Event} (he : EventTwins e e')
    (hne : ∀ recording now, e ≠ .takeDetection recording now) :
    Alike cfg.sensor.sensorID clear (s.step cfg e).1 (s'.step cfg e').1 := by
  cases he with
  | frame draw hframe =>
    exact ⟨List.rel_append h.sensors (hframe.sent cfg.sensor draw), h.fusion, h.detections,
      h.tracks, h.kept⟩
  | refl =>
    cases e with
    | frame bytes draw =>
      exact ⟨List.rel_append h.sensors (List.forall₂_same.mpr fun m _ ↦ .refl m), h.fusion,
        h.detections, h.tracks, h.kept⟩
    | sensor m =>
      exact ⟨List.rel_append h.sensors (.cons (.refl m) .nil), h.fusion, h.detections, h.tracks,
        h.kept⟩
    | fuse now terrain =>
      have hsensors := h.sensors
      rw [State.step, State.step]
      rcases hs : s.sensors with _ | ⟨m, rest⟩ <;> rcases hs' : s'.sensors with _ | ⟨m', rest'⟩ <;>
        rw [hs, hs'] at hsensors
      · exact h
      · cases hsensors
      · cases hsensors
      obtain ⟨hm, hrest⟩ := List.forall₂_cons.mp hsensors
      have hnext : Alike cfg.sensor.sensorID clear
          { s with sensors := rest, detections := s.detections ++ [m] }
          { s' with sensors := rest', detections := s'.detections ++ [m'] } :=
        ⟨hrest, h.fusion, List.rel_append h.detections (.cons hm .nil), h.tracks, h.kept⟩
      refine hnext.iterate ?_
      show Fusion.Event.message _ now terrain = .message _ now terrain
      rw [hm.unmarshal, topicOf, topicOf, hm.classOf]
    | tick now order => exact h.iterate rfl
    | takeDetection recording now => exact absurd rfl (hne recording now)
    | takeTrack recording now => exact (h.takeTrack hexpose recording now).1
    | purge tracksBefore detectionsBefore =>
      refine ⟨h.sensors, h.fusion, h.detections, h.tracks, ?_⟩
      show (s.kept.purge _ _).hide clear = (s'.kept.purge _ _).hide clear
      rw [Archive.hide_purge, Archive.hide_purge, h.kept]
    | ask q => exact h

/-- What is handed on of them, unless a client asks. -/
theorem Alike.quiet_of_ne (hexpose : cfg.api.expose = false)
    (h : Alike cfg.sensor.sensorID clear s s') {e e' : Event} (he : EventTwins e e')
    (hne : ∀ recording now, e ≠ .takeDetection recording now) (hask : ∀ q, e ≠ .ask q) :
    (s.step cfg e).2 = (s'.step cfg e').2 := by
  cases he with
  | frame draw hframe => rfl
  | refl =>
    cases e with
    | fuse now terrain =>
      have hsensors := h.sensors
      rw [State.step, State.step]
      rcases hs : s.sensors with _ | ⟨m, rest⟩ <;> rcases hs' : s'.sensors with _ | ⟨m', rest'⟩ <;>
        rfl
    | takeDetection recording now => exact absurd rfl (hne recording now)
    | takeTrack recording now => exact (h.takeTrack hexpose recording now).2
    | ask q => exact absurd rfl (hask q)
    | frame | sensor | tick | purge => rfl

/-! ## Up to the elements -/

/-- A detection without its element. -/
def Output.mask : Output → Output
  | .detection d => .detection (bare d)
  | .answer (.detections page) => .answer (.detections (Archive.page bare page))
  | o => o

/-- An event, and what is handed on without the elements. -/
def State.maskedStep (cfg : Services) (s : State) (e : Event) : State × List Output :=
  ((s.step cfg e).1, (s.step cfg e).2.map Output.mask)

theorem mask_detectionPage (kept : Archive) (p : Store.ListPage Store.Detection) :
    Output.mask (.answer (kept.detectionPage false p)) =
      Output.mask (.answer ((kept.hide bare).detectionPage false p)) := by
  rw [Archive.detectionPage, Archive.detectionPage, Output.mask, Output.mask, Archive.page,
    Archive.page, Archive.page, Archive.page, List.map_map, List.map_map]
  rfl

theorem mask_answer (kept : Archive) (q : Query) :
    Output.mask (.answer (kept.answer false q)) =
      Output.mask (.answer ((kept.hide bare).answer false q)) := by
  cases q with
  | track id => rfl
  | tracks fold q => rfl
  | detections q => exact mask_detectionPage kept _
  | trackDetections id since limit cursor =>
    have hrows : (kept.hide bare).rows.tracks.get id = kept.rows.tracks.get id := rfl
    rw [Archive.answer, Archive.answer, hrows]
    cases kept.rows.tracks.get id with
    | none => rfl
    | some row => exact mask_detectionPage kept _

/-- What is masked cannot be told apart, whatever is taken. -/
def maskedUnwinding (hexpose : cfg.api.expose = false) :
    TwoRuns.Unwinding (State.maskedStep cfg) EventTwins fun _ _ _ _ ↦ True where
  alike := Alike cfg.sensor.sensorID bare
  keeps {s s' e e'} h he _ := by
    cases e with
    | takeDetection recording now =>
      cases he
      exact h.takeDetection (fun _ ↦ rfl) fun _ _ _ _ _ _ _ _ _ hbare ↦ hbare
    | _ => exact h.step_of_ne hexpose he (by simp)
  quiet {s s' e e'} h he _ := by
    cases e with
    | takeDetection recording now =>
      cases he
      rw [State.maskedStep, State.maskedStep]
      cases h.taken recording now with
      | neither hnext hrest hs hs' => rw [hs, hs']
      | @both m m' d d' _ _ hnext hnext' hm hd hd' hbare hrest hs hs' =>
        rw [hs, hs']
        have hhanded (d : Model.Detection) : (handedOn cfg now d).map Output.mask =
            [.detection (bare d), .hooks (detectionEvent (bare d) now)] := by
          rw [handedOn, hexpose]
          rfl
        show (handedOn cfg now d).map Output.mask = (handedOn cfg now d').map Output.mask
        rw [hhanded, hhanded, hbare]
    | ask q =>
      cases he
      show [Output.mask (.answer (s.kept.answer cfg.api.expose q))] =
        [Output.mask (.answer (s'.kept.answer cfg.api.expose q))]
      rw [hexpose, mask_answer, h.kept, ← mask_answer]
    | _ => exact congrArg (List.map Output.mask) (h.quiet_of_ne hexpose he (by simp) (by simp))
  loud _ _ hnot := absurd trivial hnot

/-- What is handed on can be told apart where an element differs. -/
def unwinding (hexpose : cfg.api.expose = false) :
    TwoRuns.Unwinding (State.step cfg) EventTwins SameElement where
  alike := Alike cfg.sensor.sensorID fun d ↦ d.redact false
  keeps {s s' e e'} h he hsame := by
    cases e with
    | takeDetection recording now =>
      cases he
      refine h.takeDetection (fun _ ↦ rfl) fun m d m' d' hnext hnext' hm hd hd' _ ↦ ?_
      have hdocument := hm.document_eq (hsame m d m' d' hnext hnext')
      rw [← hdocument, hd] at hd'
      rw [Option.some.inj hd']
    | _ => exact h.step_of_ne hexpose he (by simp)
  quiet {s s' e e'} h he hsame := by
    cases e with
    | takeDetection recording now =>
      cases he
      cases h.taken recording now with
      | neither hnext hrest hs hs' => rw [hs, hs']
      | both hnext hnext' hm hd hd' hbare hrest hs hs' =>
        have hdocument := hm.document_eq (hsame _ _ _ _ hnext hnext')
        rw [← hdocument, hd] at hd'
        rw [hs, hs', Option.some.inj hd']
    | ask q =>
      cases he
      show [Output.answer (s.kept.answer cfg.api.expose q)] =
        [Output.answer (s'.kept.answer cfg.api.expose q)]
      rw [hexpose, ← Archive.answer_hide, h.kept, Archive.answer_hide]
    | _ => exact h.quiet_of_ne hexpose he (by simp) (by simp)
  loud {s s' e e'} h he hnot := by
    cases e with
    | takeDetection recording now =>
      cases he
      cases h.taken recording now with
      | neither hnext hrest hs hs' =>
        refine absurd (fun m d m' d' hm ↦ ?_) hnot
        rw [hnext] at hm
        cases hm
      | both hnext hnext' hm hd hd' hbare hrest hs hs' =>
        have hne : _ ≠ _ := fun helement ↦ hnot fun m d m' d' hm hm' ↦ by
          rw [hnext] at hm
          rw [hnext'] at hm'
          cases hm
          cases hm'
          exact helement
        rw [hs, hs']
        intro heq
        have hfirst := Output.detection.inj (List.cons.inj heq).1
        rw [hexpose] at hfirst
        exact hm.redact_ne hne hd hd' hfirst
    | _ => exact absurd trivial hnot

theorem Alike.init (sensorID : String) (clear : Model.Detection → Model.Detection) :
    Alike sensorID clear {} {} := ⟨.nil, rfl, .nil, rfl, rfl⟩

/-- **Where operators are is told by the elements alone.**  Two runs whose frames differ in the bytes
that say where operators are hand on the same, up to the elements of detections. -/
theorem operator_masked (cfg : Services) (hexpose : cfg.api.expose = false) {es es' : List Event}
    (hes : List.Forall₂ EventTwins es es') :
    TwoRuns.outputs (State.maskedStep cfg) {} es = TwoRuns.outputs (State.maskedStep cfg) {} es' := by
  have halong (s s' : State) (es es' : List Event) :
      TwoRuns.Along (State.maskedStep cfg) (fun _ _ _ _ ↦ True) s es s' es' := by
    induction es generalizing s s' es' with
    | nil => exact trivial
    | cons e es ih =>
      cases es' with
      | nil => exact trivial
      | cons e' es' => exact ⟨trivial, ih ..⟩
  exact (maskedUnwinding hexpose).outputs_eq hes (Alike.init _ _) (halong ..)

/-- A System message with a byte of the operator's latitude. -/
def operatorAt (b : Byte) : List Byte := [0x42, 0, b] ++ List.replicate 22 0

/-- The element that it is sent in. -/
def operatorElement (b : Byte) : List Byte := [0xfa, 0x0b, 0xbc, 0x0d, 0] ++ operatorAt b

/-- The services with their defaults. -/
def services0 : Services := ⟨wifi0, Fusion.defaultLoop, { maxHistory := 0, expose := false }⟩

/-- The message is captured, relayed, and taken by the API. -/
def watched (b : Byte) : List Event :=
  [.frame (beaconFrame 196 (operatorElement b)) still, .fuse 0 fun _ _ _ ↦ none,
    .takeDetection true 0]

theorem twins_watched (b : Byte) : List.Forall₂ EventTwins (watched 0) (watched b) := by
  have hpayload : Odid.PayloadTwins (operatorAt 0) (operatorAt b) := by
    refine ⟨rfl, fun i ↦ ?_⟩
    by_cases hi : i = 2
    · exact .inr ⟨0, rfl, rfl, 2, by decide, hi⟩
    · rcases i with _ | _ | _ | i
      · exact .inl rfl
      · exact .inl rfl
      · exact absurd rfl hi
      · exact .inl rfl
  have helement : ElementTwins (operatorElement 0) (operatorElement b) :=
    @ElementTwins.intro [0xfa, 0x0b, 0xbc, 0x0d, 0] _ _ rfl rfl rfl hpayload
  have hframe : FrameTwins (beaconFrame 196 (operatorElement 0))
      (beaconFrame 196 (operatorElement b)) :=
    @FrameTwins.intro ([0, 0, 9, 0, 0x20, 0, 0, 0, 196] ++ [0x80] ++ List.replicate 35 0) _ _
      ⟨9, none, some (-60)⟩ rfl rfl (.element 30 rfl helement (.refl []))
  exact .cons (.frame still hframe) (.cons (.refl _) (.cons (.refl _) .nil))

theorem masked_watched : TwoRuns.outputs (State.maskedStep services0) {} (watched 0) =
    TwoRuns.outputs (State.maskedStep services0) {} (watched 1) :=
  operator_masked services0 rfl (twins_watched 1)

/-- **And they do tell.**  The runs hand on the same exactly if the elements are the same whenever the
API takes a detection. -/
theorem operator_told_iff (cfg : Services) (hexpose : cfg.api.expose = false) {es es' : List Event}
    (hes : List.Forall₂ EventTwins es es') :
    TwoRuns.outputs (State.step cfg) {} es = TwoRuns.outputs (State.step cfg) {} es' ↔
      TwoRuns.Along (State.step cfg) SameElement {} es {} es' :=
  (unwinding hexpose).outputs_eq_iff hes (Alike.init _ _)

/-- What the API has in front of it when it takes the message. -/
def beforeTaking (b : Byte) : State :=
  ((State.step services0 {} (.frame (beaconFrame 196 (operatorElement b)) still)).1.step services0
    (.fuse 0 fun _ _ _ ↦ none)).1

theorem told_watched : TwoRuns.outputs (State.step services0) {} (watched 0) ≠
    TwoRuns.outputs (State.step services0) {} (watched 1) := by
  intro heq
  obtain ⟨-, -, hsame, -⟩ := (operator_told_iff services0 rfl (twins_watched 1)).mp heq
  have hnext : ∀ b < 2, (nextAccepted true (beforeTaking b)).map (·.1.element) =
      some (some (operatorElement b)) := by decide +kernel
  obtain ⟨⟨m, d⟩, hm, helement⟩ := Option.map_eq_some_iff.mp (hnext 0 (by decide))
  obtain ⟨⟨m', d'⟩, hm', helement'⟩ := Option.map_eq_some_iff.mp (hnext 1 (by decide))
  have hbytes := helement.symm.trans ((hsame m d m' d' hm hm').trans helement')
  exact absurd hbytes (by decide)

end ClassG.Whole
