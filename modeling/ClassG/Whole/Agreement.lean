import ClassG.Fusion.Mirror
import ClassG.Whole.Services

/-!
# The API has what fusion has

Fusion publishes a track when its document changes, and the API keeps what it is told.  What the
API has, with what still waits on the track bus, is then each document of fusion's, with its trail
cut to the last positions, and no other (`follows_iff`).  Whenever the bus is empty the API has just
these: `drained_agrees`.

That takes an API that records all the time and deletes nothing.  And it takes that no live track
adopts the serial of a detection and is found finished, since nobody is told what that changes.
-/

set_option autoImplicit false

namespace ClassG.Fusion

open TrackStore Loop

/-! ## What fusion has said -/

variable {lc : LoopConfig} {s : Loop}

/-- What fusion says of a track. -/
inductive SaidOf (lc : LoopConfig) (r : Ref) : Message → Prop
  | update (t : Track) (h : t.trackID = lc.cfg.newID r) : SaidOf lc r (updateMessage lc t)
  | closed (t : Track) (h : t.trackID = lc.cfg.newID r) : SaidOf lc r (closedMessage lc t)

/-- More has been said before. -/
def Loop.over (s : Loop) (ms : List Message) : Loop := { s with published := s.published ++ ms }

theorem over_foldl {ms : List Message} {f : Loop → Ref → Loop}
    (hf : ∀ s r, f (s.over ms) r = (f s r).over ms) (l : List Ref) (s : Loop) :
    l.foldl f (s.over ms) = (l.foldl f s).over ms := by
  induction l generalizing s with
  | nil => rfl
  | cons r l ih => rw [List.foldl_cons, List.foldl_cons, hf, ih]

theorem over_publishUpdate (lc : LoopConfig) (ms : List Message) (s : Loop) (r : Ref) :
    (s.over ms).publishUpdate lc r = (s.publishUpdate lc r).over ms := rfl

theorem over_publishLifecycle (lc : LoopConfig) (ms : List Message) (s : Loop) (r : Ref) :
    (s.over ms).publishLifecycle lc r = (s.publishLifecycle lc r).over ms := by
  rw [publishLifecycle, publishLifecycle]
  show (if (s.tracks.heap r).state = .closed then _ else _) =
    Loop.over (if (s.tracks.heap r).state = .closed then _ else _) ms
  split <;> rfl

/-- An iteration does not depend on what has been said before. -/
theorem over_handle (ms : List Message) (s : Loop) (e : Event) :
    (s.over ms).handle lc e = (s.handle lc e).over ms := by
  cases e with
  | message msg now terrain =>
    show (s.over ms).handleMessage lc msg now terrain = (s.handleMessage lc msg now terrain).over ms
    rw [handleMessage, handleMessage]
    dsimp only
    split
    · rfl
    · split
      · rfl
      · rename_i d _
        split
        · rfl
        · have htracks : ((s.over ms).send ⟨msg.topic, .relayed msg.body⟩).tracks =
              (s.send ⟨msg.topic, .relayed msg.body⟩).tracks := rfl
          rw [htracks]
          cases ((s.send ⟨msg.topic, .relayed msg.body⟩).tracks.ingest lc.cfg d now terrain).2 <;> rfl
  | tick now order =>
    let reaped : Loop :=
      { s with
        contacts := (s.contacts.reap lc.contacts now).1
        tracks := (s.tracks.reap lc.cfg now order).1 }
    let correlated (s : Loop) : Loop :=
      (s.tracks.correlateContacts lc.cfg s.contacts.active).2.foldl (publishUpdate lc)
        { s with tracks := (s.tracks.correlateContacts lc.cfg s.contacts.active).1 }
    let changed := (s.tracks.reap lc.cfg now order).2
    have hreaped := over_foldl (over_publishLifecycle lc ms) changed reaped
    have hcorrelated (s : Loop) : correlated (s.over ms) = (correlated s).over ms :=
      over_foldl (over_publishUpdate lc ms) _
        { s with tracks := (s.tracks.correlateContacts lc.cfg s.contacts.active).1 }
    show correlated (changed.foldl (publishLifecycle lc) (reaped.over ms)) =
      (correlated (changed.foldl (publishLifecycle lc) reaped)).over ms
    rw [hreaped, hcorrelated]

/-- The message is about a track. -/
theorem SaidOf.about_iff {r : Ref} {m : Message} (h : SaidOf lc r m) {id : String} :
    m.about id = true ↔ lc.cfg.newID r = id := by
  cases h with
  | update t h => rw [about_updateMessage, h]
  | closed t h => rw [about_closedMessage, h]

theorem saidOf_lifecycleMessage {σ : TrackStore} {r : Ref}
    (h : ∀ id, (lifecycleMessage lc σ r).about id = true ↔ lc.cfg.newID r = id) :
    SaidOf lc r (lifecycleMessage lc σ r) := by
  by_cases hc : (σ.heap r).state = .closed
  · rw [lifecycleMessage, if_pos hc] at h ⊢
    exact .closed _ (about_closedMessage.mp ((h _).mpr rfl))
  · rw [lifecycleMessage, if_neg hc] at h ⊢
    exact .update _ (about_updateMessage.mp ((h _).mpr rfl))

/-- **What fusion says of tracks** is said of tracks that it has made. -/
theorem said_of_run {tr : List (Machine.Step Loop Event)} (h : (mainLoop lc).Run tr s) :
    ∀ m ∈ s.published, (∃ topic body, m = ⟨topic, .relayed body⟩) ∨
      ∃ r < s.tracks.next, SaidOf lc r m := by
  induction h with
  | init h =>
    obtain rfl := h
    exact List.forall_mem_nil _
  | @step _ s e s' hr hn ih =>
    obtain ⟨hok, rfl⟩ := hn
    have hs := sound_of_run lc hr
    have hs' := sound_of_run lc (hr.step e _ ⟨hok, rfl⟩)
    have hold (hnext : s.tracks.next ≤ (s.handle lc e).tracks.next) : ∀ m ∈ s.published,
        (∃ topic body, m = ⟨topic, .relayed body⟩) ∨
          ∃ r < (s.handle lc e).tracks.next, SaidOf lc r m := fun m hm ↦
      (ih m hm).imp_right fun ⟨r, hr, h⟩ ↦ ⟨r, hr.trans_le hnext, h⟩
    cases e with
    | message msg now terrain =>
      cases hd : msg.detection lc with
      | none =>
        obtain ⟨ht, hp⟩ := handleMessage_of_none lc s hd now terrain
        show ∀ m ∈ (s.handleMessage lc msg now terrain).published, _
        rw [hp]
        refine List.forall_mem_cons.mpr ⟨.inl ⟨_, _, rfl⟩, hold (le_of_eq ?_)⟩
        exact (congrArg TrackStore.next ht).symm
      | some d =>
        obtain ⟨ht, hp⟩ := handleMessage_of_some lc s hd now terrain
        obtain ⟨hle, hlt⟩ := hs.indexed.track_lt_next lc.cfg (.ingest d now terrain)
        have hnext : (s.handle lc (.message msg now terrain)).tracks.next =
            (s.tracks.ingest lc.cfg d now terrain).1.next := congrArg TrackStore.next ht
        show ∀ m ∈ (s.handleMessage lc msg now terrain).published, _
        rw [hp]
        refine List.forall_mem_append.mpr ⟨fun m hm ↦ ?_,
          List.forall_mem_cons.mpr ⟨.inl ⟨_, _, rfl⟩, hold (hnext ▸ hle)⟩⟩
        obtain ⟨t, htrack, rfl⟩ := Option.map_eq_some_iff.mp (Option.mem_toList.mp hm)
        have htlt := hlt t htrack
        have hop : (Op.ingest d now terrain).Ok s.tracks := trivial
        exact .inr ⟨t, hnext ▸ htlt, .update _ (hs.named.apply hs.indexed hop t htlt)⟩
    | tick now order =>
      obtain ⟨contacts, ht, hp⟩ := handleTick_eq lc s now order
      have hreap : (Op.reap now order).Ok s.tracks := hok
      have hindexed := hs.indexed.apply lc.cfg hreap
      have hnamed := hs.named.apply hs.indexed hreap
      have hnext : (s.handle lc (.tick now order)).tracks.next = s.tracks.next := by
        show (s.handleTick lc now order).tracks.next = s.tracks.next
        rw [ht, correlateContacts_frame]
        exact reap_next ..
      show ∀ m ∈ (s.handleTick lc now order).published, _
      rw [hp]
      refine List.forall_mem_append.mpr ⟨fun m hm ↦ ?_,
        List.forall_mem_append.mpr ⟨fun m hm ↦ ?_, hold hnext.ge⟩⟩
      · obtain ⟨r, hr, rfl⟩ := List.mem_map.mp hm
        have habout := about_correlated hindexed hnamed r hr (lc.cfg.newID r)
        have hmem := (correlateContacts_changed lc.cfg contacts hindexed.nodup r).mp
          (List.mem_reverse.mp hr)
        have hlt := hindexed.lt_next r hmem.1
        rw [Op.apply, reap_next] at hlt
        exact .inr ⟨r, hnext ▸ hlt, .update _ (about_updateMessage.mp (habout.mpr rfl))⟩
      · obtain ⟨r, hr, rfl⟩ := List.mem_map.mp hm
        have habout := about_lifecycleMessage hs.indexed hs.named hok r hr
        have hmem := (reap_changed lc.cfg hok hs.indexed.nodup r).mp (List.mem_reverse.mp hr)
        exact .inr ⟨r, hnext ▸ hs.indexed.lt_next r hmem.1, saidOf_lifecycleMessage habout⟩

/-- **A serial that is not told.**  The track that adopts it is not among those spoken of. -/
theorem Event.AdoptsFinished.unsaid (hs : Sound lc s) {msg : BusMessage} {now : GoTime}
    {terrain : TerrainResolver} (h : Event.AdoptsFinished lc s (.message msg now terrain)) :
    ∃ a < s.tracks.next, (s.tracks.heap a).identity.serial = "" ∧
      a < (s.handleMessage lc msg now terrain).tracks.next ∧
        ((s.handleMessage lc msg now terrain).tracks.heap a).identity.serial ≠ "" ∧
          ∀ m ∈ (s.handleMessage lc msg now terrain).published,
            m ∈ s.published ∨ ¬m.about (lc.cfg.newID a) = true := by
  obtain ⟨d, hd, a, had, hfin⟩ := h
  rw [Option.mem_def] at hd had
  obtain ⟨⟨hserial, -⟩, -, hempty⟩ := adopts_eq_some.mp had
  have hi : ¬Ignored d := by
    rintro (hcls | ⟨hnone, -⟩)
    · exact detection_not_adsb hd hcls
    · exact hserial hnone
  obtain ⟨t, ht⟩ : ∃ t, (s.tracks.ingest lc.cfg d now terrain).2 = some t :=
    ⟨_, ingest_snd lc.cfg s.tracks now terrain hi⟩
  obtain ⟨htracks, hp⟩ := handleMessage_of_some lc s hd now terrain
  have hmem := hs.indexed.adopts_mem had
  have hlt := hs.indexed.lt_next a hmem
  have hnext := (hs.indexed.track_lt_next lc.cfg (.ingest d now terrain)).1
  rw [htracks, hp, ht]
  refine ⟨a, hlt, hempty, hlt.trans_le hnext, ?_, ?_⟩
  · rw [serial_of_finishes hs.indexed had hfin ht]
    exact hserial
  · have hne := ne_track_of_finishes hs.indexed hfin ht
    refine List.forall_mem_cons.mpr ⟨.inr fun habout ↦ ?_, List.forall_mem_cons.mpr ⟨.inr ?_, ?_⟩⟩
    · exact hne ((about_ingested_iff hs.indexed hs.named ht).mp habout)
    · exact Bool.false_ne_true
    · exact fun m hm ↦ .inl hm

end ClassG.Fusion

namespace ClassG.Whole

open Ingest

/-! ## What the API is told -/

/-- The document of each track. -/
abbrev View := String → Option Model.Track

/-- What the API has. -/
def viewOf (kept : Archive) : View := fun id ↦ (kept.getTrack (.ofString id)).toOption

/-- A document, as the API keeps it. -/
def documentOf (n : ℤ) (t : Fusion.Track) : Option Model.Track :=
  (Model.decodeTrack t).map (trimHistory n)

/-- A document that is closed without another. -/
def closed (t : Model.Track) : Model.Track := { t with state := "CLOSED" }

/-- What a message makes of the documents. -/
def tell (n : ℤ) (v : View) (m : Fusion.Message) : View :=
  match m.payload with
  | .relayed _ => v
  | .track t => Function.update v t.trackID (documentOf n t)
  | .trackID id => Function.update v id ((v id).map closed)

/-- What has been told, the latest first. -/
def toldBy (n : ℤ) (ms : List Fusion.Message) : View := ms.foldr (fun m v ↦ tell n v m) fun _ ↦ none

variable {n : ℤ} {ms : List Fusion.Message} {id : String} {t : Fusion.Track}

theorem exists_documentOf (ht : t.trackID ≠ "") : ∃ d, documentOf n t = some d := by
  rw [documentOf, Model.decodeTrack, if_neg ht]
  exact ⟨_, rfl⟩

theorem documentOf_spec {d : Model.Track} (h : documentOf n t = some d) :
    d.trackID = t.trackID ∧ d.identity.serial = t.identity.serial := by
  obtain ⟨d, hd, rfl⟩ := Option.map_eq_some_iff.mp h
  have hidentity : (trimHistory n d).identity = d.identity := by
    rw [trimHistory]
    split <;> rfl
  rw [trimHistory_trackID, hidentity]
  rw [Model.decodeTrack] at hd
  split at hd
  · cases hd
  · exact Option.some.inj hd ▸ ⟨rfl, rfl⟩

theorem closed_trimHistory (t : Model.Track) :
    closed (trimHistory n t) = trimHistory n (closed t) := by
  rw [trimHistory, trimHistory]
  show closed (if 0 < n ∧ n < t.history.length then _ else _) =
    if 0 < n ∧ n < t.history.length then _ else _
  split <;> rfl

theorem map_closed_documentOf (t : Fusion.Track) :
    (documentOf n t).map closed = documentOf n { t with state := .closed } := by
  have hdecode : (Model.decodeTrack t).map closed =
      Model.decodeTrack { t with state := .closed } := by
    rw [Model.decodeTrack, Model.decodeTrack]
    split <;> rfl
  rw [documentOf, documentOf, ← hdecode, Option.map_map, Option.map_map]
  exact congrArg (Option.map · _) (funext closed_trimHistory)

theorem tell_track (n : ℤ) (v : View) (topic : String) (t : Fusion.Track) :
    tell n v ⟨topic, .track t⟩ = Function.update v t.trackID (documentOf n t) := rfl

theorem tell_trackID (n : ℤ) (v : View) (topic id : String) :
    tell n v ⟨topic, .trackID id⟩ = Function.update v id ((v id).map closed) := rfl

theorem tell_of_not_about {m : Fusion.Message} (v : View) (h : ¬m.about id = true) :
    tell n v m id = v id := by
  obtain ⟨topic, payload⟩ := m
  cases payload with
  | relayed body => rfl
  | track t => exact Function.update_of_ne (fun heq ↦ h (decide_eq_true heq.symm)) ..
  | trackID i => exact Function.update_of_ne (fun heq ↦ h (decide_eq_true heq.symm)) ..

/-- What is told last of a track. -/
theorem toldBy_of_lastAbout {lc : Fusion.LoopConfig}
    (h : Fusion.lastAbout ms id = some (Fusion.Loop.updateMessage lc t)) :
    toldBy n ms id = documentOf n t := by
  induction ms with
  | nil => cases h
  | cons m ms ih =>
    rw [Fusion.lastAbout_cons] at h
    show tell n (toldBy n ms) m id = _
    split at h
    · rename_i habout
      obtain rfl := Option.some.inj h
      rw [Fusion.about_updateMessage] at habout
      rw [← habout]
      exact Function.update_self ..
    · rename_i habout
      rw [tell_of_not_about _ habout]
      exact ih h

/-- A track of which there has been a document has that one, or it is closed. -/
theorem toldBy_of_lastDocument (h : Fusion.lastDocument ms id = some t) :
    toldBy n ms id = documentOf n t ∨
      toldBy n ms id = documentOf n { t with state := .closed } := by
  induction ms with
  | nil => cases h
  | cons m ms ih =>
    rw [Fusion.lastDocument_cons] at h
    show tell n (toldBy n ms) m id = _ ∨ tell n (toldBy n ms) m id = _
    by_cases habout : m.about id = true
    · obtain ⟨topic, payload⟩ := m
      cases payload with
      | relayed body => cases habout
      | track t' =>
        obtain rfl : t'.trackID = id := of_decide_eq_true habout
        have hdocument : Fusion.Message.document t'.trackID ⟨topic, .track t'⟩ = some t' :=
          if_pos rfl
        rw [hdocument, Option.some_or] at h
        obtain rfl := Option.some.inj h
        exact .inl (Function.update_self ..)
      | trackID i =>
        obtain rfl : i = id := of_decide_eq_true habout
        have hclosed : tell n (toldBy n ms) ⟨topic, .trackID i⟩ i = (toldBy n ms i).map closed :=
          Function.update_self ..
        refine .inr (hclosed.trans ?_)
        rcases ih h with h | h <;> rw [h, map_closed_documentOf]
    · rw [Fusion.document_eq_none habout, Option.none_or] at h
      rw [tell_of_not_about _ habout]
      exact ih h

theorem toldBy_of_closed {lc : Fusion.LoopConfig} {t' : Fusion.Track}
    (h : Fusion.lastAbout ms id = some (Fusion.Loop.closedMessage lc t'))
    (hdocument : Fusion.lastDocument ms id = some t) :
    toldBy n ms id = documentOf n { t with state := .closed } := by
  induction ms with
  | nil => cases h
  | cons m ms ih =>
    rw [Fusion.lastAbout_cons] at h
    rw [Fusion.lastDocument_cons] at hdocument
    show tell n (toldBy n ms) m id = _
    split at h
    · rename_i habout
      obtain rfl := Option.some.inj h
      rw [Fusion.about_closedMessage] at habout
      subst habout
      have hclosed : tell n (toldBy n ms) (Fusion.Loop.closedMessage lc t') t'.trackID =
          (toldBy n ms t'.trackID).map closed := Function.update_self ..
      rw [hclosed]
      rcases toldBy_of_lastDocument (n := n) hdocument with h | h <;> rw [h, map_closed_documentOf]
    · rename_i habout
      rw [Fusion.document_eq_none habout, Option.none_or] at hdocument
      rw [tell_of_not_about _ habout]
      exact ih h hdocument

theorem toldBy_append {new : List Fusion.Message} (h : ∀ m ∈ new, ¬m.about id = true) :
    toldBy n (new ++ ms) id = toldBy n ms id := by
  induction new with
  | nil => rfl
  | cons m new ih =>
    obtain ⟨hm, hnew⟩ := List.forall_mem_cons.mp h
    exact (tell_of_not_about _ hm).trans (ih hnew)

theorem toldBy_eq_none (h : ∀ m ∈ ms, ¬m.about id = true) : toldBy n ms id = none := by
  rw [← List.append_nil ms]
  exact toldBy_append h

/-! ## Fusion's documents -/

/-- The documents are those of fusion's tracks, and no others. -/
structure Agrees (n : ℤ) (lc : Fusion.LoopConfig) (σ : Fusion.TrackStore) (v : View) : Prop where
  made : ∀ r < σ.next, v (lc.cfg.newID r) = documentOf n (σ.heap r)
  other : ∀ id, (∀ r < σ.next, lc.cfg.newID r ≠ id) → v id = none

/-- **Messages that mirror the tracks tell their documents.** -/
theorem agrees_toldBy {lc : Fusion.LoopConfig} {σ : Fusion.TrackStore} (h : Fusion.Mirrors lc σ ms)
    (hsaid : ∀ m ∈ ms, (∃ topic body, m = ⟨topic, .relayed body⟩) ∨
      ∃ r < σ.next, Fusion.SaidOf lc r m) : Agrees n lc σ (toldBy n ms) := by
  constructor
  · intro r hr
    by_cases hlive : r ∈ σ.all
    · exact toldBy_of_lastAbout (h.live r hlive)
    · rcases h.ended r hr hlive with ⟨hlast, -⟩ | hlast
      · exact toldBy_of_lastAbout hlast
      · obtain ⟨t, hdocument, hheap⟩ := h.unchanged r hr hlive
        rw [hheap]
        exact toldBy_of_closed hlast hdocument
  · intro id hid
    refine toldBy_eq_none fun m hm habout ↦ ?_
    rcases hsaid m hm with ⟨topic, body, rfl⟩ | ⟨r, hr, hsaid⟩
    · cases habout
    · exact hid r hr (hsaid.about_iff.mp habout)

/-! ## What the API keeps -/

variable {kept : Archive}

/-- Documents are kept under their own ids. -/
def Owned (v : View) : Prop := ∀ id t, v id = some t → t.trackID = id

theorem viewOf_upsertTrack (kept : Archive) {t : Model.Track} (ht : t.trackID ≠ "") :
    viewOf (kept.upsertTrack t) = Function.update (viewOf kept) t.trackID (some t) := by
  have hid : t.record.trackID ≠ [] := fun h ↦ ht (GoBytes.ofString_injective h)
  have hupsert : kept.upsertTrack t =
      { kept with
        rows := { kept.rows with tracks := kept.rows.tracks.put t.record }
        trackDoc := Function.update kept.trackDoc t.record.trackID t } := by
    rw [Archive.upsertTrack, Store.MemStore.upsertTrack, if_neg hid]
  funext id
  rw [viewOf, hupsert, Archive.getTrack]
  dsimp only
  rw [Keyed.get_put]
  by_cases h : id = t.trackID
  · subst h
    have heq : GoBytes.ofString t.trackID = t.record.trackID := rfl
    rw [if_pos heq, Function.update_self]
    exact congrArg some (Function.update_self ..)
  · have hne : GoBytes.ofString id ≠ t.record.trackID := fun heq ↦
      h (GoBytes.ofString_injective heq)
    rw [if_neg hne, Function.update_of_ne h, Function.update_of_ne hne]
    rfl

theorem viewOf_insertDetection (kept : Archive) (d : Model.Detection) :
    viewOf (kept.insertDetection d) = viewOf kept := by
  rw [Archive.insertDetection, Store.MemStore.insertDetection]
  split
  · rfl
  · rename_i rows hrows
    have hsame : rows.tracks = kept.rows.tracks := by
      split at hrows
      · cases hrows
      · split at hrows <;> exact Option.some.inj hrows ▸ rfl
    funext id
    split
    · rw [viewOf, Archive.getTrack, hsame]
      rfl
    · rw [viewOf, Archive.getTrack, hsame]
      rfl

theorem Owned.tell {v : View} (h : Owned v) (m : Fusion.Message) : Owned (tell n v m) := by
  intro id t ht
  obtain ⟨topic, payload⟩ := m
  cases payload with
  | relayed body => exact h id t ht
  | track t' =>
    rw [tell_track, Function.update_apply] at ht
    split at ht
    · rename_i hid
      exact (documentOf_spec ht).1.trans hid.symm
    · exact h id t ht
  | trackID i =>
    rw [tell_trackID, Function.update_apply] at ht
    split at ht
    · rename_i hid
      subst hid
      obtain ⟨d, hd, rfl⟩ := Option.map_eq_some_iff.mp ht
      exact h id d hd
    · exact h id t ht

theorem closes_updateMessage (lc : Fusion.LoopConfig) (t : Fusion.Track) :
    (fusionMessage (Fusion.Loop.updateMessage lc t)).closes = none := by
  have hsuffix : GoString.hasSuffix (lc.trackTopic ++ "update") "closed" = false := by
    rw [GoString.hasSuffix, String.toList_append, Bool.eq_false_iff]
    intro h
    have hupdate := List.suffix_of_suffix_length_le (List.isSuffixOf_iff_suffix.mp h)
      (List.suffix_append lc.trackTopic.toList "update".toList) (by decide)
    exact absurd hupdate (by decide)
  exact Option.filter_eq_none_iff.mpr fun id _ h ↦
    Bool.false_ne_true (hsuffix.symm.trans (of_decide_eq_true h).1)

theorem closes_closedMessage (lc : Fusion.LoopConfig) {t : Fusion.Track} (ht : t.trackID ≠ "") :
    (fusionMessage (Fusion.Loop.closedMessage lc t)).closes = some t.trackID := by
  have hsuffix : GoString.hasSuffix (lc.trackTopic ++ "closed") "closed" = true := by
    rw [GoString.hasSuffix, String.toList_append]
    exact List.isSuffixOf_iff_suffix.mpr (List.suffix_append ..)
  exact Option.filter_eq_some_iff.mpr ⟨rfl, decide_eq_true ⟨hsuffix, ht⟩⟩

theorem foldl_writeTrack_takeTrack (api : Ingestor) (a : Answers) (t : Model.Track)
    (kept : Archive) :
    (takeTrack api a t).foldl writeTrack kept = kept.upsertTrack t := by
  rw [takeTrack]
  split
  · rfl
  · show (if t.state = "CONFIRMED" then _ else _ : List Effect).foldl writeTrack
      (kept.upsertTrack t) = _
    split <;> rfl

/-- **The API keeps what it is told.** -/
theorem viewOf_track (api : Ingestor) {lc : Fusion.LoopConfig} {r : Fusion.Ref} {m : Fusion.Message}
    (hm : Fusion.SaidOf lc r m) (hid : lc.cfg.newID r ≠ "") {s : State}
    (howned : Owned (viewOf s.kept)) (now : GoTime) :
    viewOf ((api.track ⟨true, now, s.stored (fusionMessage m)⟩ (fusionMessage m)).foldl writeTrack
      s.kept) = tell api.maxHistory (viewOf s.kept) m := by
  cases hm with
  | update t ht =>
    have hne : t.trackID ≠ "" := ht ▸ hid
    obtain ⟨d, hd⟩ : ∃ d, Model.decodeTrack t = some d := ⟨_, if_neg hne⟩
    have hdocument : documentOf api.maxHistory t = some (trimHistory api.maxHistory d) := by
      rw [documentOf, hd, Option.map_some]
    have htrackID := (documentOf_spec hdocument).1
    have hdecoded : (fusionMessage (Fusion.Loop.updateMessage lc t)).decoded = some d := hd
    rw [Ingestor.track, closes_updateMessage, hdecoded]
    show viewOf ((takeTrack api _ (trimHistory api.maxHistory d)).foldl writeTrack s.kept) =
      Function.update (viewOf s.kept) t.trackID (documentOf api.maxHistory t)
    rw [foldl_writeTrack_takeTrack, viewOf_upsertTrack _ (htrackID ▸ hne), htrackID, hdocument]
  | closed t ht =>
    have hne : t.trackID ≠ "" := ht ▸ hid
    have hstored : s.stored (fusionMessage (Fusion.Loop.closedMessage lc t)) =
        s.kept.getTrack (.ofString t.trackID) := by
      rw [State.stored, closes_closedMessage lc hne]
    have hview : viewOf s.kept t.trackID = (s.kept.getTrack (.ofString t.trackID)).toOption := rfl
    rw [Ingestor.track, closes_closedMessage lc hne, hstored]
    show viewOf ((closeByID _ t.trackID).foldl writeTrack s.kept) =
      Function.update (viewOf s.kept) t.trackID ((viewOf s.kept t.trackID).map closed)
    cases hget : s.kept.getTrack (.ofString t.trackID) with
    | error err =>
      rw [hget] at hview
      have hself := Function.update_eq_self (f := viewOf s.kept) t.trackID
      rw [hview] at hself ⊢
      exact hself.symm
    | ok d =>
      rw [hget] at hview
      have hd : (closed d).trackID = t.trackID := howned t.trackID d hview
      rw [hview]
      show viewOf (s.kept.upsertTrack (closed d)) = _
      rw [viewOf_upsertTrack _ (hd ▸ hne), hd]
      rfl

/-! ## Runs -/

/-- `Reap` visits every live track once. -/
def Event.Ok (s : State) : Event → Prop
  | .tick _ order => order.Perm s.fusion.tracks.all
  | _ => True

instance (s : State) : (e : Event) → Decidable (e.Ok s)
  | .tick _ order => inferInstanceAs (Decidable (order.Perm s.fusion.tracks.all))
  | .frame .. | .sensor .. | .fuse .. | .takeDetection .. | .takeTrack .. | .purge .. | .ask .. =>
    .isTrue trivial

/-- The services as a machine. -/
def unit (cfg : Services) : Machine State Event where
  init s := s = {}
  next s e s' := e.Ok s ∧ s' = (s.step cfg e).1

/-- The API records, and deletes nothing. -/
def Event.Keeps : Event → Prop
  | .takeTrack recording _ => recording = true
  | .purge _ _ => False
  | _ => True

instance : (e : Event) → Decidable e.Keeps
  | .takeTrack recording _ => inferInstanceAs (Decidable (recording = true))
  | .purge .. => .isFalse not_false
  | .frame .. | .sensor .. | .fuse .. | .tick .. | .takeDetection .. | .ask .. => .isTrue trivial

/-- What fusion does at an event. -/
def Event.fusion (s : State) : Event → Option Fusion.Event
  | .fuse now terrain => s.sensors.head?.map fun m ↦
      .message ⟨topicOf m, Fusion.unmarshal m.document⟩ now terrain
  | .tick now order => some (.tick now order)
  | _ => none

/-- A live track adopts the serial of a detection and is found finished. -/
def Event.AdoptsFinished (cfg : Services) (s : State) (e : Event) : Prop :=
  ∃ f ∈ e.fusion s, f.AdoptsFinished cfg.fusion s.fusion

instance (cfg : Services) (s : State) (e : Event) : Decidable (e.AdoptsFinished cfg s) :=
  inferInstanceAs (Decidable (∃ _ ∈ _, _))

/-- What the API has, with all that waits for it. -/
def State.view (cfg : Services) (s : State) : View :=
  s.tracks.foldl (tell cfg.api.maxHistory) (viewOf s.kept)

/-- What fusion has said so far, which is what the API has. -/
structure Follows (cfg : Services) (s : State) (ms : List Fusion.Message) : Prop where
  run : ∃ tr, (Fusion.mainLoop cfg.fusion).Run tr (s.fusion.over ms)
  sent : s.fusion.published = []
  waiting : ∀ m ∈ s.tracks, ∃ r, Fusion.SaidOf cfg.fusion r m
  owned : Owned (viewOf s.kept)
  told : s.view cfg = toldBy cfg.api.maxHistory ms

variable {cfg : Services} {s s' : State} {e : Event}

theorem foldl_tell_filter (v : View) (ms : List Fusion.Message) :
    (ms.filter aboutTrack).foldl (tell n) v = ms.foldl (tell n) v := by
  induction ms generalizing v with
  | nil => rfl
  | cons m ms ih =>
    obtain ⟨topic, payload⟩ := m
    cases payload with
    | relayed body => exact ih v
    | track t => exact ih _
    | trackID id => exact ih _

/-- **An iteration of fusion's.** -/
theorem Follows.iterate (h : Follows cfg s ms) {f : Fusion.Event} (hok : f.Ok s.fusion)
    (sensors detections : List Wifi.Sent) :
    Follows cfg (({ s with sensors, detections } : State).iterate cfg f)
      ((s.fusion.handle cfg.fusion f).published ++ ms) := by
  obtain ⟨tr, hr⟩ := h.run
  have hr' := hr.step f _ ⟨hok, rfl⟩
  rw [Fusion.over_handle] at hr'
  have hsaid := Fusion.said_of_run hr'
  refine ⟨⟨_, hr'⟩, rfl, ?_, h.owned, ?_⟩
  · intro m hm
    rcases List.mem_append.mp hm with hm | hm
    · exact h.waiting m hm
    · obtain ⟨hm, habout⟩ := List.mem_filter.mp hm
      have hnew := List.mem_append_left ms (List.mem_reverse.mp hm)
      rcases hsaid m hnew with ⟨topic, body, rfl⟩ | ⟨r, -, hm⟩
      · cases habout
      · exact ⟨r, hm⟩
  · show (s.tracks ++ _).foldl (tell _) (viewOf s.kept) = _
    rw [List.foldl_append, ← State.view, h.told, foldl_tell_filter, toldBy, toldBy,
      List.foldr_append, List.foldl_reverse]

/-- What fusion says at an event. -/
def saidAt (cfg : Services) (s : State) (e : Event) : List Fusion.Message :=
  match e.fusion s with
  | some f => (s.fusion.handle cfg.fusion f).published
  | none => []

theorem viewOf_foldl_writeDetection (effects : List DetectionEffect) (kept : Archive) :
    viewOf (effects.foldl writeDetection kept) = viewOf kept := by
  induction effects generalizing kept with
  | nil => rfl
  | cons e effects ih =>
    rw [List.foldl_cons, ih]
    cases e with
    | insertDetection d => exact viewOf_insertDetection kept d
    | _ => rfl

/-- **An event.** -/
theorem Follows.step (hid : ∀ k, cfg.fusion.cfg.newID k ≠ "") (h : Follows cfg s ms)
    (hok : e.Ok s) (hkeeps : e.Keeps) : Follows cfg (s.step cfg e).1 (saidAt cfg s e ++ ms) := by
  cases e with
  | frame bytes draw => exact ⟨h.run, h.sent, h.waiting, h.owned, h.told⟩
  | sensor m => exact ⟨h.run, h.sent, h.waiting, h.owned, h.told⟩
  | fuse now terrain =>
    rw [State.step, saidAt, Event.fusion]
    cases hs : s.sensors with
    | nil => exact h
    | cons m rest =>
      exact h.iterate (f := .message _ now terrain) trivial rest (s.detections ++ [m])
  | tick now order => exact h.iterate (f := .tick now order) hok s.sensors s.detections
  | takeDetection recording now =>
    rw [State.step]
    cases hs : s.detections with
    | nil => exact h
    | cons m rest =>
      have hview := viewOf_foldl_writeDetection
        (cfg.api.detection recording now (Model.decodeDetection m.document)) s.kept
      refine ⟨h.run, h.sent, h.waiting, ?_, ?_⟩
      · exact hview ▸ h.owned
      · exact (congrArg (fun v ↦ s.tracks.foldl (tell cfg.api.maxHistory) v) hview).trans h.told
  | takeTrack recording now =>
    obtain rfl : recording = true := hkeeps
    rw [State.step]
    cases hs : s.tracks with
    | nil => exact h
    | cons m rest =>
      obtain ⟨⟨r, hm⟩, hrest⟩ := List.forall_mem_cons.mp (hs ▸ h.waiting)
      have hview := viewOf_track cfg.api hm (hid r) h.owned now
      have htold := h.told
      rw [State.view, hs] at htold
      refine ⟨h.run, h.sent, hrest, ?_, ?_⟩
      · exact hview ▸ h.owned.tell m
      · exact (congrArg (fun v ↦ rest.foldl (tell cfg.api.maxHistory) v) hview).trans htold
  | purge tracksBefore detectionsBefore => exact hkeeps.elim
  | ask q => exact h

/-! ## Agreement -/

/-- What the API has, with all that waits for it, is what fusion has. -/
def State.Agreed (cfg : Services) (s : State) : Prop :=
  Agrees cfg.api.maxHistory cfg.fusion s.fusion.tracks (s.view cfg)

/-- What the API has follows what fusion has said, and that mirrors what fusion has. -/
def Synced (cfg : Services) (s : State) : Prop :=
  ∃ ms, Follows cfg s ms ∧ Fusion.Mirrors cfg.fusion s.fusion.tracks ms

theorem Follows.agreed (h : Follows cfg s ms) (hm : Fusion.Mirrors cfg.fusion s.fusion.tracks ms) :
    s.Agreed cfg := by
  obtain ⟨tr, hr⟩ := h.run
  rw [State.Agreed, h.told]
  refine agrees_toldBy hm fun m hmem ↦ ?_
  exact Fusion.said_of_run hr m (List.mem_append_right _ hmem)

theorem Event.fusion_ok {f : Fusion.Event} (hok : e.Ok s) (hf : e.fusion s = some f) :
    f.Ok s.fusion := by
  cases e with
  | fuse now terrain =>
    obtain ⟨m, -, rfl⟩ := Option.map_eq_some_iff.mp hf
    exact trivial
  | tick now order =>
    obtain rfl := Option.some.inj hf
    exact hok
  | _ => cases hf

/-- What an event leaves of fusion. -/
theorem tracks_step (cfg : Services) (s : State) (e : Event) :
    (s.step cfg e).1.fusion.tracks = match e.fusion s with
      | some f => (s.fusion.handle cfg.fusion f).tracks
      | none => s.fusion.tracks := by
  cases e with
  | fuse now terrain =>
    rw [State.step, Event.fusion]
    cases s.sensors <;> rfl
  | takeDetection recording now =>
    rw [State.step]
    cases s.detections <;> rfl
  | takeTrack recording now =>
    rw [State.step]
    cases s.tracks <;> rfl
  | _ => rfl

/-- **The messages of an event keep the mirror**, unless a track adopts a serial and is finished. -/
theorem Follows.mirrors_step (h : Follows cfg s ms)
    (hm : Fusion.Mirrors cfg.fusion s.fusion.tracks ms) (hok : e.Ok s)
    (hadopts : ¬e.AdoptsFinished cfg s) :
    Fusion.Mirrors cfg.fusion (s.step cfg e).1.fusion.tracks (saidAt cfg s e ++ ms) := by
  rw [tracks_step, saidAt]
  cases hf : e.fusion s with
  | none => exact hm
  | some f =>
    obtain ⟨tr, hr⟩ := h.run
    have hsound := Fusion.sound_of_run cfg.fusion hr
    have hover :
        Fusion.Mirrors cfg.fusion (s.fusion.over ms).tracks (s.fusion.over ms).published := by
      rw [Fusion.Loop.over, h.sent]
      exact hm
    have hhandle : Fusion.Mirrors cfg.fusion ((s.fusion.over ms).handle cfg.fusion f).tracks
        ((s.fusion.over ms).handle cfg.fusion f).published := by
      cases f with
      | message msg now terrain =>
        exact ((Fusion.message_mirrors_iff hsound hover).mpr fun ha ↦ hadopts ⟨_, hf, ha⟩).1
      | tick now order => exact (Fusion.tick_mirrors hsound (Event.fusion_ok hok hf) hover).1
    rw [Fusion.over_handle] at hhandle
    exact hhandle

/-- **What is not told** is missed: the serial is in fusion's document, and not in the API's. -/
theorem Follows.not_agreed (hid : ∀ k, cfg.fusion.cfg.newID k ≠ "") (h : Follows cfg s ms)
    (hm : Fusion.Mirrors cfg.fusion s.fusion.tracks ms) (hok : e.Ok s) (hkeeps : e.Keeps)
    (hadopts : e.AdoptsFinished cfg s) : ¬(s.step cfg e).1.Agreed cfg := by
  intro hagreed
  have hfollows := h.step hid hok hkeeps
  obtain ⟨tr, hr⟩ := h.run
  have hs := Fusion.sound_of_run cfg.fusion hr
  obtain ⟨f, hf, hadopts⟩ := hadopts
  cases f with
  | tick now order => exact hadopts
  | message msg now terrain =>
    rw [Option.mem_def] at hf
    have hsound : Fusion.Sound cfg.fusion s.fusion := ⟨hs.indexed, hs.named⟩
    obtain ⟨a, hlt, hempty, hlt', hserial, hunsaid⟩ := hadopts.unsaid hsound
    have hsame : toldBy cfg.api.maxHistory (saidAt cfg s e ++ ms) (cfg.fusion.cfg.newID a) =
        toldBy cfg.api.maxHistory ms (cfg.fusion.cfg.newID a) := by
      refine toldBy_append fun m hmem ↦ ?_
      rw [saidAt, hf] at hmem
      refine (hunsaid m hmem).resolve_left fun hold ↦ ?_
      rw [h.sent] at hold
      cases hold
    have htracks := tracks_step cfg s e
    rw [hf] at htracks
    have hbefore := (h.agreed hm).made a hlt
    have hafter := hagreed.made a (htracks ▸ hlt')
    rw [h.told] at hbefore
    rw [hfollows.told, hsame, hbefore, htracks] at hafter
    obtain ⟨d, hd⟩ : ∃ d, documentOf cfg.api.maxHistory (s.fusion.tracks.heap a) = some d :=
      exists_documentOf (hs.named a hlt ▸ hid a)
    have hold := (documentOf_spec hd).2
    have hnew := (documentOf_spec (hafter.symm.trans hd)).2
    exact hserial (hnew.symm.trans (hold.trans hempty))

variable {tr : List (Machine.Step State Event)}

theorem Synced.init (cfg : Services) : Synced cfg {} := by
  have hview : viewOf {} = fun _ ↦ none := rfl
  refine ⟨[], ⟨⟨[], .init rfl⟩, rfl, List.forall_mem_nil _, ?_, hview⟩,
    List.forall_mem_nil _, ?_, ?_⟩
  · intro id t h
    rw [hview] at h
    cases h
  · exact fun r hr ↦ absurd hr (Nat.not_lt_zero r)
  · exact fun r hr ↦ absurd hr (Nat.not_lt_zero r)

theorem Synced.step (hid : ∀ k, cfg.fusion.cfg.newID k ≠ "") (h : Synced cfg s) (hok : e.Ok s)
    (hkeeps : e.Keeps) (hadopts : ¬e.AdoptsFinished cfg s) : Synced cfg (s.step cfg e).1 := by
  obtain ⟨ms, hfollows, hm⟩ := h
  exact ⟨_, hfollows.step hid hok hkeeps, hfollows.mirrors_step hm hok hadopts⟩

theorem synced_of_run (hid : ∀ k, cfg.fusion.cfg.newID k ≠ "") (h : (unit cfg).Run tr s)
    (hkeeps : ∀ x ∈ tr, x.act.Keeps) (hnever : ∀ x ∈ tr, ¬x.act.AdoptsFinished cfg x.pre) :
    Synced cfg s := by
  refine h.invariant_of (C := fun s e ↦ e.Keeps ∧ ¬e.AdoptsFinished cfg s)
    (fun x hx ↦ ⟨hkeeps x hx, hnever x hx⟩) ?_ ?_
  · rintro s rfl
    exact Synced.init cfg
  · rintro s e s' hs ⟨hkeeps, hadopts⟩ ⟨hok, rfl⟩
    exact hs.step hid hok hkeeps hadopts

theorem Synced.agreed (h : Synced cfg s) : s.Agreed cfg := by
  obtain ⟨ms, hfollows, hm⟩ := h
  exact hfollows.agreed hm

/-! ### A flight -/

/-- The services, with ids that are not empty. -/
def flightServices : Services where
  sensor := Wifi.wifi0
  fusion :=
    { cfg :=
      { Fusion.defaultConfig with
        newID := fun k ↦ .ofList (List.replicate (k + 1) 'T')
        newID_injective := fun a b h ↦ by
          simpa using congrArg List.length (String.ofList_injective h) } }
  api := { maxHistory := 0, expose := false }

theorem flight_newID (k : ℕ) : flightServices.fusion.cfg.newID k ≠ "" := fun h ↦
  absurd (String.ofList_injective h) (List.cons_ne_nil _ _)

/-- A detection of a serial. -/
def flightDetection : Wifi.Sent where
  document := .obj [("schema_version", .str "1.0"), ("detection_id", .str "d"),
    ("ts", .str "2024-01-01T00:00:00Z"), ("sensor_id", .str "wifi-0"), ("sensor_kind", .str "wifi"),
    ("detection_class", .str "A"), ("identity", .obj [("serial", .str "S")])]
  element := none

/-- A second after it. -/
def flightStart : GoTime := (GoTime.parseRFC3339Nano (.ofString "2024-01-01T00:00:01Z")).getD 0

/-- From the detection to the end of the track. -/
def flight : List Event :=
  [.sensor flightDetection, .fuse flightStart fun _ _ _ ↦ none, .takeDetection true flightStart,
    .takeTrack true flightStart, .tick (flightStart + 400 * GoDuration.second) [0],
    .takeTrack true flightStart]

def flightSteps : List (Machine.Step State Event) :=
  Machine.replaySteps (fun s e ↦ (s.step flightServices e).1) {} flight []

def flightEnd : State := Machine.replay (fun s e ↦ (s.step flightServices e).1) {} flight

theorem run_flight : (unit flightServices).Run flightSteps flightEnd := by
  have hadmits : Machine.Admits (fun s e ↦ (s.step flightServices e).1) (fun s e ↦ e.Ok s) {}
      flight := by decide +kernel
  exact Machine.Run.replay (M := unit flightServices) (fun _ _ hok ↦ ⟨hok, rfl⟩) flight (.init rfl)
    hadmits

theorem flight_keeps : ∀ x ∈ flightSteps, x.act.Keeps := by decide +kernel

theorem flight_never : ∀ x ∈ flightSteps, ¬x.act.AdoptsFinished flightServices x.pre := by
  decide +kernel

/-! ### Every run -/

/-- **The API has what fusion has**, whenever it has taken all that fusion has said. -/
theorem drained_agrees (cfg : Services) (hid : ∀ k, cfg.fusion.cfg.newID k ≠ "")
    (h : (unit cfg).Run tr s) (hkeeps : ∀ x ∈ tr, x.act.Keeps)
    (hnever : ∀ x ∈ tr, ¬x.act.AdoptsFinished cfg x.pre) (hdrained : s.tracks = []) :
    Agrees cfg.api.maxHistory cfg.fusion s.fusion.tracks (viewOf s.kept) := by
  have hagreed := (synced_of_run hid h hkeeps hnever).agreed
  rw [State.Agreed, State.view, hdrained] at hagreed
  exact hagreed

theorem drained_flight : (viewOf flightEnd.kept "T").map (·.state) = some "CLOSED" := by
  have hagrees := drained_agrees flightServices flight_newID run_flight flight_keeps flight_never
    (by decide +kernel)
  have hmade := hagrees.made 0 (by decide +kernel)
  rw [show "T" = flightServices.fusion.cfg.newID 0 from rfl, hmade]
  decide +kernel

/-- **And it will have it after every event** of a run exactly if no live track ever adopts a serial
and is found finished. -/
theorem agreed_iff (cfg : Services) (hid : ∀ k, cfg.fusion.cfg.newID k ≠ "")
    (h : (unit cfg).Run tr s) (hkeeps : ∀ x ∈ tr, x.act.Keeps) :
    (∀ x ∈ tr, x.post.Agreed cfg) ↔ ∀ x ∈ tr, ¬x.act.AdoptsFinished cfg x.pre := by
  induction h with
  | init => exact iff_of_true (List.forall_mem_nil _) (List.forall_mem_nil _)
  | @step tr s e s' hr hn ih =>
    obtain ⟨hok, rfl⟩ := hn
    obtain ⟨hkeep, hkeeps⟩ := List.forall_mem_cons.mp hkeeps
    rw [List.forall_mem_cons, List.forall_mem_cons, ih hkeeps]
    refine and_congr_left fun hnever ↦ ?_
    have hsynced := synced_of_run hid hr hkeeps hnever
    constructor
    · rintro hagreed hadopts
      obtain ⟨ms, hfollows, hm⟩ := hsynced
      exact hfollows.not_agreed hid hm hok hkeep hadopts hagreed
    · exact fun hadopts ↦ (hsynced.step hid hok hkeep hadopts).agreed

theorem agreed_flight : flightEnd.Agreed flightServices := by
  obtain ⟨x, tr, hx⟩ := List.exists_cons_of_ne_nil (show flightSteps ≠ [] by decide +kernel)
  have hlast : flightEnd = x.post := (hx ▸ run_flight).of_cons.2.2
  have hagreed := (agreed_iff flightServices flight_newID run_flight flight_keeps).mpr flight_never
  rw [hlast]
  exact hagreed x (hx ▸ List.mem_cons_self)

end ClassG.Whole
