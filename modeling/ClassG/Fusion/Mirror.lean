import ClassG.Fusion.TrackBus

/-!
# The bus mirrors the store

Every iteration of the main loop takes the messages sent so far and the store from one pair that
mirrors each other to the next, and publishes every track whose document it changed.  The one
exception is an iteration that ingests a detection for which a live track adopts the serial and is
found finished (`Event.AdoptsFinished`); `mirrored_iff` says that there is no other.
-/

set_option autoImplicit false

namespace ClassG.Fusion

open TrackStore Loop

variable (lc : LoopConfig)

/-! ## One iteration -/

/-- The detection a sensor message hands to `Ingest`, if any. -/
def BusMessage.detection (msg : BusMessage) : Option Detection :=
  if GoString.hasPrefix msg.topic lc.heartbeatTopic then none
  else match parseDetection msg.body with
    | .error _ => none
    | .ok d => if d.detectionClass = classADSB then none else some d

/-- The iteration ingests a detection for which a live track adopts the serial and is found
finished. -/
def Event.AdoptsFinished (s : Loop) : Event → Prop
  | .message msg now _ => ∃ d ∈ msg.detection lc, ClassG.Fusion.AdoptsFinished lc.cfg s.tracks d now
  | .tick _ _ => False

instance (s : Loop) : (e : Event) → Decidable (e.AdoptsFinished lc s)
  | .message _ _ _ => inferInstanceAs (Decidable (∃ _ ∈ _, _))
  | .tick _ _ => .isFalse id

/-- Every track whose document the iteration changed is published in it. -/
def Announces (s s' : Loop) : Prop :=
  ∃ new, s'.published = new ++ s.published ∧
    ∀ r, s'.tracks.heap r ≠ s.tracks.heap r → ∃ m ∈ new, m.about (lc.cfg.newID r) = true

/-- What holds of the store between two iterations, whatever went out on the bus. -/
structure Sound (s : Loop) : Prop where
  indexed : WellIndexed s.tracks ""
  named : Named lc.cfg s.tracks

section iteration

variable {lc} {s : Loop}

theorem Announces.trans {s' s'' : Loop} (h : Announces lc s s') (h' : Announces lc s' s'') :
    Announces lc s s'' := by
  obtain ⟨new, hp, hall⟩ := h
  obtain ⟨new', hp', hall'⟩ := h'
  refine ⟨new' ++ new, by rw [hp', hp, List.append_assoc], fun r hr ↦ ?_⟩
  by_cases hsame : s'.tracks.heap r = s.tracks.heap r
  · obtain ⟨m, hm, ha⟩ := hall' r (hsame ▸ hr)
    exact ⟨m, List.mem_append_left _ hm, ha⟩
  · obtain ⟨m, hm, ha⟩ := hall r hsame
    exact ⟨m, List.mem_append_right _ hm, ha⟩

/-- Publishing the changed tracks announces them. -/
theorem Announces.publish {s' : Loop} {l : List Ref} {g : Ref → Message} (hg : About lc l g)
    (hp : s'.published = l.map g ++ s.published)
    (hkeep : ∀ r, r ∉ l → s'.tracks.heap r = s.tracks.heap r) : Announces lc s s' := by
  refine ⟨l.map g, hp, fun r hr ↦ ?_⟩
  have hch : r ∈ l := not_not.mp fun hch ↦ hr (hkeep r hch)
  exact ⟨g r, List.mem_map_of_mem hch, (hg r hch _).mpr rfl⟩

/-- An iteration that only relays a message has nothing to announce. -/
theorem Mirrors.of_relayed {s' : Loop} {topic : String} {body : Except String Detection}
    (h : Mirrors lc s.tracks s.published) (ht : s'.tracks = s.tracks)
    (hp : s'.published = ⟨topic, .relayed body⟩ :: s.published) :
    Mirrors lc s'.tracks s'.published ∧ Announces lc s s' := by
  refine ⟨by rw [ht, hp]; exact h.relayed lc topic body, [_], hp, fun r hr ↦ ?_⟩
  exact absurd (by rw [ht]) hr

/-- No detection the loop ingests is manned traffic. -/
theorem detection_not_adsb {msg : BusMessage} {d : Detection} (h : msg.detection lc = some d) :
    d.detectionClass ≠ classADSB := by
  unfold BusMessage.detection at h
  split at h
  · cases h
  · split at h
    · cases h
    · split at h
      · cases h
      · rename_i hcls
        rw [Option.some_inj] at h
        exact h ▸ hcls

variable (lc s) in
/-- An iteration that takes no detection to the store leaves the tracks alone. -/
theorem handleMessage_of_none {msg : BusMessage} (h : msg.detection lc = none) (now : GoTime)
    (terrain : TerrainResolver) :
    (s.handleMessage lc msg now terrain).tracks = s.tracks ∧
      (s.handleMessage lc msg now terrain).published =
        ⟨msg.topic, .relayed msg.body⟩ :: s.published := by
  unfold BusMessage.detection at h
  unfold handleMessage
  dsimp only
  split at h
  · rename_i hb
    rw [if_pos hb]
    exact ⟨rfl, rfl⟩
  · rename_i hb
    rw [if_neg hb]
    cases hp : parseDetection msg.body with
    | error err => exact ⟨rfl, rfl⟩
    | ok d =>
      rw [hp] at h
      dsimp only at h ⊢
      split at h
      · rename_i hcls
        rw [if_pos hcls]
        exact ⟨rfl, rfl⟩
      · cases h

variable (lc s) in
/-- An iteration that does publishes the track `Ingest` returns. -/
theorem handleMessage_of_some {msg : BusMessage} {d : Detection} (h : msg.detection lc = some d)
    (now : GoTime) (terrain : TerrainResolver) :
    (s.handleMessage lc msg now terrain).tracks = (s.tracks.ingest lc.cfg d now terrain).1 ∧
      (s.handleMessage lc msg now terrain).published =
        ((s.tracks.ingest lc.cfg d now terrain).2.map fun t ↦
          updateMessage lc ((s.tracks.ingest lc.cfg d now terrain).1.heap t)).toList ++
          ⟨msg.topic, .relayed msg.body⟩ :: s.published := by
  unfold BusMessage.detection at h
  unfold handleMessage
  dsimp only
  split at h
  · cases h
  · rename_i hb
    rw [if_neg hb]
    cases hp : parseDetection msg.body with
    | error err => rw [hp] at h; cases h
    | ok d' =>
      rw [hp] at h
      dsimp only at h ⊢
      split at h
      · cases h
      · rename_i hcls
        rw [Option.some_inj] at h
        subst h
        rw [if_neg hcls]
        rw [show (s.send ⟨msg.topic, .relayed msg.body⟩).tracks = s.tracks from rfl]
        cases (s.tracks.ingest lc.cfg d' now terrain).2 <;> exact ⟨rfl, rfl⟩

/-- Publishing the tracks of a list adds their messages and nothing else. -/
theorem foldl_send (g : TrackStore → Ref → Message) (l : List Ref) (s : Loop) :
    l.foldl (fun s r ↦ s.send (g s.tracks r)) s =
      { s with published := l.reverse.map (g s.tracks) ++ s.published } := by
  induction l generalizing s with
  | nil => rfl
  | cons r l ih =>
    rw [List.foldl_cons, ih, List.reverse_cons, List.map_append, List.append_assoc]
    rfl

theorem publishLifecycle_eq (s : Loop) (r : Ref) :
    s.publishLifecycle lc r = s.send (lifecycleMessage lc s.tracks r) := by
  unfold publishLifecycle lifecycleMessage
  split <;> rfl

variable (lc s) in
/-- What a tick does: the reaped store, what is published of it, the pass over the contacts left,
and what is published of that. -/
theorem handleTick_eq (now : GoTime) (order : List Ref) :
    ∃ contacts : List ADSBContact,
      (s.handleTick lc now order).tracks =
        ((s.tracks.reap lc.cfg now order).1.correlateContacts lc.cfg contacts).1 ∧
      (s.handleTick lc now order).published =
        ((s.tracks.reap lc.cfg now order).1.correlateContacts lc.cfg contacts).2.reverse.map
          (fun r ↦ updateMessage lc
            (((s.tracks.reap lc.cfg now order).1.correlateContacts lc.cfg contacts).1.heap r)) ++
        ((s.tracks.reap lc.cfg now order).2.reverse.map
          (lifecycleMessage lc (s.tracks.reap lc.cfg now order).1) ++ s.published) := by
  refine ⟨(s.contacts.reap lc.contacts now).1.active, ?_⟩
  have hlife : publishLifecycle lc = fun s r ↦ s.send (lifecycleMessage lc s.tracks r) :=
    funext fun s ↦ funext fun r ↦ publishLifecycle_eq s r
  have hupdate : publishUpdate lc = fun s r ↦ s.send (updateMessage lc (s.tracks.heap r)) := rfl
  unfold handleTick
  dsimp only
  rw [hlife, hupdate, foldl_send (lifecycleMessage lc), foldl_send fun σ r ↦
    updateMessage lc (σ.heap r)]
  exact ⟨rfl, rfl⟩

/-! ### What each iteration keeps -/

variable (hs : Sound lc s)
include hs

/-- **A tick keeps the mirror** and publishes every track it changed. -/
theorem tick_mirrors {now : GoTime} {order : List Ref} (hok : order.Perm s.tracks.all)
    (h : Mirrors lc s.tracks s.published) :
    Mirrors lc (s.handleTick lc now order).tracks (s.handleTick lc now order).published ∧
      Announces lc s (s.handleTick lc now order) := by
  obtain ⟨contacts, ht, hp⟩ := handleTick_eq lc s now order
  have hreap : (Op.reap now order).Ok s.tracks := hok
  have hindexed := hs.indexed.apply lc.cfg hreap
  have hnamed := hs.named.apply hs.indexed hreap
  let reaped : Loop :=
    { s with
      tracks := (s.tracks.reap lc.cfg now order).1
      published := (s.tracks.reap lc.cfg now order).2.reverse.map
        (lifecycleMessage lc (s.tracks.reap lc.cfg now order).1) ++ s.published }
  have hreaped : Mirrors lc reaped.tracks reaped.published := h.reap hs.indexed hs.named hok
  refine ⟨by rw [ht, hp]; exact hreaped.correlate hindexed hnamed,
    (show Announces lc s reaped from ?_).trans ?_⟩
  · exact .publish (about_lifecycleMessage hs.indexed hs.named hok) rfl fun r hr ↦
      reap_heap_of_not_changed hs.indexed hok fun hch ↦ hr (List.mem_reverse.mpr hch)
  · refine .publish (about_correlated hindexed hnamed) hp fun r hr ↦ ?_
    rw [ht]
    exact correlate_heap_of_not_changed hindexed fun hch ↦ hr (List.mem_reverse.mpr hch)

/-- An ingested detection publishes every track it changed exactly if no live track has adopted
the serial and been found finished. -/
theorem announces_ingest {msg : BusMessage} {d : Detection} (hd : msg.detection lc = some d)
    {now : GoTime} {terrain : TerrainResolver} {t : Ref}
    (ht : (s.tracks.ingest lc.cfg d now terrain).2 = some t)
    (hnot : ¬ ClassG.Fusion.AdoptsFinished lc.cfg s.tracks d now) :
    Announces lc s (s.handleMessage lc msg now terrain) := by
  obtain ⟨htracks, hp⟩ := handleMessage_of_some lc s hd now terrain
  refine ⟨[updateMessage lc ((s.tracks.ingest lc.cfg d now terrain).1.heap t),
    ⟨msg.topic, .relayed msg.body⟩], by rw [hp, ht]; rfl, fun r hr ↦ ?_⟩
  rw [htracks] at hr
  by_cases hrt : r = t
  · subst hrt
    exact ⟨_, List.mem_cons_self, (about_ingested_iff hs.indexed hs.named ht).mpr rfl⟩
  · rcases ingest_heap_of_ne ht hrt with hsame | ⟨had, hfin⟩
    · exact absurd hsame hr
    · exact absurd ⟨r, had, hfin⟩ hnot

/-- **A sensor message keeps the mirror** and publishes every track it changed, exactly if no live
track has adopted its serial and been found finished. -/
theorem message_mirrors_iff {msg : BusMessage} {now : GoTime} {terrain : TerrainResolver}
    (h : Mirrors lc s.tracks s.published) :
    (Mirrors lc (s.handleMessage lc msg now terrain).tracks
        (s.handleMessage lc msg now terrain).published ∧
      Announces lc s (s.handleMessage lc msg now terrain)) ↔
      ¬ Event.AdoptsFinished lc s (.message msg now terrain) := by
  cases hd : msg.detection lc with
  | none =>
    obtain ⟨ht, hp⟩ := handleMessage_of_none lc s hd now terrain
    refine iff_of_true (h.of_relayed ht hp) ?_
    rintro ⟨d, hm, -⟩
    rw [hd] at hm
    cases hm
  | some d =>
    have hevent : Event.AdoptsFinished lc s (.message msg now terrain) ↔
        ClassG.Fusion.AdoptsFinished lc.cfg s.tracks d now := by
      simp [Event.AdoptsFinished, hd]
    obtain ⟨ht, hp⟩ := handleMessage_of_some lc s hd now terrain
    rw [hevent]
    cases hsnd : (s.tracks.ingest lc.cfg d now terrain).2 with
    | some t =>
      have hiff := mirrors_ingest_iff hs.indexed hs.named
        (h.relayed lc msg.topic msg.body) hsnd
      refine ⟨fun hm ↦ hiff.mp ?_, fun hnot ↦ ⟨?_, announces_ingest hs hd hsnd hnot⟩⟩
      · rw [ht, hp, hsnd] at hm
        exact hm.1
      · rw [ht, hp, hsnd]
        exact hiff.mpr hnot
    | none =>
      -- the detection was ignored: it has no serial, or it is manned traffic
      have hi : Ignored d := not_not.mp fun hi ↦ by
        rw [ingest_snd lc.cfg s.tracks now terrain hi] at hsnd
        cases hsnd
      have hsame : (s.tracks.ingest lc.cfg d now terrain).1 = s.tracks := by
        rw [ingest_of_ignored lc.cfg s.tracks now terrain hi]
      rw [hsnd] at hp
      rw [hsame] at ht
      refine iff_of_true (h.of_relayed ht hp) ?_
      rintro ⟨a, had, -⟩
      obtain ⟨⟨hne, -⟩, -⟩ := adopts_eq_some.mp had
      rcases hi with hcls | ⟨hempty, -⟩
      · exact detection_not_adsb hd hcls
      · exact hne hempty

end iteration

/-! ## Every run -/

variable {tr : List (Machine.Step Loop Event)} {s : Loop}

/-- Whatever the loop has gone through, its indices are right and every track has its own id. -/
theorem sound_of_run (h : (mainLoop lc).Run tr s) : Sound lc s := by
  refine h.invariant (I := Sound lc) ?_ ?_
  · rintro s rfl
    exact ⟨.init, fun r hr ↦ absurd hr (Nat.not_lt_zero r)⟩
  · rintro s e s' hs ⟨hok, rfl⟩
    cases e with
    | message msg now terrain =>
      show Sound lc (s.handleMessage lc msg now terrain)
      cases hd : msg.detection lc with
      | none =>
        have ht := (handleMessage_of_none lc s hd now terrain).1
        exact ⟨ht ▸ hs.indexed, ht ▸ hs.named⟩
      | some d =>
        have ht := (handleMessage_of_some lc s hd now terrain).1
        have hop : (Op.ingest d now terrain).Ok s.tracks := trivial
        exact ⟨ht ▸ hs.indexed.apply lc.cfg hop, ht ▸ hs.named.apply hs.indexed hop⟩
    | tick now order =>
      show Sound lc (s.handleTick lc now order)
      obtain ⟨contacts, ht, -⟩ := handleTick_eq lc s now order
      have hop : (Op.reap now order).Ok s.tracks := hok
      have hindexed := hs.indexed.apply lc.cfg hop
      have hpass : (Op.correlateContacts contacts).Ok (s.tracks.reap lc.cfg now order).1 := trivial
      exact ⟨ht ▸ hindexed.apply lc.cfg hpass,
        ht ▸ (hs.named.apply hs.indexed hop).apply hindexed hpass⟩

/-- **The bus mirrors the store** after every iteration of a run, and every iteration publishes
what it changed, exactly if in no iteration a live track has adopted the serial of the detection
and been found finished. -/
theorem mirrored_iff (h : (mainLoop lc).Run tr s) :
    Machine.Always (fun _ x ↦ Mirrors lc x.post.tracks x.post.published ∧
        Announces lc x.pre x.post) tr ↔
      Machine.Always (fun _ x ↦ ¬ x.act.AdoptsFinished lc x.pre) tr := by
  have hrule := h.always_iff (C := fun _ s e ↦ ¬ e.AdoptsFinished lc s)
    (I := fun tr s ↦ Mirrors lc s.tracks s.published ∧ ∀ x ∈ tr.head?, Announces lc x.pre s)
    ?_ ?_
  · simpa only [List.head?_cons, Option.mem_def, Option.some_inj, forall_eq'] using hrule
  · rintro s rfl
    refine ⟨⟨fun r hr ↦ ?_, fun r hr ↦ absurd hr (Nat.not_lt_zero r),
      fun r hr ↦ absurd hr (Nat.not_lt_zero r)⟩, fun x hx ↦ ?_⟩
    · cases hr
    · cases hx
  · rintro tr s e s' hr ⟨hm, -⟩ ⟨hok, rfl⟩
    simp only [List.head?_cons, Option.mem_def, Option.some_inj, forall_eq']
    have hs := sound_of_run lc hr
    cases e with
    | message msg now terrain => exact message_mirrors_iff hs hm
    | tick now order => exact iff_of_true (tick_mirrors hs hok hm) id

/-! ### A document nobody is told of -/

/-- The loop with the default topics over the concrete store. -/
def defaultLoop : LoopConfig := { cfg := defaultConfig }

/-- The iterations `es`, latest first. -/
def iterationsOf (es : List Event) : List (Machine.Step Loop Event) :=
  Machine.replaySteps (fun s e ↦ s.handle defaultLoop e) {} es []

/-- The loop after the iterations. -/
def loopAfter (es : List Event) : Loop :=
  Machine.replay (fun s e ↦ s.handle defaultLoop e) {} es

theorem run_loopAfter {es : List Event}
    (h : Machine.Admits (fun s e ↦ s.handle defaultLoop e) (fun s e ↦ e.Ok s) {} es) :
    (mainLoop defaultLoop).Run (iterationsOf es) (loopAfter es) :=
  Machine.Run.replay (M := mainLoop defaultLoop) (fun _ _ hok ↦ ⟨hok, rfl⟩) es (.init rfl) h

/-- A message that carries the detection, received at `s` seconds. -/
def Event.messageAt (s : ℕ) (d : Detection) : Event :=
  .message ⟨"detection.wifi-0", .ok d⟩ (clock s) fun _ _ _ ↦ none

/-- A flight from its first message to the tick that closes it. -/
theorem wholeFlight_mirrored :
    Machine.Always (fun _ x ↦ Mirrors defaultLoop x.post.tracks x.post.published ∧
        Announces defaultLoop x.pre x.post)
      (iterationsOf [.messageAt 1 ((heard "" "m" 1).above 47),
        .messageAt 4 ((heard "S" "m" 4).above 60), .tick (clock 8) [0], .tick (clock 400) [0]]) :=
  (mirrored_iff defaultLoop (run_loopAfter (by decide +kernel))).mpr (by decide)

/-- **The serial of the second flight lands in the document of the first**, which has been over for
minutes, and only the second flight is published. -/
theorem adopted_unpublished :
    let es : List Event := [.messageAt 1 (heard "" "m" 1), .messageAt 400 (heard "S" "m" 400)]
    (mainLoop defaultLoop).Run (iterationsOf es) (loopAfter es) ∧
      ((loopAfter es).tracks.heap 0).identity.serial = "S" ∧
      (lastDocument (loopAfter es).published (defaultConfig.newID 0)).map
        (fun t ↦ t.identity.serial) = some "" ∧
      ¬ Mirrors defaultLoop (loopAfter es).tracks (loopAfter es).published ∧
      ¬ Announces defaultLoop (loopAfter [.messageAt 1 (heard "" "m" 1)]) (loopAfter es) := by
  intro es
  have hdoc : (lastDocument (loopAfter es).published (defaultConfig.newID 0)).map
      (fun t ↦ t.identity.serial) = some "" := by decide
  have hserial : ((loopAfter es).tracks.heap 0).identity.serial = "S" := by decide
  refine ⟨run_loopAfter (by decide), hserial, hdoc, fun hm ↦ ?_, fun ha ↦ ?_⟩
  · have hlast := lastDocument_of_lastAbout (hm.live 0 (by decide))
    rw [show defaultLoop.cfg.newID 0 = defaultConfig.newID 0 from rfl] at hlast
    rw [hlast, Option.map_some, hserial] at hdoc
    exact absurd hdoc (by decide)
  · obtain ⟨new, hp, hall⟩ := ha
    obtain ⟨m, hm, habout⟩ := hall 0 fun h ↦ absurd (congrArg (·.identity.serial) h)
      (by decide)
    have hnew : new = (loopAfter es).published.take 2 := by
      rw [hp, show 2 = new.length from ?_, List.take_left]
      have hlen := congrArg List.length hp
      rw [List.length_append] at hlen
      have h4 : (loopAfter es).published.length = 4 := by decide
      have h2 : (loopAfter [.messageAt 1 (heard "" "m" 1)]).published.length = 2 := by
        decide
      omega
    have hnone : ∀ m ∈ (loopAfter es).published.take 2,
        m.about (defaultLoop.cfg.newID 0) ≠ true := by decide
    exact hnone m (hnew ▸ hm) habout

end ClassG.Fusion
