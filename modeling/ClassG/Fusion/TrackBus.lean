import ClassG.Fusion.Closing
import ClassG.Fusion.MainLoop

/-!
# What the track bus says

Whoever watches the track bus should be able to rebuild the store from it: `Mirrors` says that the
last message about a live track is its current document, and that a track which has left the store
was last published as `CLOSED`, with nothing else changed since.  The loop publishes what each call
reports, so this asks of `Ingest`, `Reap` and `CorrelateContacts` that they change no document they
do not report.

`Reap` and `CorrelateContacts` keep to it.  `Ingest` returns one track and may change two: a track
found by MAC adopts the serial while it is being looked up, and if it then turns out to be finished
the detection goes elsewhere.  The adopted serial stays in a document that nobody publishes
(`AdoptsFinished`, `mirrors_ingest_iff`).
-/

set_option autoImplicit false

namespace ClassG.Fusion

open TrackStore Loop

variable (lc : LoopConfig)

/-! ## What the bus says of a track -/

/-- The message is about the track with this id. -/
def Message.about (id : String) (m : Message) : Bool :=
  match m.payload with
  | .relayed _ => false
  | .track t => t.trackID = id
  | .trackID i => i = id

/-- The document with this id that the message carries. -/
def Message.document (id : String) (m : Message) : Option Track :=
  match m.payload with
  | .track t => if t.trackID = id then some t else none
  | _ => none

/-- The last message about a track. -/
def lastAbout (ms : List Message) (id : String) : Option Message := ms.find? fun m ↦ m.about id

/-- The last document of a track. -/
def lastDocument (ms : List Message) (id : String) : Option Track :=
  ms.findSome? fun m ↦ m.document id

section messages

variable {lc} {ms : List Message} {t : Track} {id : String}

theorem lastAbout_cons (m : Message) :
    lastAbout (m :: ms) id = if m.about id = true then some m else lastAbout ms id := by
  rw [lastAbout, List.find?_cons]
  split <;> rename_i h <;> simp [h, lastAbout]

theorem lastDocument_cons (m : Message) :
    lastDocument (m :: ms) id = (m.document id).or (lastDocument ms id) := by
  rw [lastDocument, List.findSome?_cons]
  cases m.document id <;> rfl

theorem about_updateMessage : (updateMessage lc t).about id = true ↔ t.trackID = id := by
  simp [updateMessage, Message.about]

theorem about_closedMessage : (closedMessage lc t).about id = true ↔ t.trackID = id := by
  simp [closedMessage, Message.about]

theorem document_updateMessage :
    (updateMessage lc t).document id = if t.trackID = id then some t else none := rfl

theorem document_closedMessage : (closedMessage lc t).document id = none := rfl

/-- A track whose last message is its document has that document as its last. -/
theorem lastDocument_of_lastAbout (h : lastAbout ms id = some (updateMessage lc t)) :
    lastDocument ms id = some t := by
  induction ms with
  | nil => cases h
  | cons m ms ih =>
    rw [lastAbout_cons] at h
    rw [lastDocument_cons]
    split at h
    · rename_i habout
      rw [Option.some_inj] at h
      subst h
      rw [document_updateMessage, if_pos (about_updateMessage.mp habout)]
      rfl
    · rename_i habout
      have hnone : m.document id = none := by
        unfold Message.about at habout
        unfold Message.document
        cases hp : m.payload <;> simp_all
      rw [hnone, Option.none_or, ih h]

end messages

/-! ## Track ids -/

/-- Every track carries the id it was made with. -/
def Named (cfg : Config) (σ : TrackStore) : Prop := ∀ r < σ.next, (σ.heap r).trackID = cfg.newID r

/-- The only track a detection can make is the one it goes to. -/
theorem lt_next_of_ingest {cfg : Config} {σ : TrackStore} {d : Detection} {now : GoTime}
    {terrain : TerrainResolver} {r : Ref} (hr : r < (σ.ingest cfg d now terrain).1.next) :
    r < σ.next ∨ (σ.ingest cfg d now terrain).2 = some r := by
  revert hr
  refine ingest_elim cfg σ d now terrain (P := fun s o ↦ r < s.next → r < σ.next ∨ o = some r)
    (fun _ ↦ .inl) (fun _ t _ h ↦ ?_) (fun _ c _ _ h ↦ ?_) fun _ _ _ h ↦ ?_
  · rw [foldIn_next, settled_next] at h
    exact .inl h
  · rw [foldIn_next, reopen_next, settled_next] at h
    exact .inl h
  · rw [foldIn_next, mint_next, settled_next] at h
    rcases Nat.lt_succ_iff_lt_or_eq.mp h with h | rfl
    · exact .inl h
    · exact .inr rfl

theorem Named.apply {cfg : Config} {σ : TrackStore} (hn : Named cfg σ) (hσ : WellIndexed σ "")
    {op : Op} (hok : op.Ok σ) : Named cfg (op.apply cfg σ) := by
  intro r hr
  cases op with
  | reap now order =>
    rw [Op.apply, reap_next] at hr
    rw [Op.apply, reap_heap cfg hok hσ.nodup]
    split <;> exact hn r hr
  | correlateContacts contacts =>
    rw [Op.apply, correlateContacts_frame] at hr
    rw [Op.apply, correlateContacts_heap cfg contacts hσ.nodup]
    split <;> exact hn r hr
  | ingest d now terrain =>
    rw [Op.apply] at hr ⊢
    by_cases hi : Ignored d
    · rw [ingest_of_ignored cfg σ now terrain hi] at hr ⊢
      exact hn r hr
    have hsettled : r < σ.next → ((σ.settled cfg d (d.seen now)).heap r).trackID = cfg.newID r :=
      fun hr ↦ by rw [settled_heap]; split <;> exact hn r hr
    rw [ingest_heap cfg σ now terrain hi]
    split
    · rename_i htrack
      rw [absorbed, Track.absorb_trackID, joined]
      rw [ingest_snd cfg σ now terrain hi, Option.some_inj] at htrack
      cases hc : σ.continues cfg d (d.seen now) with
      | some t =>
        rw [hc] at htrack
        have ht := hσ.lt_next t (hσ.found_mem ((continues_eq_some cfg σ d _).mp hc).1)
        have htr : t = r := htrack
        exact hsettled (htr ▸ ht)
      | none =>
        cases hj : σ.rejoins cfg d (d.seen now) with
        | some c =>
          rw [hc, hj] at htrack
          have hoff := (hσ.closed_of_resolveClosed ((rejoins_eq_some cfg σ d _).mp hj).1).2.1
          have hcr : c = r := htrack
          exact hsettled (hcr ▸ hoff)
        | none => rfl
    · rename_i htrack
      exact hsettled ((lt_next_of_ingest hr).resolve_right htrack)

/-! ## The mirror -/

/-- The messages mirror the store. -/
structure Mirrors (σ : TrackStore) (ms : List Message) : Prop where
  /-- The last message about a live track is its document. -/
  live : ∀ r ∈ σ.all, lastAbout ms (lc.cfg.newID r) = some (updateMessage lc (σ.heap r))
  /-- A track that has left the store was last published as `CLOSED`, -/
  ended : ∀ r < σ.next, r ∉ σ.all →
    (lastAbout ms (lc.cfg.newID r) = some (updateMessage lc (σ.heap r)) ∧
        (σ.heap r).state = .closed) ∨
      lastAbout ms (lc.cfg.newID r) = some (closedMessage lc (σ.heap r))
  /-- and nothing but its state has changed since its last document. -/
  unchanged : ∀ r < σ.next, r ∉ σ.all →
    ∃ t, lastDocument ms (lc.cfg.newID r) = some t ∧ σ.heap r = { t with state := .closed }

/-- Each of the messages about the tracks `l` is about its own track. -/
def About (l : List Ref) (g : Ref → Message) : Prop :=
  ∀ x ∈ l, ∀ id, (g x).about id = true ↔ lc.cfg.newID x = id

section publish

variable {lc} {l : List Ref} {g : Ref → Message} {ms : List Message} {r : Ref}

theorem lastAbout_publish (hg : About lc l g) :
    lastAbout (l.map g ++ ms) (lc.cfg.newID r) =
      if r ∈ l then some (g r) else lastAbout ms (lc.cfg.newID r) := by
  induction l with
  | nil => rfl
  | cons x l ih =>
    have hx := hg x List.mem_cons_self
    have hrest : About lc l g := fun y hy ↦ hg y (List.mem_cons_of_mem _ hy)
    rw [List.map_cons, List.cons_append, lastAbout_cons, ih hrest]
    by_cases hxr : x = r
    · subst hxr
      rw [if_pos ((hx _).mpr rfl), if_pos List.mem_cons_self]
    · rw [if_neg fun h ↦ hxr (lc.cfg.newID_injective ((hx _).mp h))]
      simp [Ne.symm hxr]

theorem document_eq_none {m : Message} {id : String} (h : ¬ m.about id = true) :
    m.document id = none := by
  unfold Message.about at h
  unfold Message.document
  cases hp : m.payload <;> simp_all

theorem lastDocument_publish (hg : About lc l g) :
    lastDocument (l.map g ++ ms) (lc.cfg.newID r) =
      if r ∈ l then ((g r).document (lc.cfg.newID r)).or (lastDocument ms (lc.cfg.newID r))
      else lastDocument ms (lc.cfg.newID r) := by
  induction l with
  | nil => rfl
  | cons x l ih =>
    have hx := hg x List.mem_cons_self
    have hrest : About lc l g := fun y hy ↦ hg y (List.mem_cons_of_mem _ hy)
    rw [List.map_cons, List.cons_append, lastDocument_cons, ih hrest]
    by_cases hxr : x = r
    · subst hxr
      rw [if_pos List.mem_cons_self]
      split
      · rw [← Option.or_assoc, Option.or_self]
      · rfl
    · rw [document_eq_none fun h ↦ hxr (lc.cfg.newID_injective ((hx _).mp h)), Option.none_or]
      simp [Ne.symm hxr]

/-- **Publishing keeps the mirror** if every track whose document has changed is published, each
under its own id: a live one as it is now, and one that has left as closed, with nothing but its
state changed. -/
theorem Mirrors.publish {σ σ' : TrackStore} (h : Mirrors lc σ ms) (hg : About lc l g)
    (hkeep : ∀ r, r ∉ l → σ'.heap r = σ.heap r) (hnext : σ'.next = σ.next)
    (hall : ∀ r ∈ σ'.all, r ∈ σ.all) (hmem : ∀ r ∈ l, r ∈ σ.all)
    (hlive : ∀ r ∈ l, r ∈ σ'.all → g r = updateMessage lc (σ'.heap r))
    (hleft : ∀ r ∈ σ.all, r ∉ σ'.all → σ'.heap r = { σ.heap r with state := .closed } ∧
      (r ∈ l → g r = closedMessage lc (σ'.heap r))) :
    Mirrors lc σ' (l.map g ++ ms) := by
  refine ⟨fun r hr ↦ ?_, fun r hr hm ↦ ?_, fun r hr hm ↦ ?_⟩
  · rw [lastAbout_publish hg]
    split
    · rename_i hch
      rw [hlive r hch hr]
    · rename_i hch
      rw [hkeep r hch]
      exact h.live r (hall r hr)
  · rw [hnext] at hr
    rw [lastAbout_publish hg]
    by_cases hin : r ∈ σ.all
    · obtain ⟨hheap, hclosed⟩ := hleft r hin hm
      split
      · rename_i hch
        exact .inr (by rw [hclosed hch])
      · rename_i hch
        rw [hkeep r hch] at hheap ⊢
        exact .inl ⟨h.live r hin, by rw [hheap]⟩
    · have hch : r ∉ l := fun hch ↦ hin (hmem r hch)
      rw [if_neg hch, hkeep r hch]
      exact h.ended r hr hin
  · rw [hnext] at hr
    rw [lastDocument_publish hg]
    by_cases hin : r ∈ σ.all
    · obtain ⟨hheap, hclosed⟩ := hleft r hin hm
      refine ⟨σ.heap r, ?_, hheap⟩
      have hlast := lastDocument_of_lastAbout (h.live r hin)
      split
      · rename_i hch
        rw [hclosed hch, document_closedMessage, Option.none_or, hlast]
      · exact hlast
    · have hch : r ∉ l := fun hch ↦ hin (hmem r hch)
      rw [if_neg hch, hkeep r hch]
      exact h.unchanged r hr hin

end publish

/-- A relayed message says nothing about any track. -/
theorem Mirrors.relayed {σ : TrackStore} {ms : List Message} (h : Mirrors lc σ ms) (topic : String)
    (body : Except String Detection) : Mirrors lc σ (⟨topic, .relayed body⟩ :: ms) where
  live r hr := by rw [lastAbout_cons]; exact h.live r hr
  ended r hr hm := by rw [lastAbout_cons]; exact h.ended r hr hm
  unchanged r hr hm := by rw [lastDocument_cons]; exact h.unchanged r hr hm

/-! ### Reap -/

/-- What the loop publishes about a track that `Reap` returns. -/
def lifecycleMessage (σ : TrackStore) (r : Ref) : Message :=
  if (σ.heap r).state = .closed then closedMessage lc (σ.heap r) else updateMessage lc (σ.heap r)

section reap

variable {lc} {σ : TrackStore} (hσ : WellIndexed σ "") (hn : Named lc.cfg σ) {now : GoTime}
  {order : List Ref} (hok : order.Perm σ.all)
include hσ hn hok

omit hn in
/-- A track that `Reap` does not report is left as it was. -/
theorem reap_heap_of_not_changed {r : Ref} (hr : r ∉ (σ.reap lc.cfg now order).2) :
    (σ.reap lc.cfg now order).1.heap r = σ.heap r := by
  rw [reap_heap lc.cfg hok hσ.nodup]
  split
  · rename_i hm
    rw [reap_changed lc.cfg hok hσ.nodup, not_and_not_right] at hr
    rw [Track.updateState, hr hm]
  · rfl

theorem about_lifecycleMessage :
    About lc (σ.reap lc.cfg now order).2.reverse
      (lifecycleMessage lc (σ.reap lc.cfg now order).1) := by
  intro r hr id
  have hm := ((reap_changed lc.cfg hok hσ.nodup r).mp (List.mem_reverse.mp hr)).1
  have hnamed : Named lc.cfg (σ.reap lc.cfg now order).1 :=
    Named.apply hn hσ (show (Op.reap now order).Ok σ from hok)
  have hid := hnamed r (by rw [reap_next]; exact hσ.lt_next r hm)
  unfold lifecycleMessage
  split
  · rw [about_closedMessage, hid]
  · rw [about_updateMessage, hid]

theorem Mirrors.reap {ms : List Message} (h : Mirrors lc σ ms) :
    Mirrors lc (σ.reap lc.cfg now order).1
      ((σ.reap lc.cfg now order).2.reverse.map
        (lifecycleMessage lc (σ.reap lc.cfg now order).1) ++ ms) := by
  have hmem : ∀ r, r ∈ (σ.reap lc.cfg now order).1.all ↔
      r ∈ σ.all ∧ ¬ Closes lc.cfg now (σ.heap r) := fun r ↦ by
    rw [reap_all lc.cfg hok hσ.nodup]; simp
  have hheap : ∀ r ∈ σ.all, (σ.reap lc.cfg now order).1.heap r =
      (σ.heap r).updateState now lc.cfg.lifecycle := fun r hr ↦ by
    rw [reap_heap lc.cfg hok hσ.nodup, if_pos hr]
  refine h.publish (about_lifecycleMessage hσ hn hok) (fun r hr ↦ ?_) (reap_next ..) ?_ ?_ ?_ ?_
  · exact reap_heap_of_not_changed hσ hok fun hch ↦ hr (List.mem_reverse.mpr hch)
  · exact fun r hr ↦ ((hmem r).mp hr).1
  · exact fun r hr ↦ ((reap_changed lc.cfg hok hσ.nodup r).mp (List.mem_reverse.mp hr)).1
  · -- a track that stays was not closed
    intro r _ hr
    have hopen : ((σ.reap lc.cfg now order).1.heap r).state ≠ .closed := by
      rw [hheap r ((hmem r).mp hr).1]
      exact ((hmem r).mp hr).2
    rw [lifecycleMessage, if_neg hopen]
  · -- and one that leaves was closed now, or already
    intro r hr hm
    have hc : Closes lc.cfg now (σ.heap r) := not_not.mp fun hc ↦ hm ((hmem r).mpr ⟨hr, hc⟩)
    have hclosed : (σ.reap lc.cfg now order).1.heap r = { σ.heap r with state := .closed } := by
      rw [hheap r hr, Track.updateState,
        show (σ.heap r).nextState now lc.cfg.lifecycle = .closed from hc]
    exact ⟨hclosed, fun _ ↦ by rw [lifecycleMessage, if_pos (by rw [hclosed])]⟩

end reap

/-! ### CorrelateContacts -/

section correlate

variable {lc} {σ : TrackStore} (hσ : WellIndexed σ "") (hn : Named lc.cfg σ)
  {contacts : List ADSBContact}
include hσ hn

omit hn in
/-- A track that a pass does not report is left as it was. -/
theorem correlate_heap_of_not_changed {r : Ref}
    (hr : r ∉ (σ.correlateContacts lc.cfg contacts).2) :
    (σ.correlateContacts lc.cfg contacts).1.heap r = σ.heap r := by
  rw [correlateContacts_heap lc.cfg contacts hσ.nodup]
  split
  · rename_i hm
    rw [correlateContacts_changed lc.cfg contacts hσ.nodup, not_and_not_right] at hr
    rw [correlated, ← hr hm]
  · rfl

theorem about_correlated :
    About lc (σ.correlateContacts lc.cfg contacts).2.reverse fun r ↦
      updateMessage lc ((σ.correlateContacts lc.cfg contacts).1.heap r) := by
  intro r hr id
  have hm := ((correlateContacts_changed lc.cfg contacts hσ.nodup r).mp (List.mem_reverse.mp hr)).1
  rw [about_updateMessage, correlateContacts_heap lc.cfg contacts hσ.nodup, if_pos hm]
  rw [show (correlated lc.cfg contacts (σ.heap r)).trackID = lc.cfg.newID r from
    hn r (hσ.lt_next r hm)]

theorem Mirrors.correlate {ms : List Message} (h : Mirrors lc σ ms) :
    Mirrors lc (σ.correlateContacts lc.cfg contacts).1
      ((σ.correlateContacts lc.cfg contacts).2.reverse.map
        (fun r ↦ updateMessage lc ((σ.correlateContacts lc.cfg contacts).1.heap r)) ++ ms) := by
  have hall : (σ.correlateContacts lc.cfg contacts).1.all = σ.all := by
    rw [correlateContacts_frame]
  refine h.publish (about_correlated hσ hn) (fun r hr ↦ ?_) (by rw [correlateContacts_frame])
    (fun r hr ↦ hall ▸ hr) (fun r hr ↦ ?_) (fun _ _ _ ↦ rfl) fun r hr hm ↦ absurd hr (hall ▸ hm)
  · exact correlate_heap_of_not_changed hσ fun hch ↦ hr (List.mem_reverse.mpr hch)
  · exact ((correlateContacts_changed lc.cfg contacts hσ.nodup r).mp (List.mem_reverse.mp hr)).1

end correlate

/-! ### Ingest -/

/-- A live track adopts the detection's serial in the lookup and is then found finished. -/
def AdoptsFinished (cfg : Config) (σ : TrackStore) (d : Detection) (now : GoTime) : Prop :=
  ∃ a ∈ σ.adopts d.identity.serial d.identity.mac, σ.finishes cfg d (d.seen now) = some a

instance (cfg : Config) (σ : TrackStore) (d : Detection) (now : GoTime) :
    Decidable (AdoptsFinished cfg σ d now) :=
  inferInstanceAs (Decidable (∃ _ ∈ _, _))

section ingest

variable {lc} {σ : TrackStore} (hσ : WellIndexed σ "") (hn : Named lc.cfg σ) {d : Detection}
  {now : GoTime} {terrain : TerrainResolver}
include hσ

omit hσ in
/-- A detection changes the document of a track it does not go to only if that track adopts the
serial and is found finished. -/
theorem ingest_heap_of_ne {t r : Ref} (ht : (σ.ingest lc.cfg d now terrain).2 = some t)
    (hr : r ≠ t) :
    (σ.ingest lc.cfg d now terrain).1.heap r = σ.heap r ∨
      σ.adopts d.identity.serial d.identity.mac = some r ∧
        σ.finishes lc.cfg d (d.seen now) = some r := by
  have hi := not_ignored_of_ingest ht
  rw [ingest_heap lc.cfg σ now terrain hi, if_neg fun h ↦ hr (Option.some_inj.mp (ht ▸ h)).symm,
    settled_heap]
  split
  · rename_i had
    right
    obtain ⟨⟨hne, hs⟩, hm, -⟩ := adopts_eq_some.mp had
    have hf : σ.found d.identity.serial d.identity.mac = some r := by
      rw [found, find_of_ne _ hne, hs, Option.none_or, hm]
    refine ⟨had, (finishes_eq_some lc.cfg σ d _).mpr ⟨hf, not_not.mp fun hfin ↦ ?_⟩⟩
    have hc := (continues_eq_some lc.cfg σ d _).mpr ⟨hf, hfin⟩
    rw [ingest_snd lc.cfg σ now terrain hi, hc, Option.some_inj] at ht
    exact hr ht
  · exact .inl rfl

omit hσ in
/-- The live tracks stay live. -/
theorem mem_ingest_all {r : Ref} (hr : r ∈ σ.all) :
    r ∈ (σ.ingest lc.cfg d now terrain).1.all := by
  refine ingest_elim lc.cfg σ d now terrain (P := fun s _ ↦ r ∈ s.all) (fun _ ↦ hr) ?_ ?_ ?_
  · intro _ t _; simpa using hr
  · intro _ c _ _
    rw [foldIn_all, reopen_all, settled_all]
    exact List.mem_insert_of_mem hr
  · intro _ _ _
    rw [foldIn_all, mint_all, settled_all]
    exact List.mem_insert_of_mem hr

omit hσ in
/-- The track a detection goes to is live. -/
theorem track_mem_ingest_all (hσ : WellIndexed σ "") {t : Ref}
    (ht : (σ.ingest lc.cfg d now terrain).2 = some t) :
    t ∈ (σ.ingest lc.cfg d now terrain).1.all := by
  revert ht
  refine ingest_elim lc.cfg σ d now terrain (P := fun s o ↦ o = some t → t ∈ s.all) ?_ ?_ ?_ ?_
  · rintro - ⟨⟩
  · rintro - r hr ⟨⟩
    simpa using hσ.found_mem ((continues_eq_some lc.cfg σ d _).mp hr).1
  · rintro - c - - ⟨⟩
    simp
  · rintro - - - ⟨⟩
    simp

/-- A live track that adopts the serial and is found finished is not the one the detection goes
to. -/
theorem ne_track_of_finishes {a t : Ref} (ha : σ.finishes lc.cfg d (d.seen now) = some a)
    (ht : (σ.ingest lc.cfg d now terrain).2 = some t) : a ≠ t := by
  rintro rfl
  have hi := not_ignored_of_ingest ht
  obtain ⟨hf, hfin⟩ := (finishes_eq_some lc.cfg σ d _).mp ha
  have hmem := hσ.found_mem hf
  rw [ingest_snd lc.cfg σ now terrain hi, Option.some_inj] at ht
  cases hc : σ.continues lc.cfg d (d.seen now) with
  | some r =>
    obtain ⟨hf', hfin'⟩ := (continues_eq_some lc.cfg σ d _).mp hc
    rw [hf, Option.some_inj] at hf'
    exact hfin' (hf' ▸ hfin)
  | none =>
    cases hj : σ.rejoins lc.cfg d (d.seen now) with
    | some c =>
      rw [hc, hj] at ht
      have hca : c = a := ht
      exact (hσ.closed_of_resolveClosed ((rejoins_eq_some lc.cfg σ d _).mp hj).1).1 (hca ▸ hmem)
    | none =>
      rw [hc, hj] at ht
      exact (hσ.lt_next a hmem).ne' ht

/-- Such a track has the serial in its document afterwards. -/
theorem serial_of_finishes {a t : Ref} (had : σ.adopts d.identity.serial d.identity.mac = some a)
    (ha : σ.finishes lc.cfg d (d.seen now) = some a)
    (ht : (σ.ingest lc.cfg d now terrain).2 = some t) :
    ((σ.ingest lc.cfg d now terrain).1.heap a).identity.serial = d.identity.serial := by
  have hne := ne_track_of_finishes hσ ha ht
  rw [ingest_heap lc.cfg σ now terrain (not_ignored_of_ingest ht),
    if_neg fun hs ↦ hne (Option.some_inj.mp (ht ▸ hs)).symm, settled_heap, if_pos had]
  rfl

include hn

/-- The message about the track `Ingest` returns is about no other. -/
theorem about_ingested_iff {t : Ref} (ht : (σ.ingest lc.cfg d now terrain).2 = some t) {r : Ref} :
    (updateMessage lc ((σ.ingest lc.cfg d now terrain).1.heap t)).about (lc.cfg.newID r) = true ↔
      r = t := by
  have hnamed : Named lc.cfg (σ.ingest lc.cfg d now terrain).1 :=
    Named.apply hn hσ (show (Op.ingest d now terrain).Ok σ from trivial)
  rw [about_updateMessage,
    hnamed t ((hσ.track_lt_next lc.cfg (.ingest d now terrain)).2 t ht), eq_comm]
  exact ⟨fun h ↦ lc.cfg.newID_injective h, congrArg _⟩

/-- **Publishing the track `Ingest` returns keeps the mirror** exactly if no live track has adopted
the serial and been found finished. -/
theorem mirrors_ingest_iff {ms : List Message} (h : Mirrors lc σ ms) {t : Ref}
    (ht : (σ.ingest lc.cfg d now terrain).2 = some t) :
    Mirrors lc (σ.ingest lc.cfg d now terrain).1
        (updateMessage lc ((σ.ingest lc.cfg d now terrain).1.heap t) :: ms) ↔
      ¬ AdoptsFinished lc.cfg σ d now := by
  have habout : ∀ {r : Ref}, _ ↔ r = t := about_ingested_iff hσ hn ht
  constructor
  · rintro hm ⟨a, had, hfin⟩
    rw [Option.mem_def] at had
    have hne := ne_track_of_finishes hσ hfin ht
    have hlive := hm.live a (mem_ingest_all (hσ.adopts_mem had))
    rw [lastAbout_cons, if_neg (mt habout.mp hne), h.live a (hσ.adopts_mem had)] at hlive
    -- the document on the bus has no serial and the one in the store does
    have hdoc : σ.heap a = (σ.ingest lc.cfg d now terrain).1.heap a :=
      Payload.track.inj (congrArg Message.payload (Option.some_inj.mp hlive))
    obtain ⟨⟨hsome, -⟩, -, hempty⟩ := adopts_eq_some.mp had
    rw [hdoc, serial_of_finishes hσ had hfin ht] at hempty
    exact hsome hempty
  · intro hnot
    have hkeep : ∀ r, r ≠ t → (σ.ingest lc.cfg d now terrain).1.heap r = σ.heap r := fun r hr ↦
      (ingest_heap_of_ne ht hr).resolve_right fun ⟨had, hfin⟩ ↦ hnot ⟨r, had, hfin⟩
    have hout : ∀ r, r < (σ.ingest lc.cfg d now terrain).1.next →
        r ∉ (σ.ingest lc.cfg d now terrain).1.all → r ≠ t ∧ r < σ.next ∧ r ∉ σ.all :=
      fun r hr hm ↦ by
        have hrt : r ≠ t := by rintro rfl; exact hm (track_mem_ingest_all hσ ht)
        refine ⟨hrt, (lt_next_of_ingest hr).resolve_right fun hs ↦ ?_, fun hin ↦
          hm (mem_ingest_all hin)⟩
        exact hrt (Option.some_inj.mp (ht ▸ hs)).symm
    refine ⟨fun r hr ↦ ?_, fun r hr hm ↦ ?_, fun r hr hm ↦ ?_⟩
    · rw [lastAbout_cons]
      by_cases hrt : r = t
      · subst hrt
        rw [if_pos (habout.mpr rfl)]
      · rw [if_neg (mt habout.mp hrt), hkeep r hrt]
        exact h.live r ((mem_all_of_ingest lc.cfg hr).resolve_right fun hs ↦
          hrt (Option.some_inj.mp (ht ▸ hs)).symm)
    · obtain ⟨hrt, hlt, hin⟩ := hout r hr hm
      rw [lastAbout_cons, if_neg (mt habout.mp hrt), hkeep r hrt]
      exact h.ended r hlt hin
    · obtain ⟨hrt, hlt, hin⟩ := hout r hr hm
      rw [lastDocument_cons, document_eq_none (mt habout.mp hrt), Option.none_or, hkeep r hrt]
      exact h.unchanged r hlt hin

end ingest

end ClassG.Fusion
