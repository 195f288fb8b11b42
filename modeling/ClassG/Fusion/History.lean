import ClassG.Fusion.Index

/-!
# What a document is made of

Every field of a track document is an account of the detections that were folded into it, and
`folded` is that list, read off the trace of a run; `delivered` has the clock and the terrain of
each with it.  Between two detections a document only has its state advanced, its correlation flag
refreshed or, at the start of a lookup, its serial filled in; documents are never merged, split or
dropped.  So a statement relating a document to its deliveries holds of all of them as soon as it
survives these few changes: that is `DeliveryRule`, and `DocumentRule` is the rule for a statement
about the detections alone.  It is the induction every fact about counters and evidence goes by.
-/

set_option autoImplicit false

namespace ClassG.Fusion

open TrackStore

variable (cfg : Config)

/-- The detection a call is made with. -/
def Op.detection : Op → Option Detection
  | .ingest d _ _ => some d
  | _ => none

/-- The detections folded into a track, latest first. -/
def folded (tr : List (Machine.Step TrackStore Op)) (r : Ref) : List Detection :=
  tr.filterMap fun x ↦ if x.act.track cfg x.pre = some r then x.act.detection else none

/-- A detection, with the clock reading and the terrain it is ingested with. -/
structure Delivery where
  detection : Detection
  now : GoTime
  terrain : TerrainResolver

/-- The delivery that a call is. -/
def Op.delivery : Op → Option Delivery
  | .ingest d now terrain => some ⟨d, now, terrain⟩
  | _ => none

/-- The deliveries folded into a track, latest first. -/
def delivered (tr : List (Machine.Step TrackStore Op)) (r : Ref) : List Delivery :=
  tr.filterMap fun x ↦ if x.act.track cfg x.pre = some r then x.act.delivery else none

section folded

variable (tr : List (Machine.Step TrackStore Op)) (σ σ' : TrackStore) (r : Ref)

theorem delivered_ingest (d : Detection) (now : GoTime) (terrain : TerrainResolver) :
    delivered cfg (⟨σ, .ingest d now terrain, σ'⟩ :: tr) r =
      if (σ.ingest cfg d now terrain).2 = some r then ⟨d, now, terrain⟩ :: delivered cfg tr r
      else delivered cfg tr r := by
  by_cases h : (σ.ingest cfg d now terrain).2 = some r <;>
    simp [delivered, Op.track, Op.delivery, h]

@[simp] theorem delivered_reap (now : GoTime) (order : List Ref) :
    delivered cfg (⟨σ, .reap now order, σ'⟩ :: tr) r = delivered cfg tr r := rfl

@[simp] theorem delivered_correlateContacts (contacts : List ADSBContact) :
    delivered cfg (⟨σ, .correlateContacts contacts, σ'⟩ :: tr) r = delivered cfg tr r := rfl

theorem folded_ingest (d : Detection) (now : GoTime) (terrain : TerrainResolver) :
    folded cfg (⟨σ, .ingest d now terrain, σ'⟩ :: tr) r =
      if (σ.ingest cfg d now terrain).2 = some r then d :: folded cfg tr r else folded cfg tr r := by
  by_cases h : (σ.ingest cfg d now terrain).2 = some r <;>
    simp [folded, Op.track, Op.detection, h]

theorem folded_eq (tr : List (Machine.Step TrackStore Op)) (r : Ref) :
    folded cfg tr r = (delivered cfg tr r).map (·.detection) := by
  rw [folded, delivered, List.map_filterMap]
  refine List.filterMap_congr fun x _ ↦ ?_
  split
  · cases x.act <;> rfl
  · rfl

/-- A detection folded into a track is one the run ingested. -/
theorem exists_of_mem_folded {tr : List (Machine.Step TrackStore Op)} {r : Ref} {d : Detection}
    (h : d ∈ folded cfg tr r) : ∃ x ∈ tr, x.act.detection = some d := by
  obtain ⟨x, hx, hd⟩ := List.mem_filterMap.mp h
  split at hd
  · exact ⟨x, hx, hd⟩
  · cases hd

/-- And a delivery is one of its calls. -/
theorem exists_of_mem_delivered {tr : List (Machine.Step TrackStore Op)} {r : Ref} {y : Delivery}
    (h : y ∈ delivered cfg tr r) : ∃ x ∈ tr, x.act.delivery = some y := by
  obtain ⟨x, hx, hy⟩ := List.mem_filterMap.mp h
  split at hy
  · exact ⟨x, hx, hy⟩
  · cases hy

end folded

/-- A statement about a document and its deliveries that survives everything the store does to a
document. -/
structure DeliveryRule (P : List Delivery → Track → Prop) : Prop where
  /-- It holds of a new document. -/
  blank : ∀ d seen n, P [] (blank cfg d seen n)
  /-- It survives folding a detection in. -/
  absorbed : ∀ ys t y, P ys t → P (y :: ys)
    (absorbed cfg y.detection (y.detection.seen y.now) y.now y.terrain t)
  /-- It does not depend on the serial, -/
  serial : ∀ ys t s, P ys t → P ys (t.withSerial s)
  /-- on the state -/
  state : ∀ ys t s, P ys t → P ys { t with state := s }
  /-- or on the correlation flag. -/
  flag : ∀ ys t b, P ys t → P ys { t with adsbCorrelated := b }

namespace DeliveryRule

variable {cfg} {P : List Delivery → Track → Prop} (hP : DeliveryRule cfg P)
include hP

theorem settled {σ : TrackStore} {d : Detection} {seen : GoTime} {ys : List Delivery} {r : Ref}
    (h : P ys (σ.heap r)) : P ys ((σ.settled cfg d seen).heap r) := by
  rw [settled_heap]; split
  · exact hP.serial _ _ _ h
  · exact h

/-- Folding a detection into one document keeps the statement of all of them. -/
theorem foldIn {σ : TrackStore} {t : Ref} {d : Detection} {now : GoTime}
    {terrain : TerrainResolver} {F : Ref → List Delivery} {n : ℕ}
    (h : ∀ r < n, P (F r) (σ.heap r)) :
    ∀ r < n, P (if some t = some r then ⟨d, now, terrain⟩ :: F r else F r)
      ((σ.foldIn cfg t d (d.seen now) now terrain).heap r) := by
  intro r hr
  by_cases hrt : t = r
  · subst hrt
    rw [if_pos rfl, foldIn_heap, Function.update_self]
    exact hP.absorbed _ _ ⟨d, now, terrain⟩ (h _ hr)
  · rw [if_neg fun h ↦ hrt (Option.some_inj.mp h), foldIn_heap, Function.update_of_ne (Ne.symm hrt)]
    exact h r hr

/-- One call keeps the statement of every document, and gives no delivery to a track that has
not been made. -/
theorem step {σ : TrackStore} (hσ : WellIndexed σ "") {op : Op} (hok : op.Ok σ)
    {tr : List (Machine.Step TrackStore Op)} (hnew : ∀ r, σ.next ≤ r → delivered cfg tr r = [])
    (h : ∀ r < σ.next, P (delivered cfg tr r) (σ.heap r)) :
    (∀ r, (op.apply cfg σ).next ≤ r → delivered cfg (⟨σ, op, op.apply cfg σ⟩ :: tr) r = []) ∧
      ∀ r < (op.apply cfg σ).next,
        P (delivered cfg (⟨σ, op, op.apply cfg σ⟩ :: tr) r) ((op.apply cfg σ).heap r) := by
  cases op with
  | ingest d now terrain =>
    simp only [delivered_ingest, Op.apply]
    have hsettled : ∀ r < σ.next, P (delivered cfg tr r) ((σ.settled cfg d (d.seen now)).heap r) :=
      fun r hr ↦ hP.settled (h r hr)
    refine ingest_elim cfg σ d now terrain
      (P := fun s o ↦
        (∀ r, s.next ≤ r → (if o = some r then ⟨d, now, terrain⟩ :: delivered cfg tr r
          else delivered cfg tr r) = []) ∧
        ∀ r < s.next, P (if o = some r then ⟨d, now, terrain⟩ :: delivered cfg tr r
          else delivered cfg tr r) (s.heap r)) ?_ ?_ ?_ ?_
    · intro _
      exact ⟨fun r hr ↦ by simp [hnew r hr], fun r hr ↦ by simpa using h r hr⟩
    · intro _ t ht
      have hlt := hσ.lt_next t (hσ.found_mem ((continues_eq_some cfg σ d _).mp ht).1)
      rw [foldIn_next, settled_next]
      refine ⟨fun r hr ↦ ?_, hP.foldIn hsettled⟩
      rw [if_neg fun hs ↦ (hlt.trans_le hr).ne (Option.some_inj.mp hs), hnew r hr]
    · intro _ c _ hc
      have hlt := (hσ.closed_of_resolveClosed ((rejoins_eq_some cfg σ d _).mp hc).1).2.1
      rw [foldIn_next, reopen_next, settled_next]
      refine ⟨fun r hr ↦ ?_, hP.foldIn fun r hr ↦ ?_⟩
      · rw [if_neg fun hs ↦ (hlt.trans_le hr).ne (Option.some_inj.mp hs), hnew r hr]
      · by_cases hrc : r = c
        · subst hrc; simpa using hP.state _ _ _ (hsettled r hr)
        · simpa [hrc] using hsettled r hr
    · intro _ _ _
      rw [foldIn_next, mint_next, settled_next]
      refine ⟨fun r hr ↦ ?_, hP.foldIn fun r hr ↦ ?_⟩
      · rw [if_neg fun hs ↦ (Nat.lt_of_succ_le hr).ne (Option.some_inj.mp hs),
          hnew r ((Nat.le_succ _).trans hr)]
      · rw [mint_heap, settled_next]
        by_cases hrn : r = σ.next
        · subst hrn
          rw [Function.update_self, hnew _ le_rfl]
          exact hP.blank ..
        · rw [Function.update_of_ne hrn]
          exact hsettled r (lt_of_le_of_ne (Nat.lt_succ_iff.mp hr) hrn)
  | reap now order =>
    simp only [delivered_reap, Op.apply, reap_next]
    refine ⟨hnew, fun r hr ↦ ?_⟩
    rw [reap_heap cfg hok hσ.nodup]; split
    · exact hP.state _ _ _ (h r hr)
    · exact h r hr
  | correlateContacts contacts =>
    simp only [delivered_correlateContacts, Op.apply]
    have hnext : (σ.correlateContacts cfg contacts).1.next = σ.next := by
      rw [correlateContacts_frame]
    rw [hnext]
    refine ⟨hnew, fun r hr ↦ ?_⟩
    rw [correlateContacts_heap cfg contacts hσ.nodup]; split
    · exact hP.flag _ _ _ (h r hr)
    · exact h r hr

/-- A run gives no delivery to a track that has not been made, and keeps the statement of every
document that has. -/
theorem trace {tr : List (Machine.Step TrackStore Op)} {σ : TrackStore}
    (h : (storeMachine cfg).Run tr σ) :
    (∀ r, σ.next ≤ r → delivered cfg tr r = []) ∧
      ∀ r < σ.next, P (delivered cfg tr r) (σ.heap r) := by
  refine h.trace_invariant_of (C := fun _ _ ↦ True)
    (I := fun tr s ↦ (∀ r, s.next ≤ r → delivered cfg tr r = []) ∧
      ∀ r < s.next, P (delivered cfg tr r) (s.heap r))
    (fun _ _ ↦ trivial) ?_ ?_
  · rintro s rfl
    exact ⟨fun r _ ↦ rfl, fun r hr ↦ absurd hr (Nat.not_lt_zero r)⟩
  · rintro tr' s op s' hr ⟨hnew, hdoc⟩ - ⟨hok, rfl⟩
    exact hP.step (wellIndexed_of_run cfg hr) hok hnew hdoc

/-- **Every document is what its deliveries make of it.**  A statement that survives the changes
of `DeliveryRule` holds of every track ever made, together with its deliveries. -/
theorem run {tr : List (Machine.Step TrackStore Op)} {σ : TrackStore}
    (h : (storeMachine cfg).Run tr σ) : ∀ r < σ.next, P (delivered cfg tr r) (σ.heap r) :=
  (hP.trace h).2

end DeliveryRule

/-- A statement about a document and its detections that survives everything the store does to
a document. -/
structure DocumentRule (P : List Detection → Track → Prop) : Prop where
  /-- It holds of a new document. -/
  blank : ∀ d seen n, P [] (blank cfg d seen n)
  /-- It survives folding a detection in. -/
  absorbed : ∀ ds t d now terrain, P ds t → P (d :: ds) (absorbed cfg d (d.seen now) now terrain t)
  /-- It does not depend on the serial, -/
  serial : ∀ ds t s, P ds t → P ds (t.withSerial s)
  /-- on the state -/
  state : ∀ ds t s, P ds t → P ds { t with state := s }
  /-- or on the correlation flag. -/
  flag : ∀ ds t b, P ds t → P ds { t with adsbCorrelated := b }

namespace DocumentRule

variable {cfg} {P : List Detection → Track → Prop} (hP : DocumentRule cfg P)
include hP

/-- It is a statement about the deliveries. -/
theorem deliveries : DeliveryRule cfg fun ys t ↦ P (ys.map (·.detection)) t where
  blank := hP.blank
  absorbed _ t y := hP.absorbed _ t y.detection y.now y.terrain
  serial _ := hP.serial _
  state _ := hP.state _
  flag _ := hP.flag _

/-- A run gives no detection to a track that has not been made, and keeps the statement of every
document that has. -/
theorem trace {tr : List (Machine.Step TrackStore Op)} {σ : TrackStore}
    (h : (storeMachine cfg).Run tr σ) :
    (∀ r, σ.next ≤ r → folded cfg tr r = []) ∧
      ∀ r < σ.next, P (folded cfg tr r) (σ.heap r) := by
  obtain ⟨hnew, hdoc⟩ := hP.deliveries.trace h
  exact ⟨fun r hr ↦ by rw [folded_eq, hnew r hr, List.map_nil],
    fun r hr ↦ folded_eq cfg tr r ▸ hdoc r hr⟩

/-- **Every document is what its detections make of it.**  A statement that survives the changes
of `DocumentRule` holds of every track ever made, together with the detections folded into it. -/
theorem run {tr : List (Machine.Step TrackStore Op)} {σ : TrackStore}
    (h : (storeMachine cfg).Run tr σ) : ∀ r < σ.next, P (folded cfg tr r) (σ.heap r) :=
  (hP.trace h).2

end DocumentRule

theorem folded_of_next_le {tr : List (Machine.Step TrackStore Op)} {σ : TrackStore}
    (h : (storeMachine cfg).Run tr σ) {r : Ref} (hr : σ.next ≤ r) : folded cfg tr r = [] :=
  (DocumentRule.trace (P := fun _ _ ↦ True)
    ⟨fun _ _ _ ↦ trivial, fun _ _ _ _ _ _ ↦ trivial, fun _ _ _ _ ↦ trivial,
      fun _ _ _ _ ↦ trivial, fun _ _ _ _ ↦ trivial⟩ h).1 r hr

end ClassG.Fusion
