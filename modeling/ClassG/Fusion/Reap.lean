import ClassG.Fusion.Ingest

/-!
# What one `Reap` does

`Reap` visits the live tracks one at a time, and what it does to one of them depends on that
track's own document only.  So the loop has a closed form, field by field, over the store before
the call: each live document is updated, the tracks that close leave `all`, their keys leave the
indexes, and the closed flights that were confirmed and have a trail are remembered, the last one
visited keeping a key that several of them carry.

The closed forms are proved for `reapLoop`, the loop by itself, by induction on the visiting order;
`prune_closedBySerial` and `prune_closedByMAC` describe the two loops that follow it.
-/

set_option autoImplicit false

namespace ClassG.Fusion.TrackStore

open Track

variable (cfg : Config)

/-- `Reap` closes this track. -/
def Closes (now : GoTime) (t : Track) : Prop := t.nextState now cfg.lifecycle = .closed

instance (now : GoTime) (t : Track) : Decidable (Closes cfg now t) :=
  inferInstanceAs (Decidable (_ = _))

theorem closes_iff {now : GoTime} {t : Track} :
    Closes cfg now t ↔
      cfg.lifecycle.closeAfter < GoTime.sub now t.lastSeen ∨ t.state = .closed :=
  nextState_eq_closed_iff

/-- The track was on the map as an aircraft. -/
def Shown (t : Track) : Prop := t.state = .coasting ∨ t.state = .confirmed

instance (t : Track) : Decidable (Shown t) := inferInstanceAs (Decidable (_ ∨ _))

/-- `Reap` closes this track and has something to remember it by. -/
def Remembered (now : GoTime) (t : Track) : Prop :=
  Closes cfg now t ∧ Shown t ∧ t.history ≠ []

instance (now : GoTime) (t : Track) : Decidable (Remembered cfg now t) :=
  inferInstanceAs (Decidable (_ ∧ _))

/-! ## One track -/

section reapOne

variable (now : GoTime) (acc : TrackStore × List Ref) (t : Ref) (k : String)

@[simp] theorem reapOne_heap :
    (reapOne cfg now acc t).1.heap =
      Function.update acc.1.heap t ((acc.1.heap t).updateState now cfg.lifecycle) := by
  unfold reapOne
  dsimp only
  split
  · split <;> simp [modify]
  · rfl

@[simp] theorem reapOne_next : (reapOne cfg now acc t).1.next = acc.1.next := by
  unfold reapOne
  dsimp only
  split
  · split <;> simp [modify]
  · rfl

theorem closed_updateState_iff :
    (((acc.1.modify t fun t ↦ t.updateState now cfg.lifecycle).heap t).state = .closed) ↔
      Closes cfg now (acc.1.heap t) := by
  simp [modify, updateState, Closes]

theorem reapOne_all :
    (reapOne cfg now acc t).1.all =
      if Closes cfg now (acc.1.heap t) then acc.1.all.erase t else acc.1.all := by
  unfold reapOne
  dsimp only
  simp only [closed_updateState_iff]
  split
  · split <;> simp [modify]
  · rfl

theorem reapOne_bySerial :
    (reapOne cfg now acc t).1.bySerial.get k =
      if Closes cfg now (acc.1.heap t) ∧ k = (acc.1.heap t).identity.serial ∧ k ≠ "" then none
      else acc.1.bySerial.get k := by
  unfold reapOne
  dsimp only
  simp only [closed_updateState_iff]
  split
  · rename_i hc
    have h := unindex_bySerial (acc.1.modify t fun t ↦ t.updateState now cfg.lifecycle) t k
    have hi : ((acc.1.modify t fun t ↦ t.updateState now cfg.lifecycle).heap t).identity =
        (acc.1.heap t).identity := by simp [modify, updateState]
    rw [hi] at h
    simp only [hc, true_and]
    split <;> simpa [modify, unindex] using h
  · rename_i hc; simp [hc, modify]

theorem reapOne_byMAC :
    (reapOne cfg now acc t).1.byMAC.get k =
      if Closes cfg now (acc.1.heap t) ∧ k ∈ (acc.1.heap t).identity.macs then none
      else acc.1.byMAC.get k := by
  unfold reapOne
  dsimp only
  simp only [closed_updateState_iff]
  split
  · rename_i hc
    simp only [hc, true_and]
    split <;> simp [modify, updateState, GoMap.get_deleteAll]
  · rename_i hc; simp [hc, modify]

theorem reapOne_closedBySerial :
    (reapOne cfg now acc t).1.closedBySerial.get k =
      if Remembered cfg now (acc.1.heap t) ∧ k = (acc.1.heap t).identity.serial ∧ k ≠ "" then
        some t
      else acc.1.closedBySerial.get k := by
  unfold reapOne
  dsimp only
  simp only [closed_updateState_iff]
  split
  · rename_i hc
    simp only [Remembered, hc, true_and, Shown]
    split
    · rename_i hs
      rw [remember_closedBySerial]
      simp [modify, updateState, hs]
    · rename_i hs; simp [hs, modify]
  · rename_i hc; simp [Remembered, hc, modify]

theorem reapOne_closedByMAC :
    (reapOne cfg now acc t).1.closedByMAC.get k =
      if Remembered cfg now (acc.1.heap t) ∧ k ∈ (acc.1.heap t).identity.macs then some t
      else acc.1.closedByMAC.get k := by
  unfold reapOne
  dsimp only
  simp only [closed_updateState_iff]
  split
  · rename_i hc
    simp only [Remembered, hc, true_and, Shown]
    split
    · rename_i hs
      rw [remember_closedByMAC]
      simp [modify, updateState, hs]
    · rename_i hs; simp [hs, modify]
  · rename_i hc; simp [Remembered, hc, modify]

theorem reapOne_changed :
    (reapOne cfg now acc t).2 =
      if (acc.1.heap t).nextState now cfg.lifecycle ≠ (acc.1.heap t).state then acc.2 ++ [t]
      else acc.2 := by
  unfold reapOne
  dsimp only
  simp only [closed_updateState_iff]
  split <;> simp [modify, updateState]

end reapOne

/-! ## The loop over the live tracks -/

section reapLoop

variable (now : GoTime)

/-- The first loop of `Reap`. -/
def reapLoop (order : List Ref) (acc : TrackStore × List Ref) : TrackStore × List Ref :=
  order.foldl (reapOne cfg now) acc

theorem reapLoop_cons (t : Ref) (order : List Ref) (acc : TrackStore × List Ref) :
    reapLoop cfg now (t :: order) acc = reapLoop cfg now order (reapOne cfg now acc t) := rfl

theorem reapOne_heap_of_ne {acc : TrackStore × List Ref} {t x : Ref} (h : x ≠ t) :
    (reapOne cfg now acc t).1.heap x = acc.1.heap x := by
  rw [reapOne_heap, Function.update_of_ne h]

/-- A visit leaves the documents still to be visited as they were. -/
theorem heap_of_mem_rest {t x : Ref} {rest : List Ref} (hnd : (t :: rest).Nodup) (hx : x ∈ rest)
    (acc : TrackStore × List Ref) : (reapOne cfg now acc t).1.heap x = acc.1.heap x :=
  reapOne_heap_of_ne cfg now fun h ↦ (List.nodup_cons.mp hnd).1 (h ▸ hx)

theorem reapLoop_heap {order : List Ref} (hnd : order.Nodup) (acc : TrackStore × List Ref)
    (x : Ref) :
    (reapLoop cfg now order acc).1.heap x =
      if x ∈ order then (acc.1.heap x).updateState now cfg.lifecycle else acc.1.heap x := by
  induction order generalizing acc with
  | nil => rfl
  | cons t rest ih =>
    rw [reapLoop_cons, ih (List.nodup_cons.mp hnd).2]
    by_cases hx : x = t
    · subst hx
      have hr : x ∉ rest := (List.nodup_cons.mp hnd).1
      simp [hr]
    · simp [hx]

@[simp] theorem reapLoop_next (order : List Ref) (acc : TrackStore × List Ref) :
    (reapLoop cfg now order acc).1.next = acc.1.next := by
  induction order generalizing acc with
  | nil => rfl
  | cons t rest ih => rw [reapLoop_cons, ih, reapOne_next]

theorem reapLoop_all {order : List Ref} (hnd : order.Nodup) (acc : TrackStore × List Ref)
    (hall : acc.1.all.Nodup) :
    (reapLoop cfg now order acc).1.all =
      acc.1.all.filter fun x ↦ ¬ (x ∈ order ∧ Closes cfg now (acc.1.heap x)) := by
  induction order generalizing acc with
  | nil => simp [reapLoop]
  | cons t rest ih =>
    have hall' : (reapOne cfg now acc t).1.all =
        acc.1.all.filter fun x ↦ ¬ (x = t ∧ Closes cfg now (acc.1.heap t)) := by
      rw [reapOne_all]
      by_cases hc : Closes cfg now (acc.1.heap t)
      · simp [hc, hall.erase_eq_filter, bne, Bool.beq_eq_decide_eq]
      · simp [hc]
    rw [reapLoop_cons, ih (List.nodup_cons.mp hnd).2 _ (hall' ▸ hall.filter _), hall',
      List.filter_filter]
    refine List.filter_congr fun x _ ↦ ?_
    by_cases hx : x = t
    · subst hx
      have hr : x ∉ rest := (List.nodup_cons.mp hnd).1
      simp [hr]
    · simp [hx, reapOne_heap_of_ne cfg now hx]

theorem reapLoop_bySerial {order : List Ref} (hnd : order.Nodup) (acc : TrackStore × List Ref)
    (k : String) :
    (reapLoop cfg now order acc).1.bySerial.get k =
      if ∃ t ∈ order, Closes cfg now (acc.1.heap t) ∧ k = (acc.1.heap t).identity.serial ∧ k ≠ ""
      then none else acc.1.bySerial.get k := by
  induction order generalizing acc with
  | nil => simp [reapLoop]
  | cons t rest ih =>
    rw [reapLoop_cons, ih (List.nodup_cons.mp hnd).2, reapOne_bySerial]
    have hrest : (∃ x ∈ rest, Closes cfg now ((reapOne cfg now acc t).1.heap x) ∧
        k = ((reapOne cfg now acc t).1.heap x).identity.serial ∧ k ≠ "") ↔
        ∃ x ∈ rest, Closes cfg now (acc.1.heap x) ∧ k = (acc.1.heap x).identity.serial ∧ k ≠ "" :=
      exists_congr fun x ↦ and_congr_right fun hx ↦ by rw [heap_of_mem_rest cfg now hnd hx]
    simp only [hrest, List.exists_mem_cons_iff]
    split
    · rename_i hr; rw [if_pos (.inr hr)]
    · rename_i hr; simp only [hr, or_false]

theorem reapLoop_byMAC {order : List Ref} (hnd : order.Nodup) (acc : TrackStore × List Ref)
    (k : String) :
    (reapLoop cfg now order acc).1.byMAC.get k =
      if ∃ t ∈ order, Closes cfg now (acc.1.heap t) ∧ k ∈ (acc.1.heap t).identity.macs
      then none else acc.1.byMAC.get k := by
  induction order generalizing acc with
  | nil => simp [reapLoop]
  | cons t rest ih =>
    rw [reapLoop_cons, ih (List.nodup_cons.mp hnd).2, reapOne_byMAC]
    have hrest : (∃ x ∈ rest, Closes cfg now ((reapOne cfg now acc t).1.heap x) ∧
        k ∈ ((reapOne cfg now acc t).1.heap x).identity.macs) ↔
        ∃ x ∈ rest, Closes cfg now (acc.1.heap x) ∧ k ∈ (acc.1.heap x).identity.macs :=
      exists_congr fun x ↦ and_congr_right fun hx ↦ by rw [heap_of_mem_rest cfg now hnd hx]
    simp only [hrest, List.exists_mem_cons_iff]
    split
    · rename_i hr; rw [if_pos (.inr hr)]
    · rename_i hr; simp only [hr, or_false]

/-- The flights visited that are remembered under a serial, in the order of their visits. -/
def claimSerial (σ : TrackStore) (order : List Ref) (k : String) : List Ref :=
  order.filter fun t ↦
    Remembered cfg now (σ.heap t) ∧ k = (σ.heap t).identity.serial ∧ k ≠ ""

/-- The flights visited that are remembered under a MAC, in the order of their visits. -/
def claimMAC (σ : TrackStore) (order : List Ref) (k : String) : List Ref :=
  order.filter fun t ↦ Remembered cfg now (σ.heap t) ∧ k ∈ (σ.heap t).identity.macs

theorem reapLoop_closedBySerial {order : List Ref} (hnd : order.Nodup)
    (acc : TrackStore × List Ref) (k : String) :
    (reapLoop cfg now order acc).1.closedBySerial.get k =
      (claimSerial cfg now acc.1 order k).getLast?.or (acc.1.closedBySerial.get k) := by
  induction order generalizing acc with
  | nil => rfl
  | cons t rest ih =>
    have hrest : claimSerial cfg now (reapOne cfg now acc t).1 rest k =
        claimSerial cfg now acc.1 rest k :=
      List.filter_congr fun x hx ↦ by rw [heap_of_mem_rest cfg now hnd hx]
    rw [reapLoop_cons, ih (List.nodup_cons.mp hnd).2, hrest, reapOne_closedBySerial]
    simp only [claimSerial, List.filter_cons, decide_eq_true_eq]
    split
    · rw [List.getLast?_cons]; cases (List.filter _ rest).getLast? <;> rfl
    · rfl

theorem reapLoop_closedByMAC {order : List Ref} (hnd : order.Nodup)
    (acc : TrackStore × List Ref) (k : String) :
    (reapLoop cfg now order acc).1.closedByMAC.get k =
      (claimMAC cfg now acc.1 order k).getLast?.or (acc.1.closedByMAC.get k) := by
  induction order generalizing acc with
  | nil => rfl
  | cons t rest ih =>
    have hrest : claimMAC cfg now (reapOne cfg now acc t).1 rest k =
        claimMAC cfg now acc.1 rest k :=
      List.filter_congr fun x hx ↦ by rw [heap_of_mem_rest cfg now hnd hx]
    rw [reapLoop_cons, ih (List.nodup_cons.mp hnd).2, hrest, reapOne_closedByMAC]
    simp only [claimMAC, List.filter_cons, decide_eq_true_eq]
    split
    · rw [List.getLast?_cons]; cases (List.filter _ rest).getLast? <;> rfl
    · rfl

theorem reapLoop_changed {order : List Ref} (hnd : order.Nodup) (acc : TrackStore × List Ref) :
    (reapLoop cfg now order acc).2 =
      acc.2 ++ order.filter fun t ↦
        (acc.1.heap t).nextState now cfg.lifecycle ≠ (acc.1.heap t).state := by
  induction order generalizing acc with
  | nil => simp [reapLoop]
  | cons t rest ih =>
    have hrest : (rest.filter fun x ↦
        ((reapOne cfg now acc t).1.heap x).nextState now cfg.lifecycle ≠
          ((reapOne cfg now acc t).1.heap x).state) =
        rest.filter fun x ↦ (acc.1.heap x).nextState now cfg.lifecycle ≠ (acc.1.heap x).state :=
      List.filter_congr fun x hx ↦ by rw [heap_of_mem_rest cfg now hnd hx]
    rw [reapLoop_cons, ih (List.nodup_cons.mp hnd).2, hrest, reapOne_changed]
    simp only [List.filter_cons, decide_eq_true_eq]
    split <;> simp

end reapLoop

/-! ## The pruning loops -/

section prune

variable (now : GoTime)

/-- A closed flight is past `ResumeWithin`. -/
def Expired (t : Track) : Prop := cfg.lifecycle.resumeWithin < GoTime.sub now t.lastSeen

instance (t : Track) : Decidable (Expired cfg now t) := inferInstanceAs (Decidable (_ < _))

/-- One pruning loop over the flights `l`. -/
def pruneLoop (l : List Ref) (σ : TrackStore) : TrackStore := l.foldl (expire cfg now) σ

theorem expire_eq (σ : TrackStore) (t : Ref) :
    expire cfg now σ t = if Expired cfg now (σ.heap t) then σ.forget t else σ := rfl

/-- A pruning loop touches the two maps of closed flights only. -/
theorem pruneLoop_frame (l : List Ref) (σ : TrackStore) :
    (pruneLoop cfg now l σ).heap = σ.heap ∧ (pruneLoop cfg now l σ).all = σ.all ∧
      (pruneLoop cfg now l σ).next = σ.next ∧ (pruneLoop cfg now l σ).bySerial = σ.bySerial ∧
      (pruneLoop cfg now l σ).byMAC = σ.byMAC := by
  induction l generalizing σ with
  | nil => exact ⟨rfl, rfl, rfl, rfl, rfl⟩
  | cons t rest ih =>
    have h := ih (expire cfg now σ t)
    rw [expire_eq] at h
    rw [pruneLoop, List.foldl_cons, ← pruneLoop, expire_eq]
    split <;> simp_all

theorem pruneLoop_closedBySerial (l : List Ref) (σ : TrackStore) (k : String) :
    (pruneLoop cfg now l σ).closedBySerial.get k =
      (σ.closedBySerial.get k).filter fun r ↦
        ¬ (r ∈ l ∧ Expired cfg now (σ.heap r) ∧ k = (σ.heap r).identity.serial ∧ k ≠ "") := by
  induction l generalizing σ with
  | nil => cases h : σ.closedBySerial.get k <;> simp [pruneLoop, h, Option.filter]
  | cons t rest ih =>
    rw [pruneLoop, List.foldl_cons, ← pruneLoop, expire_eq, ih]
    by_cases he : Expired cfg now (σ.heap t)
    · simp only [he, if_true, forget_closedBySerial, forget_heap]
      cases h : σ.closedBySerial.get k with
      | none => simp
      | some r =>
        by_cases hr : r = t
        · subst hr
          by_cases hk : k = (σ.heap r).identity.serial ∧ k ≠ ""
          · rw [if_pos ⟨hk, rfl⟩]; simp [Option.filter, he, hk.2, ← hk.1]
          · rw [if_neg fun h ↦ hk h.1]; simp [Option.filter, hk]
        · simp [Option.filter, hr]
    · simp only [he, if_false]
      cases h : σ.closedBySerial.get k with
      | none => rfl
      | some r =>
        by_cases hr : r = t
        · subst hr; simp [Option.filter, he]
        · simp [Option.filter, hr]

theorem pruneLoop_closedByMAC (l : List Ref) (σ : TrackStore) (k : String) :
    (pruneLoop cfg now l σ).closedByMAC.get k =
      (σ.closedByMAC.get k).filter fun r ↦
        ¬ (r ∈ l ∧ Expired cfg now (σ.heap r) ∧ k ∈ (σ.heap r).identity.macs) := by
  induction l generalizing σ with
  | nil => cases h : σ.closedByMAC.get k <;> simp [pruneLoop, h, Option.filter]
  | cons t rest ih =>
    rw [pruneLoop, List.foldl_cons, ← pruneLoop, expire_eq, ih]
    by_cases he : Expired cfg now (σ.heap t)
    · simp only [he, if_true, forget_closedByMAC, forget_heap]
      cases h : σ.closedByMAC.get k with
      | none => simp
      | some r =>
        by_cases hr : r = t
        · subst hr; by_cases hk : k ∈ (σ.heap r).identity.macs <;>
            simp [Option.filter, hk, he]
        · simp [Option.filter, hr]
    · simp only [he, if_false]
      cases h : σ.closedByMAC.get k with
      | none => rfl
      | some r =>
        by_cases hr : r = t
        · subst hr; simp [Option.filter, he]
        · simp [Option.filter, hr]

theorem prune_eq (σ : TrackStore) :
    σ.prune cfg now =
      pruneLoop cfg now (pruneLoop cfg now σ.closedBySerial.values σ).closedByMAC.values
        (pruneLoop cfg now σ.closedBySerial.values σ) := rfl

theorem prune_frame (σ : TrackStore) :
    (σ.prune cfg now).heap = σ.heap ∧ (σ.prune cfg now).all = σ.all ∧
      (σ.prune cfg now).next = σ.next ∧ (σ.prune cfg now).bySerial = σ.bySerial ∧
      (σ.prune cfg now).byMAC = σ.byMAC := by
  have h₁ := pruneLoop_frame cfg now σ.closedBySerial.values σ
  have h₂ := pruneLoop_frame cfg now (pruneLoop cfg now σ.closedBySerial.values σ).closedByMAC.values
    (pruneLoop cfg now σ.closedBySerial.values σ)
  rw [prune_eq]
  simp_all

/-- **Pruning, by serial**: what is left is what has not expired.  The first loop visits every
entry of this map, so the second finds nothing more to do in it. -/
theorem prune_closedBySerial (σ : TrackStore) (k : String) :
    (σ.prune cfg now).closedBySerial.get k =
      (σ.closedBySerial.get k).filter fun r ↦
        ¬ (Expired cfg now (σ.heap r) ∧ k = (σ.heap r).identity.serial ∧ k ≠ "") := by
  rw [prune_eq, pruneLoop_closedBySerial, pruneLoop_closedBySerial, (pruneLoop_frame ..).1]
  cases h : σ.closedBySerial.get k with
  | none => rfl
  | some r =>
    have hr : r ∈ σ.closedBySerial.values := GoMap.mem_values.mpr ⟨k, h⟩
    by_cases hx : Expired cfg now (σ.heap r) ∧ k = (σ.heap r).identity.serial ∧ k ≠ ""
    · simp [Option.filter, hr, hx.1, hx.2.2, ← hx.2.1]
    · simp [Option.filter, hx]

/-- **Pruning, by MAC**: the second loop visits every entry the first has left in this map. -/
theorem prune_closedByMAC (σ : TrackStore) (k : String) :
    (σ.prune cfg now).closedByMAC.get k =
      (σ.closedByMAC.get k).filter fun r ↦
        ¬ (Expired cfg now (σ.heap r) ∧ k ∈ (σ.heap r).identity.macs) := by
  rw [prune_eq, pruneLoop_closedByMAC, (pruneLoop_frame ..).1]
  have h₁ := pruneLoop_closedByMAC cfg now σ.closedBySerial.values σ k
  cases h : (pruneLoop cfg now σ.closedBySerial.values σ).closedByMAC.get k with
  | none =>
    rw [h] at h₁
    cases h' : σ.closedByMAC.get k with
    | none => rfl
    | some r =>
      rw [h'] at h₁
      by_cases hx : Expired cfg now (σ.heap r) ∧ k ∈ (σ.heap r).identity.macs
      · simp [Option.filter, hx]
      · simp [Option.filter, hx] at h₁
  | some r =>
    have hr : r ∈ (pruneLoop cfg now σ.closedBySerial.values σ).closedByMAC.values :=
      GoMap.mem_values.mpr ⟨k, h⟩
    rw [h] at h₁
    have hr' : σ.closedByMAC.get k = some r := (Option.filter_eq_some_iff.mp h₁.symm).1
    rw [hr']
    simp [Option.filter, hr]

end prune

/-! ## The whole call -/

section reap

variable {σ : TrackStore} {now : GoTime} {order : List Ref}

theorem reap_eq (σ : TrackStore) (now : GoTime) (order : List Ref) :
    σ.reap cfg now order =
      ((reapLoop cfg now order (σ, [])).1.prune cfg now, (reapLoop cfg now order (σ, [])).2) := rfl

variable (hok : order.Perm σ.all) (hnd : σ.all.Nodup)
include hok hnd

theorem reap_heap (x : Ref) :
    (σ.reap cfg now order).1.heap x =
      if x ∈ σ.all then (σ.heap x).updateState now cfg.lifecycle else σ.heap x := by
  rw [reap_eq, (prune_frame ..).1, reapLoop_heap cfg now (hok.nodup_iff.mpr hnd)]
  simp only [hok.mem_iff]

theorem reap_all :
    (σ.reap cfg now order).1.all = σ.all.filter fun x ↦ ¬ Closes cfg now (σ.heap x) := by
  rw [reap_eq, (prune_frame ..).2.1, reapLoop_all cfg now (hok.nodup_iff.mpr hnd) _ hnd]
  refine List.filter_congr fun x hx ↦ ?_
  simp [hok.mem_iff.mpr hx]

theorem reap_bySerial (k : String) :
    (σ.reap cfg now order).1.bySerial.get k =
      if ∃ t ∈ σ.all, Closes cfg now (σ.heap t) ∧ k = (σ.heap t).identity.serial ∧ k ≠ "" then none
      else σ.bySerial.get k := by
  rw [reap_eq, (prune_frame ..).2.2.2.1, reapLoop_bySerial cfg now (hok.nodup_iff.mpr hnd)]
  simp only [hok.mem_iff]

theorem reap_byMAC (k : String) :
    (σ.reap cfg now order).1.byMAC.get k =
      if ∃ t ∈ σ.all, Closes cfg now (σ.heap t) ∧ k ∈ (σ.heap t).identity.macs then none
      else σ.byMAC.get k := by
  rw [reap_eq, (prune_frame ..).2.2.2.2, reapLoop_byMAC cfg now (hok.nodup_iff.mpr hnd)]
  simp only [hok.mem_iff]

theorem reap_changed (x : Ref) :
    x ∈ (σ.reap cfg now order).2 ↔
      x ∈ σ.all ∧ (σ.heap x).nextState now cfg.lifecycle ≠ (σ.heap x).state := by
  rw [reap_eq, reapLoop_changed cfg now (hok.nodup_iff.mpr hnd)]
  simp [hok.mem_iff]

/-- The documents `Reap` judges by have changed their state only. -/
theorem reapLoop_heap_eq (x : Ref) :
    ∃ s, (reapLoop cfg now order (σ, [])).1.heap x = { σ.heap x with state := s } := by
  rw [reapLoop_heap cfg now (hok.nodup_iff.mpr hnd)]
  split
  · exact ⟨_, rfl⟩
  · exact ⟨(σ.heap x).state, rfl⟩

theorem reap_closedBySerial (k : String) :
    (σ.reap cfg now order).1.closedBySerial.get k =
      ((claimSerial cfg now σ order k).getLast?.or (σ.closedBySerial.get k)).filter fun r ↦
        ¬ (Expired cfg now (σ.heap r) ∧ k = (σ.heap r).identity.serial ∧ k ≠ "") := by
  rw [reap_eq, prune_closedBySerial, reapLoop_closedBySerial cfg now (hok.nodup_iff.mpr hnd)]
  refine congrArg (Option.filter · _) (funext fun r ↦ ?_)
  obtain ⟨s, hs⟩ : ∃ s, (reapLoop cfg now order (σ, [])).1.heap r = { σ.heap r with state := s } :=
    reapLoop_heap_eq cfg hok hnd r
  rw [hs]; rfl

theorem reap_closedByMAC (k : String) :
    (σ.reap cfg now order).1.closedByMAC.get k =
      ((claimMAC cfg now σ order k).getLast?.or (σ.closedByMAC.get k)).filter fun r ↦
        ¬ (Expired cfg now (σ.heap r) ∧ k ∈ (σ.heap r).identity.macs) := by
  rw [reap_eq, prune_closedByMAC, reapLoop_closedByMAC cfg now (hok.nodup_iff.mpr hnd)]
  refine congrArg (Option.filter · _) (funext fun r ↦ ?_)
  obtain ⟨s, hs⟩ : ∃ s, (reapLoop cfg now order (σ, [])).1.heap r = { σ.heap r with state := s } :=
    reapLoop_heap_eq cfg hok hnd r
  rw [hs]; rfl

omit hok hnd in
@[simp] theorem reap_next : (σ.reap cfg now order).1.next = σ.next := by
  rw [reap_eq, (prune_frame ..).2.2.1, reapLoop_next]

end reap

end ClassG.Fusion.TrackStore
