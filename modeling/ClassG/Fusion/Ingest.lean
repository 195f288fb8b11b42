import ClassG.Fusion.Runs

/-!
# What one call can do

`Ingest` looks a flight up, may drop it, may reopen another, may start a third, and only then
folds the detection in.  This file says once what that can come to, so that no later proof has to
unfold it.

* `found`, `finishes`, `continues` and `rejoins` are the decisions of `Ingest`, read off the store
  before the call.
* `ingest_cases` is the inversion lemma: the detection is ignored, continues a live track, rejoins
  a closed one or starts a new one, and in each case the store afterwards is given.
* The lemmas `resolve_…`, `unindex_…`, `reopen_…`, `foldIn_…` say what each stage does to each map
  and to each document.
-/

set_option autoImplicit false

namespace ClassG.Fusion

open TrackStore

/-! ## The decisions -/

variable (cfg : Config)

/-- A track whose flight is over and which the detection does not resume. -/
def Finished (t : Track) (d : Detection) (seen : GoTime) : Prop :=
  flightIsOver cfg t seen ∧ ¬ resumes cfg t d seen

instance (t : Track) (d : Detection) (seen : GoTime) : Decidable (Finished cfg t d seen) :=
  inferInstanceAs (Decidable (_ ∧ _))

namespace TrackStore

/-- The live track that the indexes hold under a serial and a MAC. -/
def found (σ : TrackStore) (serial mac : String) : Option Ref :=
  (find σ.bySerial serial).or (find σ.byMAC mac)

/-- The track that adopts the serial while it is being looked up. -/
def adopts (σ : TrackStore) (serial mac : String) : Option Ref :=
  if serial ≠ "" ∧ σ.bySerial.get serial = none then
    (find σ.byMAC mac).filter fun t ↦ (σ.heap t).identity.serial = ""
  else none

/-- The live track a detection continues. -/
def continues (σ : TrackStore) (d : Detection) (seen : GoTime) : Option Ref :=
  (σ.found d.identity.serial d.identity.mac).filter fun t ↦ ¬ Finished cfg (σ.heap t) d seen

/-- The live track a detection finds finished. -/
def finishes (σ : TrackStore) (d : Detection) (seen : GoTime) : Option Ref :=
  (σ.found d.identity.serial d.identity.mac).filter fun t ↦ Finished cfg (σ.heap t) d seen

/-- The closed flight a detection would rejoin, with no live track to continue. -/
def rejoins (σ : TrackStore) (d : Detection) (seen : GoTime) : Option Ref :=
  (σ.resolveClosed d.identity.serial d.identity.mac).filter fun c ↦ resumes cfg (σ.heap c) d seen

/-! ## Looking up -/

section resolve

variable {σ : TrackStore} {serial mac : String}

@[simp] theorem find_empty_key (m : GoMap String Ref) : find m "" = none := rfl

theorem find_eq_some {m : GoMap String Ref} {k : String} {r : Ref} :
    find m k = some r ↔ k ≠ "" ∧ m.get k = some r := by
  unfold find; split <;> simp_all

theorem find_of_ne (m : GoMap String Ref) {k : String} (h : k ≠ "") : find m k = m.get k :=
  if_pos h

theorem adopts_eq_some {a : Ref} :
    σ.adopts serial mac = some a ↔
      (serial ≠ "" ∧ σ.bySerial.get serial = none) ∧ find σ.byMAC mac = some a ∧
        (σ.heap a).identity.serial = "" := by
  rw [adopts]
  split
  · rename_i h; simp [Option.filter_eq_some_iff, h]
  · rename_i h; simp [h]

/-- **What looking a flight up does to the store.**  Found by serial, the track takes the MAC;
found by MAC without a serial of its own, it adopts the serial; otherwise nothing changes. -/
theorem resolve_cases (σ : TrackStore) (serial mac : String) :
    (∃ t, find σ.bySerial serial = some t ∧
      σ.resolve serial mac =
        (if mac ≠ "" then { σ with byMAC := σ.byMAC.put mac t } else σ, some t)) ∨
    (∃ t, σ.adopts serial mac = some t ∧
      σ.resolve serial mac =
        ({ σ with
            heap := Function.update σ.heap t ((σ.heap t).withSerial serial)
            bySerial := σ.bySerial.put serial t }, some t)) ∨
    (find σ.bySerial serial = none ∧ σ.adopts serial mac = none ∧
      σ.resolve serial mac = (σ, find σ.byMAC mac)) := by
  by_cases hs : serial = ""
  · exact .inr (.inr ⟨by simp [hs], by simp [adopts, hs], by simp [resolve, hs]⟩)
  · cases hf : σ.bySerial.get serial with
    | some t =>
      exact .inl ⟨t, find_eq_some.mpr ⟨hs, hf⟩, by simp [resolve, hs, hf]⟩
    | none =>
      have hfind : find σ.bySerial serial = none := (find_of_ne _ hs).trans hf
      cases hm : find σ.byMAC mac with
      | none => exact .inr (.inr ⟨hfind, by simp [adopts, hs, hf, hm], by simp [resolve, hs, hf, hm]⟩)
      | some t =>
        by_cases ht : (σ.heap t).identity.serial = ""
        · exact .inr (.inl ⟨t, adopts_eq_some.mpr ⟨⟨hs, hf⟩, hm, ht⟩,
            by simp [resolve, hs, hf, hm, ht, modify]⟩)
        · exact .inr (.inr ⟨hfind, by simp [adopts, hs, hf, hm, Option.filter, ht],
            by simp [resolve, hs, hf, hm, ht]⟩)

@[simp] theorem resolve_snd : (σ.resolve serial mac).2 = σ.found serial mac := by
  rcases resolve_cases σ serial mac with ⟨t, hf, h⟩ | ⟨t, ha, h⟩ | ⟨hf, -, h⟩ <;>
    simp only [h, found]
  · simp [hf]
  · have := adopts_eq_some.mp ha
    simp [find_of_ne _ this.1.1, this.1.2, this.2.1]
  · simp [hf]

theorem resolve_heap (x : Ref) :
    (σ.resolve serial mac).1.heap x =
      if σ.adopts serial mac = some x then (σ.heap x).withSerial serial else σ.heap x := by
  rcases resolve_cases σ serial mac with ⟨t, hf, h⟩ | ⟨t, ha, h⟩ | ⟨-, ha, h⟩
  · have ha : σ.adopts serial mac = none := by
      have := find_eq_some.mp hf
      simp [adopts, this.2]
    rw [h, ha]; split <;> rfl
  · rw [h, ha]
    simp only [Function.update_apply, Option.some_inj, eq_comm (a := t)]
    split
    · rename_i hx; rw [hx]
    · rfl
  · rw [h, ha]; rfl

@[simp] theorem resolve_all : (σ.resolve serial mac).1.all = σ.all := by
  rcases resolve_cases σ serial mac with ⟨t, -, h⟩ | ⟨t, -, h⟩ | ⟨-, -, h⟩ <;> rw [h]
  split <;> rfl

@[simp] theorem resolve_next : (σ.resolve serial mac).1.next = σ.next := by
  rcases resolve_cases σ serial mac with ⟨t, -, h⟩ | ⟨t, -, h⟩ | ⟨-, -, h⟩ <;> rw [h]
  split <;> rfl

@[simp] theorem resolve_closedBySerial :
    (σ.resolve serial mac).1.closedBySerial = σ.closedBySerial := by
  rcases resolve_cases σ serial mac with ⟨t, -, h⟩ | ⟨t, -, h⟩ | ⟨-, -, h⟩ <;> rw [h]
  split <;> rfl

@[simp] theorem resolve_closedByMAC :
    (σ.resolve serial mac).1.closedByMAC = σ.closedByMAC := by
  rcases resolve_cases σ serial mac with ⟨t, -, h⟩ | ⟨t, -, h⟩ | ⟨-, -, h⟩ <;> rw [h]
  split <;> rfl

theorem resolve_bySerial (k : String) :
    (σ.resolve serial mac).1.bySerial.get k =
      if k = serial then (σ.adopts serial mac).or (σ.bySerial.get k) else σ.bySerial.get k := by
  rcases resolve_cases σ serial mac with ⟨t, hf, h⟩ | ⟨t, ha, h⟩ | ⟨-, ha, h⟩
  · have ha : σ.adopts serial mac = none := by simp [adopts, (find_eq_some.mp hf).2]
    rw [h, ha]
    split <;> split <;> rfl
  · rw [h, ha]
    simp only [GoMap.get_put, Option.some_or]
  · rw [h, ha]
    simp

theorem resolve_byMAC (m : String) :
    (σ.resolve serial mac).1.byMAC.get m =
      if m = mac ∧ mac ≠ "" then (find σ.bySerial serial).or (σ.byMAC.get m)
      else σ.byMAC.get m := by
  rcases resolve_cases σ serial mac with ⟨t, hf, h⟩ | ⟨t, ha, h⟩ | ⟨hf, -, h⟩
  · rw [h, hf]
    by_cases hm : mac = ""
    · simp [hm]
    · simp [hm, GoMap.get_put]
  · have hf : find σ.bySerial serial = none := by
      have := (adopts_eq_some.mp ha).1
      rw [find_of_ne _ this.1, this.2]
    rw [h, hf]; simp
  · rw [h, hf]; simp

/-- Looking a flight up takes no serial from its track. -/
theorem resolve_bySerial_of_some {k : String} {r : Ref} (h : σ.bySerial.get k = some r) :
    (σ.resolve serial mac).1.bySerial.get k = some r := by
  rw [resolve_bySerial]
  split
  · rename_i hk
    have ha : σ.adopts serial mac = none := by subst hk; simp [adopts, h]
    rw [ha, h]; rfl
  · exact h

theorem resolve_byMAC_of_ne {m : String} (h : m ≠ mac) :
    (σ.resolve serial mac).1.byMAC.get m = σ.byMAC.get m := by
  rw [resolve_byMAC, if_neg fun hk ↦ h hk.1]

end resolve

/-! ## What each stage does -/

section stages

variable (σ : TrackStore) (t : Ref) (k : String)

@[simp] theorem unindex_heap : (σ.unindex t).heap = σ.heap := rfl

@[simp] theorem unindex_all : (σ.unindex t).all = σ.all := rfl

@[simp] theorem unindex_next : (σ.unindex t).next = σ.next := rfl

@[simp] theorem unindex_closedBySerial : (σ.unindex t).closedBySerial = σ.closedBySerial := rfl

@[simp] theorem unindex_closedByMAC : (σ.unindex t).closedByMAC = σ.closedByMAC := rfl

theorem unindex_bySerial :
    (σ.unindex t).bySerial.get k =
      if k = (σ.heap t).identity.serial ∧ k ≠ "" then none else σ.bySerial.get k := by
  by_cases h : (σ.heap t).identity.serial = ""
  · simp only [unindex, h]; simp
  · simp only [unindex, ne_eq, h, not_false_eq_true, if_true, GoMap.get_delete]
    by_cases hk : k = (σ.heap t).identity.serial <;> simp [hk, h]

theorem unindex_byMAC :
    (σ.unindex t).byMAC.get k =
      if k ∈ (σ.heap t).identity.macs then none else σ.byMAC.get k :=
  GoMap.get_deleteAll ..

theorem remember_closedBySerial :
    (σ.remember t).closedBySerial.get k =
      if (σ.heap t).history ≠ [] ∧ k = (σ.heap t).identity.serial ∧ k ≠ "" then some t
      else σ.closedBySerial.get k := by
  by_cases hh : (σ.heap t).history = []
  · simp [remember, hh]
  · by_cases h : (σ.heap t).identity.serial = ""
    · simp only [remember, hh, h]; simp
    · simp only [remember, hh, h, ne_eq, not_false_eq_true, if_true, if_false, GoMap.get_put]
      by_cases hk : k = (σ.heap t).identity.serial <;> simp [hk, h]

theorem remember_closedByMAC :
    (σ.remember t).closedByMAC.get k =
      if (σ.heap t).history ≠ [] ∧ k ∈ (σ.heap t).identity.macs then some t
      else σ.closedByMAC.get k := by
  by_cases hh : (σ.heap t).history = [] <;> simp [remember, hh, GoMap.get_putAll]

@[simp] theorem remember_heap : (σ.remember t).heap = σ.heap := by
  unfold remember; dsimp only; split <;> rfl

@[simp] theorem remember_all : (σ.remember t).all = σ.all := by
  unfold remember; dsimp only; split <;> rfl

@[simp] theorem remember_next : (σ.remember t).next = σ.next := by
  unfold remember; dsimp only; split <;> rfl

@[simp] theorem remember_bySerial : (σ.remember t).bySerial = σ.bySerial := by
  unfold remember; dsimp only; split <;> rfl

@[simp] theorem remember_byMAC : (σ.remember t).byMAC = σ.byMAC := by
  unfold remember; dsimp only; split <;> rfl

@[simp] theorem forget_heap : (σ.forget t).heap = σ.heap := rfl

@[simp] theorem forget_all : (σ.forget t).all = σ.all := rfl

@[simp] theorem forget_next : (σ.forget t).next = σ.next := rfl

@[simp] theorem forget_bySerial : (σ.forget t).bySerial = σ.bySerial := rfl

@[simp] theorem forget_byMAC : (σ.forget t).byMAC = σ.byMAC := rfl

theorem forget_closedBySerial :
    (σ.forget t).closedBySerial.get k =
      if (k = (σ.heap t).identity.serial ∧ k ≠ "") ∧ σ.closedBySerial.get k = some t then none
      else σ.closedBySerial.get k := by
  by_cases h : (σ.heap t).identity.serial = ""
  · simp only [forget, h]; simp
  · simp only [forget, ne_eq, h, not_false_eq_true, if_true, GoMap.get_deleteIf]
    by_cases hk : k = (σ.heap t).identity.serial <;> simp [hk, h]

theorem forget_closedByMAC :
    (σ.forget t).closedByMAC.get k =
      if k ∈ (σ.heap t).identity.macs ∧ σ.closedByMAC.get k = some t then none
      else σ.closedByMAC.get k :=
  GoMap.get_deleteAllIf ..

@[simp] theorem reopen_all : (σ.reopen t).all = σ.all.insert t := rfl

@[simp] theorem reopen_next : (σ.reopen t).next = σ.next := rfl

@[simp] theorem reopen_heap :
    (σ.reopen t).heap = Function.update σ.heap t { σ.heap t with state := .coasting } := rfl

@[simp] theorem reopen_closedBySerial :
    (σ.reopen t).closedBySerial = (σ.forget t).closedBySerial := rfl

@[simp] theorem reopen_closedByMAC :
    (σ.reopen t).closedByMAC = (σ.forget t).closedByMAC := rfl

theorem reopen_bySerial :
    (σ.reopen t).bySerial.get k =
      if k = (σ.heap t).identity.serial ∧ k ≠ "" then some t else σ.bySerial.get k := by
  by_cases h : (σ.heap t).identity.serial = ""
  · simp only [reopen, h]; simp [modify]
  · simp only [reopen, ne_eq, h, not_false_eq_true, if_true, GoMap.get_put]
    by_cases hk : k = (σ.heap t).identity.serial <;> simp [hk, h, modify]

theorem reopen_byMAC :
    (σ.reopen t).byMAC.get k =
      if k ∈ (σ.heap t).identity.macs then some t else σ.byMAC.get k :=
  GoMap.get_putAll ..

variable (d : Detection) (seen now : GoTime) (terrain : TerrainResolver)

@[simp] theorem mint_all : (σ.mint cfg d seen).all = σ.all.insert σ.next := rfl

@[simp] theorem mint_next : (σ.mint cfg d seen).next = σ.next + 1 := rfl

@[simp] theorem mint_byMAC : (σ.mint cfg d seen).byMAC = σ.byMAC := rfl

/-- The document a new track starts from. -/
def blank (d : Detection) (seen : GoTime) (n : ℕ) : Track :=
  { trackID := cfg.newID n
    firstSeen := seen
    identity := { serial := d.identity.serial, vendor := d.identity.vendorHint } }

@[simp] theorem mint_heap :
    (σ.mint cfg d seen).heap = Function.update σ.heap σ.next (blank cfg d seen σ.next) := rfl

theorem mint_bySerial :
    (σ.mint cfg d seen).bySerial.get k =
      if k = d.identity.serial ∧ k ≠ "" then some σ.next else σ.bySerial.get k := by
  by_cases h : d.identity.serial = ""
  · simp only [mint, h]; simp
  · simp only [mint, ne_eq, h, not_false_eq_true, if_true, GoMap.get_put]
    by_cases hk : k = d.identity.serial <;> simp [hk, h]

@[simp] theorem foldIn_all : (σ.foldIn cfg t d seen now terrain).all = σ.all := rfl

@[simp] theorem foldIn_next : (σ.foldIn cfg t d seen now terrain).next = σ.next := rfl

/-- The document after the detection has been folded in. -/
def absorbed (t : Track) : Track :=
  t.absorb cfg.horizontalDistanceM d seen now (cfg.weights d.detectionClass) cfg.lifecycle terrain

@[simp] theorem foldIn_heap :
    (σ.foldIn cfg t d seen now terrain).heap =
      Function.update σ.heap t (absorbed cfg d seen now terrain (σ.heap t)) := rfl

theorem foldIn_bySerial :
    (σ.foldIn cfg t d seen now terrain).bySerial.get k =
      if k = d.identity.serial ∧ k ≠ "" ∧ (σ.heap t).identity.serial = "" then some t
      else σ.bySerial.get k := by
  by_cases h : d.identity.serial = ""
  · simp only [foldIn, h]; simp +contextual [modify]
  · by_cases ht : (σ.heap t).identity.serial = ""
    · simp only [foldIn, modify, ne_eq, h, ht, not_false_eq_true, and_self, if_true,
        GoMap.get_put]
      by_cases hk : k = d.identity.serial <;> simp [hk, h]
    · simp only [foldIn, ht]; simp [modify]

theorem foldIn_byMAC :
    (σ.foldIn cfg t d seen now terrain).byMAC.get k =
      if k = d.identity.mac ∧ k ≠ "" then some t else σ.byMAC.get k := by
  by_cases h : d.identity.mac = ""
  · simp only [foldIn, h]; simp [modify]
  · simp only [foldIn, modify, ne_eq, h, not_false_eq_true, if_true, GoMap.get_put]
    by_cases hk : k = d.identity.mac <;> simp [hk, h]

end stages

/-! ## The whole call -/

section ingest

variable (σ : TrackStore) (d : Detection) (now seen : GoTime) (terrain : TerrainResolver)

/-- The store once the live track has been looked up and, if its flight is over, dropped. -/
def settled : TrackStore :=
  ((σ.resolve d.identity.serial d.identity.mac).1.dropFinished cfg
    (σ.found d.identity.serial d.identity.mac) d seen).1

theorem finished_resolve (r : Ref) :
    Finished cfg ((σ.resolve d.identity.serial d.identity.mac).1.heap r) d seen ↔
      Finished cfg (σ.heap r) d seen := by
  rw [resolve_heap]; split <;> rfl

theorem finishes_eq_some {r : Ref} :
    σ.finishes cfg d seen = some r ↔
      σ.found d.identity.serial d.identity.mac = some r ∧ Finished cfg (σ.heap r) d seen := by
  simp [finishes, Option.filter_eq_some_iff]

theorem continues_eq_some {r : Ref} :
    σ.continues cfg d seen = some r ↔
      σ.found d.identity.serial d.identity.mac = some r ∧ ¬ Finished cfg (σ.heap r) d seen := by
  simp [continues, Option.filter_eq_some_iff]

theorem rejoins_eq_some {c : Ref} :
    σ.rejoins cfg d seen = some c ↔
      σ.resolveClosed d.identity.serial d.identity.mac = some c ∧
        resumes cfg (σ.heap c) d seen = true := by
  simp [rejoins, Option.filter_eq_some_iff]

/-- Dropping a finished flight takes it out of the indexes; without one, nothing is dropped. -/
theorem dropFinished_resolve :
    (σ.resolve d.identity.serial d.identity.mac).1.dropFinished cfg
        (σ.found d.identity.serial d.identity.mac) d seen =
      (match σ.finishes cfg d seen with
        | some a => (σ.resolve d.identity.serial d.identity.mac).1.unindex a
        | none => (σ.resolve d.identity.serial d.identity.mac).1,
      σ.continues cfg d seen) := by
  have hfin : ∀ r, (flightIsOver cfg ((σ.resolve d.identity.serial d.identity.mac).1.heap r) seen ∧
      ¬ resumes cfg ((σ.resolve d.identity.serial d.identity.mac).1.heap r) d seen) ↔
        Finished cfg (σ.heap r) d seen := finished_resolve cfg σ d seen
  cases hf : σ.found d.identity.serial d.identity.mac with
  | none => simp [finishes, continues, hf, dropFinished]
  | some r =>
    by_cases hr : Finished cfg (σ.heap r) d seen
    · simp only [dropFinished, hfin, hr, if_true, finishes, continues, hf, Option.filter]
      simp
    · simp only [dropFinished, hfin, hr, if_false, finishes, continues, hf, Option.filter]
      simp

theorem settled_eq :
    σ.settled cfg d seen = match σ.finishes cfg d seen with
      | some a => (σ.resolve d.identity.serial d.identity.mac).1.unindex a
      | none => (σ.resolve d.identity.serial d.identity.mac).1 := by
  rw [settled, dropFinished_resolve]

theorem settled_heap (x : Ref) :
    (σ.settled cfg d seen).heap x =
      if σ.adopts d.identity.serial d.identity.mac = some x then
        (σ.heap x).withSerial d.identity.serial
      else σ.heap x := by
  rw [settled_eq]; split
  · rw [unindex_heap, resolve_heap]
  · rw [resolve_heap]

@[simp] theorem settled_all : (σ.settled cfg d seen).all = σ.all := by
  rw [settled_eq]; split <;> simp

@[simp] theorem settled_next : (σ.settled cfg d seen).next = σ.next := by
  rw [settled_eq]; split <;> simp

@[simp] theorem settled_closedBySerial :
    (σ.settled cfg d seen).closedBySerial = σ.closedBySerial := by
  rw [settled_eq]; split <;> simp

@[simp] theorem settled_closedByMAC :
    (σ.settled cfg d seen).closedByMAC = σ.closedByMAC := by
  rw [settled_eq]; split <;> simp

theorem resumes_settled (c : Ref) :
    resumes cfg ((σ.settled cfg d seen).heap c) d seen = resumes cfg (σ.heap c) d seen := by
  rw [settled_heap]; split <;> rfl

/-- The three ways a detection finds its track. -/
inductive Ingested : TrackStore → Option Ref → Prop
  /-- It continues a live track. -/
  | continued (r : Ref) (h : σ.continues cfg d (d.seen now) = some r) :
      Ingested ((σ.settled cfg d (d.seen now)).foldIn cfg r d (d.seen now) now terrain) (some r)
  /-- It rejoins a closed flight. -/
  | rejoined (c : Ref) (h : σ.continues cfg d (d.seen now) = none)
      (hc : σ.rejoins cfg d (d.seen now) = some c) :
      Ingested
        (((σ.settled cfg d (d.seen now)).reopen c).foldIn cfg c d (d.seen now) now terrain) (some c)
  /-- It starts a new one. -/
  | started (h : σ.continues cfg d (d.seen now) = none) (hc : σ.rejoins cfg d (d.seen now) = none) :
      Ingested
        (((σ.settled cfg d (d.seen now)).mint cfg d (d.seen now)).foldIn cfg σ.next d (d.seen now)
          now terrain) (some σ.next)

/-- A detection that must not become a track: manned traffic, or one without any identity. -/
def Ignored (d : Detection) : Prop :=
  d.detectionClass = classADSB ∨ d.identity.serial = "" ∧ d.identity.mac = ""

instance (d : Detection) : Decidable (Ignored d) := inferInstanceAs (Decidable (_ ∨ _))

theorem ingest_of_ignored {d : Detection} (h : Ignored d) :
    σ.ingest cfg d now terrain = (σ, none) := by
  unfold ingest
  rcases h with h | ⟨hs, hm⟩
  · rw [if_pos h]
  · split
    · rfl
    · simp [resolve, hs, hm, dropFinished, rejoin, resolveClosed, start]

theorem start_some (r : Ref) : σ.start cfg (some r) d seen = (σ, some r) := rfl

/-- **What `Ingest` can do.**  Unless the detection is ignored, exactly one of the three cases of
`Ingested` gives the store and the track it returns. -/
theorem ingest_cases {d : Detection} (h : ¬ Ignored d) :
    Ingested cfg σ d now terrain (σ.ingest cfg d now terrain).1 (σ.ingest cfg d now terrain).2 := by
  rw [Ignored, not_or] at h
  unfold ingest
  simp only [if_neg h.1, resolve_snd, dropFinished_resolve, ← settled_eq]
  cases hc : σ.continues cfg d (d.seen now) with
  | some r => exact .continued r hc
  | none =>
    have hcl : (σ.settled cfg d (d.seen now)).resolveClosed d.identity.serial d.identity.mac =
        σ.resolveClosed d.identity.serial d.identity.mac := by
      rw [resolveClosed, settled_closedBySerial, settled_closedByMAC, resolveClosed]
    cases hj : σ.rejoins cfg d (d.seen now) with
    | some c =>
      have hr := (rejoins_eq_some cfg σ d _).mp hj
      simp only [rejoin, hcl, hr.1, resumes_settled, hr.2, if_true, start_some]
      exact .rejoined c hc hj
    | none =>
      have hrej : (σ.settled cfg d (d.seen now)).rejoin cfg none d (d.seen now) =
          (σ.settled cfg d (d.seen now), none) := by
        simp only [rejoin, hcl]
        cases hx : σ.resolveClosed d.identity.serial d.identity.mac with
        | none => rfl
        | some x =>
          have hx' : resumes cfg (σ.heap x) d (d.seen now) ≠ true := by
            intro hres
            exact absurd ((rejoins_eq_some cfg σ d _).mpr ⟨hx, hres⟩) (by simp [hj])
          simp only [resumes_settled, hx', if_false, Bool.false_eq_true]
      simp only [hrej, start, if_neg h.2, settled_next]
      exact .started hc hj

/-- `ingest_cases` as an elimination rule: whatever holds of an ignored detection and of each of
the three cases holds of the store and the track `Ingest` returns. -/
theorem ingest_elim {P : TrackStore → Option Ref → Prop} (hignored : Ignored d → P σ none)
    (hcontinued : ¬ Ignored d → ∀ r, σ.continues cfg d (d.seen now) = some r →
      P ((σ.settled cfg d (d.seen now)).foldIn cfg r d (d.seen now) now terrain) (some r))
    (hrejoined : ¬ Ignored d → ∀ c, σ.continues cfg d (d.seen now) = none →
      σ.rejoins cfg d (d.seen now) = some c →
      P (((σ.settled cfg d (d.seen now)).reopen c).foldIn cfg c d (d.seen now) now terrain)
        (some c))
    (hstarted : ¬ Ignored d → σ.continues cfg d (d.seen now) = none →
      σ.rejoins cfg d (d.seen now) = none →
      P (((σ.settled cfg d (d.seen now)).mint cfg d (d.seen now)).foldIn cfg σ.next d (d.seen now)
        now terrain) (some σ.next)) :
    P (σ.ingest cfg d now terrain).1 (σ.ingest cfg d now terrain).2 := by
  by_cases hi : Ignored d
  · rw [ingest_of_ignored cfg σ now terrain hi]; exact hignored hi
  · generalize hs : (σ.ingest cfg d now terrain).1 = s
    generalize ho : (σ.ingest cfg d now terrain).2 = o
    have h := ingest_cases cfg σ now terrain hi
    rw [hs, ho] at h
    cases h with
    | continued r h => exact hcontinued hi r h
    | rejoined c h hc => exact hrejoined hi c h hc
    | started h hc => exact hstarted hi h hc

/-- The track a detection goes to. -/
theorem ingest_snd {d : Detection} (hi : ¬ Ignored d) :
    (σ.ingest cfg d now terrain).2 =
      some (((σ.continues cfg d (d.seen now)).or (σ.rejoins cfg d (d.seen now))).getD σ.next) := by
  refine ingest_elim cfg σ d now terrain (P := fun _ o ↦ o = some _) (fun h ↦ absurd h hi) ?_ ?_ ?_
  · intro _ r hr; simp [hr]
  · intro _ c hr hc; simp [hr, hc]
  · intro _ hr hc; simp [hr, hc]

variable {cfg σ now terrain} in
/-- A detection that goes to a track was not ignored. -/
theorem not_ignored_of_ingest {d : Detection} {t : Ref}
    (ht : (σ.ingest cfg d now terrain).2 = some t) : ¬ Ignored d := fun hi ↦ by
  rw [ingest_of_ignored cfg σ now terrain hi] at ht
  cases ht

/-- The document a detection is folded into, once it has found its track. -/
def joined (r : Ref) : Track :=
  match σ.continues cfg d seen, σ.rejoins cfg d seen with
  | some _, _ => (σ.settled cfg d seen).heap r
  | none, some _ => { (σ.settled cfg d seen).heap r with state := .coasting }
  | none, none => blank cfg d seen r

/-- **What `Ingest` does to the documents.**  The detection is folded into the one of its track;
any other has at most adopted the serial while it was looked up. -/
theorem ingest_heap {d : Detection} (hi : ¬ Ignored d) (r : Ref) :
    (σ.ingest cfg d now terrain).1.heap r =
      if (σ.ingest cfg d now terrain).2 = some r then
        absorbed cfg d (d.seen now) now terrain (σ.joined cfg d (d.seen now) r)
      else (σ.settled cfg d (d.seen now)).heap r := by
  refine ingest_elim cfg σ d now terrain (P := fun s o ↦ s.heap r = if o = some r then
    absorbed cfg d (d.seen now) now terrain (σ.joined cfg d (d.seen now) r)
      else (σ.settled cfg d (d.seen now)).heap r) (fun h ↦ absurd h hi) ?_ ?_ ?_
  · intro _ t ht
    by_cases hr : r = t
    · subst hr; simp [joined, ht]
    · simp [hr, Ne.symm hr]
  · intro _ c hc hrc
    by_cases hr : r = c
    · subst hr; simp [joined, hc, hrc]
    · simp [hr, Ne.symm hr]
  · intro _ hc hrc
    by_cases hr : r = σ.next
    · subst hr; simp [joined, hc, hrc]
    · simp [hr, Ne.symm hr]

end ingest

end TrackStore

end ClassG.Fusion
