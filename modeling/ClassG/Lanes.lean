import Mathlib.Data.List.Nodup
import Mathlib.Data.List.Perm.Subperm
import Mathlib.Order.Bounds.Basic
import Mathlib.Order.Lattice
import Mathlib.Order.MinMax
import Mathlib.Tactic.Common

/-!
# Bars in lanes

Bars that start and stop are put into lanes, one after the other: each into the first lane whose last
bar has stopped when it starts, and into a new lane if there is none.

* `Packed`: what holds of the bars that are in lanes, kept by `Packed.place`.
* `Packed.isGreatest`: if the bars come in the order of their starts, there are as many lanes as bars
  at the most crowded time.
-/

set_option autoImplicit false

namespace Lanes

variable {α T : Type} [LinearOrder T] (start stop : α → T)

/-- The lane for a bar, and the last bars of the lanes once it is there. -/
def place (lasts : List α) (a : α) : ℕ × List α :=
  match lasts.findIdx? fun b ↦ stop b ≤ start a with
  | some k => (k, lasts.set k a)
  | none => (lasts.length, lasts ++ [a])

/-- The bars, each with its lane. -/
def pack : List α → List α → List (α × ℕ)
  | _, [] => []
  | lasts, a :: rest => (a, (place start stop lasts a).1) :: pack (place start stop lasts a).2 rest

/-- How many lanes are used. -/
def laneCount (l : List (α × ℕ)) : ℕ := l.foldl (fun m p ↦ max m (p.2 + 1)) 0

/-- How many bars there are at a time. -/
def crowd (l : List (α × ℕ)) (x : T) : ℕ := l.countP fun p ↦ start p.1 ≤ x ∧ x < stop p.1

/-- The bars are in their lanes, and the last of each lane are these. -/
structure Packed (l : List (α × ℕ)) (lasts : List α) : Prop where
  lt : ∀ p ∈ l, p.2 < lasts.length
  mem : ∀ k b, lasts[k]? = some b → (b, k) ∈ l
  last : ∀ p ∈ l, ∀ b, lasts[p.2]? = some b → stop p.1 ≤ stop b
  disjoint : l.Pairwise fun p q ↦ p.2 = q.2 → stop p.1 ≤ start q.1
  /-- No lane was opened in vain. -/
  crowded : lasts = [] ∨ ∃ x, lasts.length ≤ crowd start stop l x

variable {start stop} {l : List (α × ℕ)} {lasts bars : List α} {a : α}

variable (start stop) in
/-- A bar goes where there is room, or into a new lane if there is none. -/
theorem place_cases (lasts : List α) (a : α) :
    (∃ k b, lasts[k]? = some b ∧ stop b ≤ start a ∧
      place start stop lasts a = (k, lasts.set k a)) ∨
      (∀ b ∈ lasts, start a < stop b) ∧
        place start stop lasts a = (lasts.length, lasts ++ [a]) := by
  rcases h : lasts.findIdx? fun b ↦ stop b ≤ start a with _ | k
  · refine .inr ⟨fun b hb ↦ ?_, by rw [place, h]⟩
    simpa using List.findIdx?_eq_none_iff.mp h b hb
  · obtain ⟨hk, hfree, -⟩ := List.findIdx?_eq_some_iff_getElem.mp h
    exact .inl ⟨k, lasts[k], List.getElem?_eq_getElem hk, by simpa using hfree, by rw [place, h]⟩

variable (start stop) in
/-- Each bar gets a lane, once. -/
theorem pack_fst (lasts bars : List α) : (pack start stop lasts bars).map Prod.fst = bars := by
  induction bars generalizing lasts with
  | nil => rfl
  | cons a bars ih => rw [pack, List.map_cons, ih]

theorem crowd_append_singleton (l : List (α × ℕ)) (p : α × ℕ) (x : T) :
    crowd start stop (l ++ [p]) x =
      crowd start stop l x + if start p.1 ≤ x ∧ x < stop p.1 then 1 else 0 := by
  rw [crowd, List.countP_append, List.countP_singleton, ← crowd]
  simp

/-- The last bars of the lanes are different bars, as their lanes are different. -/
theorem length_le_crowd (hmem : ∀ k b, lasts[k]? = some b → (b, k) ∈ l) {x : T}
    (hcover : ∀ b ∈ lasts, start b ≤ x ∧ x < stop b) :
    lasts.length ≤ crowd start stop l x := by
  have hnodup : lasts.zipIdx.Nodup := by
    refine List.Nodup.of_map Prod.snd ?_
    rw [List.zipIdx_map_snd]
    exact List.nodup_range'
  have hsub : lasts.zipIdx ⊆ l.filter fun p ↦ start p.1 ≤ x ∧ x < stop p.1 := by
    rintro ⟨b, k⟩ hb
    have hk : lasts[k]? = some b := List.mem_zipIdx_iff_getElem?.mp hb
    rw [List.mem_filter]
    exact ⟨hmem k b hk, by simpa using hcover b (List.mem_of_getElem? hk)⟩
  have hle := (List.subperm_of_subset hnodup hsub).length_le
  rwa [List.length_zipIdx, ← List.countP_eq_length_filter] at hle

namespace Packed

variable (start stop) in
theorem nil : Packed start stop ([] : List (α × ℕ)) [] where
  lt := by simp
  mem := by simp
  last := by simp
  disjoint := .nil
  crowded := .inl rfl

/-- A bar goes into a lane that is there. -/
theorem reuse (h : Packed start stop l lasts) {k : ℕ} {b : α} (hk : lasts[k]? = some b)
    (hfree : stop b ≤ start a) (ha : start a < stop a) :
    Packed start stop (l ++ [(a, k)]) (lasts.set k a) := by
  have hlt : k < lasts.length := (List.getElem?_eq_some_iff.mp hk).1
  have hself : (lasts.set k a)[k]? = some a := List.getElem?_set_self hlt
  have hbefore : ∀ p ∈ l, p.2 = k → stop p.1 ≤ start a := fun p hp hpk ↦
    (h.last p hp b (hpk ▸ hk)).trans hfree
  constructor
  · intro p hp
    rw [List.length_set]
    rcases List.mem_append.mp hp with hp | hp
    · exact h.lt p hp
    · obtain rfl := List.mem_singleton.mp hp
      exact hlt
  · intro j c hj
    by_cases hjk : k = j
    · subst hjk
      obtain rfl := Option.some.inj (hself.symm.trans hj)
      simp
    · rw [List.getElem?_set_ne hjk] at hj
      exact List.mem_append_left _ (h.mem j c hj)
  · intro p hp c hc
    rcases List.mem_append.mp hp with hp | hp
    · by_cases hpk : k = p.2
      · rw [← hpk] at hc
        obtain rfl := Option.some.inj (hself.symm.trans hc)
        exact (hbefore p hp hpk.symm).trans ha.le
      · rw [List.getElem?_set_ne hpk] at hc
        exact h.last p hp c hc
    · obtain rfl := List.mem_singleton.mp hp
      obtain rfl := Option.some.inj (hself.symm.trans hc)
      exact le_rfl
  · refine List.pairwise_append.mpr ⟨h.disjoint, List.pairwise_singleton _ _, fun p hp q hq ↦ ?_⟩
    obtain rfl := List.mem_singleton.mp hq
    exact hbefore p hp
  · rcases h.crowded with rfl | ⟨x, hx⟩
    · cases hk
    · refine .inr ⟨x, ?_⟩
      rw [List.length_set, crowd_append_singleton]
      omega

/-- A bar goes into a new lane: when it starts, there is one in each of the others. -/
theorem openLane (h : Packed start stop l lasts) (hbusy : ∀ b ∈ lasts, start a < stop b)
    (hstarts : ∀ p ∈ l, start p.1 ≤ start a) (ha : start a < stop a) :
    Packed start stop (l ++ [(a, lasts.length)]) (lasts ++ [a]) := by
  constructor
  · intro p hp
    rw [List.length_append, List.length_singleton]
    rcases List.mem_append.mp hp with hp | hp
    · exact (h.lt p hp).trans (Nat.lt_succ_self _)
    · obtain rfl := List.mem_singleton.mp hp
      exact Nat.lt_succ_self _
  · intro j c hj
    rcases Nat.lt_trichotomy j lasts.length with hlt | rfl | hgt
    · rw [List.getElem?_append_left hlt] at hj
      exact List.mem_append_left _ (h.mem j c hj)
    · rw [List.getElem?_concat_length] at hj
      obtain rfl := Option.some.inj hj
      simp
    · rw [List.getElem?_eq_none (by rwa [List.length_append])] at hj
      cases hj
  · intro p hp c hc
    rcases List.mem_append.mp hp with hp | hp
    · rw [List.getElem?_append_left (h.lt p hp)] at hc
      exact h.last p hp c hc
    · obtain rfl := List.mem_singleton.mp hp
      rw [List.getElem?_concat_length] at hc
      obtain rfl := Option.some.inj hc
      exact le_rfl
  · refine List.pairwise_append.mpr ⟨h.disjoint, List.pairwise_singleton _ _, fun p hp q hq ↦ ?_⟩
    obtain rfl := List.mem_singleton.mp hq
    exact fun heq ↦ absurd heq (h.lt p hp).ne
  · have hcrowd : lasts.length ≤ crowd start stop l (start a) := by
      refine length_le_crowd h.mem fun b hb ↦ ⟨?_, hbusy b hb⟩
      obtain ⟨k, hk⟩ := List.mem_iff_getElem?.mp hb
      exact hstarts _ (h.mem k b hk)
    refine .inr ⟨start a, ?_⟩
    rw [List.length_append, List.length_singleton, crowd_append_singleton, if_pos ⟨le_rfl, ha⟩]
    omega

/-- **Bars stay packed** as one more goes into its lane. -/
theorem place (h : Packed start stop l lasts) (hstarts : ∀ p ∈ l, start p.1 ≤ start a)
    (ha : start a < stop a) :
    Packed start stop (l ++ [(a, (Lanes.place start stop lasts a).1)])
      (Lanes.place start stop lasts a).2 := by
  rcases place_cases start stop lasts a with ⟨k, b, hk, hfree, hplace⟩ | ⟨hbusy, hplace⟩
  · rw [hplace]
    exact h.reuse hk hfree ha
  · rw [hplace]
    exact h.openLane hbusy hstarts ha

/-- **Bars in the order of their starts are packed.** -/
theorem pack (h : Packed start stop l lasts) (hl : ∀ p ∈ l, ∀ a ∈ bars, start p.1 ≤ start a)
    (hbars : bars.Pairwise fun a b ↦ start a ≤ start b) (hpos : ∀ a ∈ bars, start a < stop a) :
    ∃ lasts', Packed start stop (l ++ Lanes.pack start stop lasts bars) lasts' := by
  induction bars generalizing l lasts with
  | nil => exact ⟨lasts, by rwa [Lanes.pack, List.append_nil]⟩
  | cons a bars ih =>
    obtain ⟨hle, hbars⟩ := List.pairwise_cons.mp hbars
    have hstep := h.place (fun p hp ↦ hl p hp a List.mem_cons_self) (hpos a List.mem_cons_self)
    rw [Lanes.pack, List.append_cons]
    refine ih hstep (fun p hp b hb ↦ ?_) hbars fun b hb ↦ hpos b (List.mem_cons_of_mem _ hb)
    rcases List.mem_append.mp hp with hp | hp
    · exact hl p hp b (List.mem_cons_of_mem _ hb)
    · obtain rfl := List.mem_singleton.mp hp
      exact hle b hb

/-! ## How many lanes -/

/-- Bars at one time are in different lanes. -/
theorem crowd_le (h : Packed start stop l lasts) (x : T) :
    crowd start stop l x ≤ lasts.length := by
  have hnodup : ((l.filter fun p ↦ start p.1 ≤ x ∧ x < stop p.1).map Prod.snd).Nodup := by
    rw [List.Nodup, List.pairwise_map]
    refine (h.disjoint.filter _).imp_of_mem fun {p q} hp hq hdisjoint hlane ↦ ?_
    have hpx : start p.1 ≤ x ∧ x < stop p.1 := by simpa using (List.mem_filter.mp hp).2
    have hqx : start q.1 ≤ x ∧ x < stop q.1 := by simpa using (List.mem_filter.mp hq).2
    exact ((hdisjoint hlane).trans hqx.1).not_gt hpx.2
  have hsub : (l.filter fun p ↦ start p.1 ≤ x ∧ x < stop p.1).map Prod.snd ⊆
      List.range lasts.length := by
    intro k hk
    obtain ⟨p, hp, rfl⟩ := List.mem_map.mp hk
    exact List.mem_range.mpr (h.lt p (List.mem_filter.mp hp).1)
  have hle := (List.subperm_of_subset hnodup hsub).length_le
  rwa [List.length_map, List.length_range, ← List.countP_eq_length_filter] at hle

end Packed

theorem foldl_max_le (l : List (α × ℕ)) (m n : ℕ) :
    l.foldl (fun m p ↦ max m (p.2 + 1)) m ≤ n ↔ m ≤ n ∧ ∀ p ∈ l, p.2 < n := by
  induction l generalizing m with
  | nil => simp
  | cons p l ih =>
    rw [List.foldl_cons, ih, max_le_iff, List.forall_mem_cons, and_assoc, Nat.succ_le_iff]

theorem laneCount_le {n : ℕ} : laneCount l ≤ n ↔ ∀ p ∈ l, p.2 < n := by
  rw [laneCount, foldl_max_le, and_iff_right n.zero_le]

theorem Packed.laneCount_eq (h : Packed start stop l lasts) : laneCount l = lasts.length := by
  refine le_antisymm (laneCount_le.mpr h.lt) ?_
  by_contra hlt
  have hk : laneCount l < lasts.length := not_le.mp hlt
  have hmem := h.mem _ _ (List.getElem?_eq_getElem hk)
  exact (laneCount_le.mp le_rfl _ hmem).ne rfl

/-- **There are as many lanes as bars at the most crowded time.** -/
theorem Packed.isGreatest [Nonempty T] (h : Packed start stop l lasts) :
    IsGreatest (Set.range (crowd start stop l)) (laneCount l) := by
  rw [h.laneCount_eq]
  constructor
  · rcases h.crowded with rfl | ⟨x, hx⟩
    · obtain ⟨x⟩ := ‹Nonempty T›
      exact ⟨x, Nat.le_zero.mp (h.crowd_le x)⟩
    · exact ⟨x, (h.crowd_le x).antisymm hx⟩
  · rintro _ ⟨x, rfl⟩
    exact h.crowd_le x

end Lanes
