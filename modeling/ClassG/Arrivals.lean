import Mathlib.Data.List.Nodup
import Mathlib.Data.Set.Finite.Lemmas

/-!
# What has arrived, and when it was sent

Messages that carry a time of their own arrive in any order.  A list has what has arrived, latest
arrival first.

* `last` is the one of a kind that arrived last: what a field holds that is assigned on arrival.
* `Newest` is the one of a kind with the latest time: what the field is meant to hold.
  `shows_newest_iff` says that it does exactly if the last to arrive is the newest (`InOrder`), and
  `shows_field_iff` what it takes for no more than the same value (`SaysTheSame`).
* `Clock` is what a clock shows that starts at a time and is only ever put forward.  It shows the
  latest time exactly if there is one that is not before its start (`Clock.isGreatest_iff`).
-/

set_option autoImplicit false

namespace Arrivals

variable {α β T : Type} [LinearOrder T] (time : α → T) (p : α → Prop) [DecidablePred p]

/-- The one of the kind that arrived last. -/
def last (l : List α) : Option α := l.find? fun a ↦ p a

/-- There is none of the kind with a later time. -/
structure Newest (l : List α) (a : α) : Prop where
  mem : a ∈ l
  kind : p a
  le : ∀ b ∈ l, p b → time b ≤ time a

/-- The one of the kind that arrived last has the latest time. -/
def InOrder (l : List α) : Prop := ∀ a, last p l = some a → ∀ b ∈ l, p b → time b ≤ time a

/-- The one of the kind that arrived last says the same as the newest. -/
def SaysTheSame (f : α → β) (l : List α) : Prop :=
  ∀ a b, last p l = some a → Newest time p l b → f a = f b

variable {time p} {l : List α} {a b : α}

/-! ## The last to arrive -/

theorem last_cons (a : α) (l : List α) : last p (a :: l) = if p a then some a else last p l := by
  rw [last, List.find?_cons]
  by_cases h : p a <;> simp [h, last]

theorem last_cons_of_pos (l : List α) (h : p a) : last p (a :: l) = some a := by
  rw [last_cons, if_pos h]

theorem last_cons_of_neg (l : List α) (h : ¬p a) : last p (a :: l) = last p l := by
  rw [last_cons, if_neg h]

theorem mem_of_last (h : last p l = some a) : a ∈ l ∧ p a := by
  have hp : decide (p a) = true := List.find?_some (p := fun a ↦ decide (p a)) h
  exact ⟨List.mem_of_find?_eq_some h, of_decide_eq_true hp⟩

theorem exists_last (ha : a ∈ l) (hp : p a) : ∃ b, last p l = some b := by
  refine Option.ne_none_iff_exists'.mp fun h ↦ ?_
  exact List.find?_eq_none.mp h a ha (decide_eq_true hp)

/-! ## The newest -/

omit [DecidablePred p] in
/-- One of them is the newest. -/
theorem exists_newest (ha : a ∈ l) (hp : p a) : ∃ b, Newest time p l b := by
  obtain ⟨b, ⟨hb, hpb⟩, hle⟩ := Set.exists_max_image {x | x ∈ l ∧ p x} time
    (l.finite_toSet.subset fun x hx ↦ hx.1) ⟨a, ha, hp⟩
  exact ⟨b, hb, hpb, fun x hx hpx ↦ hle x ⟨hx, hpx⟩⟩

omit [DecidablePred p] in
/-- There is only one, if the times are distinct. -/
theorem Newest.unique (hdistinct : (l.map time).Nodup) (ha : Newest time p l a)
    (hb : Newest time p l b) : a = b :=
  List.inj_on_of_nodup_map hdistinct ha.mem hb.mem
    (le_antisymm (hb.le a ha.mem ha.kind) (ha.le b hb.mem hb.kind))

theorem InOrder.newest (h : InOrder time p l) (ha : last p l = some a) : Newest time p l a :=
  ⟨(mem_of_last ha).1, (mem_of_last ha).2, h a ha⟩

theorem InOrder.saysTheSame (h : InOrder time p l) (hdistinct : (l.map time).Nodup) (f : α → β) :
    SaysTheSame time p f l := by
  intro a b ha hb
  rw [(h.newest ha).unique hdistinct hb]

/-- What arrives in time order is in order. -/
theorem InOrder.of_pairwise (h : l.Pairwise fun a b ↦ time b ≤ time a) : InOrder time p l := by
  induction l with
  | nil =>
    intro a ha
    cases ha
  | cons c l ih =>
    rw [List.pairwise_cons] at h
    intro a ha b hb hpb
    by_cases hc : p c
    · rw [last_cons_of_pos l hc] at ha
      obtain rfl := Option.some.inj ha
      rcases List.mem_cons.mp hb with rfl | hb
      · exact le_rfl
      · exact h.1 b hb
    · rw [last_cons_of_neg l hc] at ha
      rcases List.mem_cons.mp hb with rfl | hb
      · exact absurd hpb hc
      · exact ih h.2 a ha b hb hpb

/-- **A field that is assigned on arrival shows the newest exactly if that came last**, if what it
shows tells the time. -/
theorem shows_newest_iff {S : α → Prop} (hlast : ∀ a, last p l = some a → S a)
    (htells : ∀ a b, S a → S b → time a = time b) (hdistinct : (l.map time).Nodup) :
    (∀ a, Newest time p l a → S a) ↔ InOrder time p l := by
  constructor
  · intro h a ha
    obtain ⟨b, hb⟩ : ∃ b, Newest time p l b := exists_newest (mem_of_last ha).1 (mem_of_last ha).2
    rw [htells a b (hlast a ha) (h b hb)]
    exact hb.le
  · intro h a ha
    obtain ⟨b, hb⟩ := exists_last ha.mem ha.kind
    obtain rfl := (h.newest hb).unique hdistinct ha
    exact hlast b hb

/-! ## Fields -/

section field

omit [DecidablePred p]

/-- What a field holds that is assigned whenever a message has something for it. -/
def field (v : α → Option β) (l : List α) : Option β := l.findSome? v

variable (time) in
/-- It holds what the newest of those messages has, if there is one. -/
structure Shows (v : α → Option β) (l : List α) (x : Option β) : Prop where
  newest : ∀ a, Newest time (fun a ↦ (v a).isSome) l a → x = v a
  empty : (∀ a ∈ l, v a = none) → x = none

variable {v : α → Option β} {l' : List α} {x y : Option β}

theorem field_cons (a : α) (l : List α) : field v (a :: l) = (v a).or (field v l) := by
  rw [field, List.findSome?_cons]
  cases v a <;> rfl

theorem field_eq_bind (v : α → Option β) (l : List α) :
    field v l = (last (fun a ↦ (v a).isSome) l).bind v := by
  induction l with
  | nil => rfl
  | cons a l ih =>
    rw [field_cons, last_cons, ih]
    rcases ha : v a with _ | b
    · rfl
    · exact ha.symm

/-- **A field holds what it should exactly if the last to arrive says the same as the newest.** -/
theorem shows_field_iff :
    Shows time v l (field v l) ↔ SaysTheSame time (fun a ↦ (v a).isSome) v l := by
  constructor
  · intro h a b ha hb
    rw [← h.newest b hb, field_eq_bind, ha, Option.bind_some]
  · intro h
    refine ⟨fun b hb ↦ ?_, fun hnone ↦ List.findSome?_eq_none_iff.mpr hnone⟩
    obtain ⟨a, ha⟩ := exists_last (p := fun a ↦ (v a).isSome = true) hb.mem hb.kind
    rw [field_eq_bind, ha, Option.bind_some]
    exact h a b ha hb

/-- For a value that tells the time, the last has to be the newest. -/
theorem saysTheSame_iff_inOrder (hdistinct : (l.map time).Nodup)
    (htells : ∀ a b, (v a).isSome → v a = v b → time a = time b) :
    SaysTheSame time (fun a ↦ (v a).isSome) v l ↔ InOrder time (fun a ↦ (v a).isSome) l := by
  constructor
  · intro h a ha
    obtain ⟨hmem, hsome⟩ := mem_of_last ha
    obtain ⟨b, hb⟩ : ∃ b, Newest time (fun a ↦ (v a).isSome = true) l b := exists_newest hmem hsome
    rw [htells a b hsome (h a b ha hb)]
    exact hb.le
  · exact fun h ↦ h.saysTheSame hdistinct v

/-- What it should hold does not depend on the order of arrival. -/
theorem Shows.eq_of_perm (h : Shows time v l x) (hperm : l.Perm l') (h' : Shows time v l' y) :
    x = y := by
  by_cases hnone : ∀ a ∈ l, v a = none
  · rw [h.empty hnone, h'.empty fun a ha ↦ hnone a (hperm.mem_iff.mpr ha)]
  · push Not at hnone
    obtain ⟨a, ha, hsome⟩ := hnone
    obtain ⟨b, hb⟩ : ∃ b, Newest time (fun a ↦ (v a).isSome = true) l b :=
      exists_newest ha (Option.isSome_iff_ne_none.mpr hsome)
    have hb' : Newest time (fun a ↦ (v a).isSome = true) l' b :=
      ⟨hperm.mem_iff.mp hb.mem, hb.kind, fun c hc ↦ hb.le c (hperm.mem_iff.mpr hc)⟩
    rw [h.newest b hb, h'.newest b hb']

end field

/-! ## Clocks -/

section clock

omit [DecidablePred p]

variable (time p) in
/-- What a clock shows that starts at `zero` and is put forward to the times of the kind. -/
structure Clock (zero : T) (l : List α) (x : T) : Prop where
  zero_le : zero ≤ x
  le : ∀ a ∈ l, p a → time a ≤ x
  eq : x = zero ∨ ∃ a ∈ l, p a ∧ time a = x

variable {zero x : T}

theorem Clock.start (zero : T) : Clock time p zero [] zero :=
  ⟨le_rfl, fun _ h ↦ absurd h List.not_mem_nil, .inl rfl⟩

/-- The clock is put forward, or left. -/
theorem Clock.cons (h : Clock time p zero l x) (a : α) (hp : p a) :
    Clock time p zero (a :: l) (max x (time a)) where
  zero_le := h.zero_le.trans (le_max_left ..)
  le b hb hpb := by
    rcases List.mem_cons.mp hb with rfl | hb
    · exact le_max_right ..
    · exact (h.le b hb hpb).trans (le_max_left ..)
  eq := by
    rcases max_choice x (time a) with hx | hx
    · rw [hx]
      exact h.eq.imp_right fun ⟨b, hb, hpb⟩ ↦ ⟨b, List.mem_cons_of_mem _ hb, hpb⟩
    · exact .inr ⟨a, List.mem_cons_self, hp, hx.symm⟩

theorem Clock.skip (h : Clock time p zero l x) (hp : ¬p a) : Clock time p zero (a :: l) x where
  zero_le := h.zero_le
  le b hb hpb := by
    rcases List.mem_cons.mp hb with rfl | hb
    · exact absurd hpb hp
    · exact h.le b hb hpb
  eq := h.eq.imp_right fun ⟨b, hb, hpb⟩ ↦ ⟨b, List.mem_cons_of_mem _ hb, hpb⟩

/-- **The clock shows the latest time exactly if one of them is not before its start.** -/
theorem Clock.isGreatest_iff (h : Clock time p zero l x) :
    IsGreatest {y | ∃ a ∈ l, p a ∧ time a = y} x ↔ ∃ a ∈ l, p a ∧ zero ≤ time a := by
  constructor
  · rintro ⟨⟨a, ha, hp, rfl⟩, -⟩
    exact ⟨a, ha, hp, h.zero_le⟩
  · rintro ⟨a, ha, hp, hzero⟩
    refine ⟨?_, fun y ⟨b, hb, hpb, hy⟩ ↦ hy ▸ h.le b hb hpb⟩
    rcases h.eq with rfl | hx
    · exact ⟨a, ha, hp, le_antisymm (h.le a ha hp) hzero⟩
    · exact hx

end clock

end Arrivals
