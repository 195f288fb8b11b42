import Mathlib.Data.List.Nodup
import Mathlib.Tactic.Common

/-!
# Map and Set in JavaScript

A `Map` is gone through in the order in which its keys were first set.  `get` says all about it but
that order, and `mem_entries` says what an iteration meets.

* `get_tally`: how often a key occurs in a list, counted in a `Map`.
* `distinct`: the members of `new Set(list)`.
-/

set_option autoImplicit false

/-- A `Map`. -/
structure JsMap (κ ν : Type) where
  entries : List (κ × ν)
  nodup : (entries.map Prod.fst).Nodup

namespace JsMap

variable {κ ν : Type} [DecidableEq κ] {m : JsMap κ ν} {k k' : κ} {v : ν} {l : List (κ × ν)}

/-- The value of a key in a list of entries. -/
def value (l : List (κ × ν)) (k : κ) : Option ν := (l.find? fun e ↦ e.1 = k).map Prod.snd

/-- `new Map()`. -/
def empty : JsMap κ ν := ⟨[], List.nodup_nil⟩

/-- `m.get(k)`. -/
def get (m : JsMap κ ν) (k : κ) : Option ν := value m.entries k

/-- `m.has(k)`. -/
def has (m : JsMap κ ν) (k : κ) : Bool := (m.get k).isSome

theorem value_cons (e : κ × ν) (l : List (κ × ν)) (k : κ) :
    value (e :: l) k = if e.1 = k then some e.2 else value l k := by
  rw [value, List.find?_cons]
  by_cases hk : e.1 = k
  · simp [hk]
  · simp [hk, value]

theorem value_eq_none : value l k = none ↔ k ∉ l.map Prod.fst := by
  simp only [value, Option.map_eq_none_iff, List.find?_eq_none, decide_eq_true_eq, List.mem_map,
    not_exists, not_and]

theorem value_append_singleton (h : k ∉ l.map Prod.fst) (k' : κ) :
    value (l ++ [(k, v)]) k' = if k' = k then some v else value l k' := by
  induction l with
  | nil => simp [value_cons, eq_comm]
  | cons e l ih =>
    obtain ⟨hne, hmem⟩ := not_or.mp (List.mem_cons.not.mp (List.map_cons ▸ h))
    rw [List.cons_append, value_cons, value_cons, ih hmem]
    split
    · rename_i heq
      rw [if_neg fun hk ↦ hne (hk.symm.trans heq.symm)]
    · rfl

/-- An iteration meets what `get` returns. -/
theorem mem_entries : (k, v) ∈ m.entries ↔ m.get k = some v := by
  rw [get, value, Option.map_eq_some_iff]
  constructor
  · intro hmem
    rcases hfind : m.entries.find? fun e ↦ e.1 = k with _ | ⟨k', v'⟩
    · exact absurd (List.find?_eq_none.mp hfind _ hmem) (by simp)
    · obtain rfl : k' = k := by simpa using List.find?_some hfind
      have heq := List.inj_on_of_nodup_map m.nodup (List.mem_of_find?_eq_some hfind) hmem rfl
      exact ⟨_, hfind, congrArg Prod.snd heq⟩
  · rintro ⟨⟨k', v'⟩, hfind, rfl⟩
    obtain rfl : k' = k := by simpa using List.find?_some hfind
    exact List.mem_of_find?_eq_some hfind

/-- The entries with the value for a key in its place. -/
def replace (l : List (κ × ν)) (k : κ) (v : ν) : List (κ × ν) :=
  l.map fun e ↦ if e.1 = k then (k, v) else e

theorem replace_fst (l : List (κ × ν)) (k : κ) (v : ν) :
    (replace l k v).map Prod.fst = l.map Prod.fst := by
  rw [replace, List.map_map]
  refine List.map_congr_left fun e _ ↦ ?_
  rw [Function.comp_apply]
  split
  · rename_i hk
    exact hk.symm
  · rfl

theorem value_replace (l : List (κ × ν)) (k : κ) (v : ν) (k' : κ) :
    value (replace l k v) k' = if k' = k then (value l k).map fun _ ↦ v else value l k' := by
  induction l with
  | nil => simp [replace, value]
  | cons e l ih =>
    rw [replace, List.map_cons, ← replace, value_cons, value_cons, value_cons, ih]
    by_cases hek : e.1 = k
    · rw [if_pos hek, if_pos hek]
      by_cases hk' : k' = k
      · simp [hk']
      · rw [if_neg hk', if_neg (Ne.symm hk'), if_neg hk', if_neg (hek ▸ Ne.symm hk')]
    · rw [if_neg hek, if_neg hek]
      by_cases hk' : k' = k
      · rw [if_pos hk', if_neg (hk' ▸ hek), if_pos hk']
      · rw [if_neg hk', if_neg hk']

/-- `m.set(k, v)`. -/
def set (m : JsMap κ ν) (k : κ) (v : ν) : JsMap κ ν :=
  if hk : k ∈ m.entries.map Prod.fst then
    ⟨replace m.entries k v, (replace_fst m.entries k v).symm ▸ m.nodup⟩
  else
    ⟨m.entries ++ [(k, v)], by
      rw [List.map_append, List.map_singleton, List.nodup_append_comm]
      exact List.nodup_cons.mpr ⟨hk, m.nodup⟩⟩

/-- **What is set is got**, and nothing else changes. -/
theorem get_set (m : JsMap κ ν) (k : κ) (v : ν) (k' : κ) :
    (m.set k v).get k' = if k' = k then some v else m.get k' := by
  rw [set]
  split
  · rename_i hk
    obtain ⟨w, hw⟩ := Option.ne_none_iff_exists'.mp fun hnone ↦ value_eq_none.mp hnone hk
    rw [get, value_replace, hw]
    rfl
  · rename_i hk
    exact value_append_singleton hk k'

/-! ## Counting -/

/-- Counting one more of a key. -/
def increment (m : JsMap κ ℕ) (k : κ) : JsMap κ ℕ := m.set k ((m.get k).getD 0 + 1)

theorem get_foldl_increment (ks : List κ) (m : JsMap κ ℕ) (k : κ) :
    (ks.foldl increment m).get k =
      if k ∈ ks then some ((m.get k).getD 0 + ks.count k) else m.get k := by
  induction ks generalizing m with
  | nil => simp
  | cons a ks ih =>
    rw [List.foldl_cons, ih, increment, get_set]
    by_cases hka : k = a
    · subst hka
      by_cases hks : k ∈ ks
      · simp [hks, Nat.add_assoc, Nat.add_comm 1]
      · simp [hks, List.count_eq_zero_of_not_mem hks]
    · rw [if_neg hka, List.count_cons_of_ne (Ne.symm hka)]
      simp [hka]

/-- How often each key occurs. -/
def tally (ks : List κ) : JsMap κ ℕ := ks.foldl increment empty

theorem get_tally (ks : List κ) (k : κ) :
    (tally ks).get k = if k ∈ ks then some (ks.count k) else none := by
  have hempty : (empty : JsMap κ ℕ).get k = none := rfl
  rw [tally, get_foldl_increment, hempty, Option.getD_none, Nat.zero_add]

end JsMap

/-! ## Sets -/

section distinct

variable {α κ : Type} [DecidableEq κ]

/-- The members of `new Set(l)`. -/
def distinct (l : List κ) : List κ := l.foldl (fun s a ↦ if a ∈ s then s else s ++ [a]) []

theorem distinct_spec (l : List κ) :
    (distinct l).Nodup ∧ ∀ a, a ∈ distinct l ↔ a ∈ l := by
  suffices h : ∀ s : List κ, s.Nodup →
      (l.foldl (fun s a ↦ if a ∈ s then s else s ++ [a]) s).Nodup ∧
        ∀ a, a ∈ l.foldl (fun s a ↦ if a ∈ s then s else s ++ [a]) s ↔ a ∈ s ∨ a ∈ l by
    obtain ⟨hnodup, hmem⟩ := h [] List.nodup_nil
    exact ⟨hnodup, fun a ↦ (hmem a).trans (by simp)⟩
  induction l with
  | nil => simp
  | cons b l ih =>
    intro s hs
    rw [List.foldl_cons]
    split
    · rename_i hb
      obtain ⟨hnodup, hmem⟩ := ih s hs
      refine ⟨hnodup, fun a ↦ (hmem a).trans ?_⟩
      rw [List.mem_cons]
      grind
    · rename_i hb
      have hsb : (s ++ [b]).Nodup := by
        rw [List.nodup_append_comm]
        exact List.nodup_cons.mpr ⟨hb, hs⟩
      obtain ⟨hnodup, hmem⟩ := ih (s ++ [b]) hsb
      refine ⟨hnodup, fun a ↦ (hmem a).trans ?_⟩
      rw [List.mem_append, List.mem_singleton, List.mem_cons, or_assoc]

theorem count_distinct (l : List κ) (a : κ) : (distinct l).count a = if a ∈ l then 1 else 0 := by
  rw [(distinct_spec l).1.count]
  simp only [(distinct_spec l).2 a]

/-- Each list counts a key once that has it. -/
theorem count_flatMap_distinct (f : α → List κ) (ls : List α) (k : κ) :
    (ls.flatMap fun x ↦ distinct (f x)).count k = ls.countP fun x ↦ k ∈ f x := by
  induction ls with
  | nil => rfl
  | cons x ls ih =>
    rw [List.flatMap_cons, List.count_append, ih, count_distinct, List.countP_cons, Nat.add_comm]
    simp

end distinct
