import Mathlib.Data.List.AList
import Mathlib.Algebra.BigOperators.Group.List.Basic
import Mathlib.Algebra.GroupWithZero.Nat
import Mathlib.Tactic.Common

/-!
# Go maps

A Go `map[K]V` read, written and ranged over by a single goroutine.  `GoMap κ ν` is Mathlib's
association list without repeated keys, under the words of the Go language: `get` is the
comma-ok read, `put` is assignment, `delete` is the builtin, `values` is what a `range` loop
visits.  Go does not fix the order of that loop; a development that depends on it has to take the
order as a parameter, and one that ranges over `values` owes the reader the reason why the order
does not show.

Every reader of a map is described by `get`, so the lemmas here are all of the shape "what does
`get` return afterwards", as an `if` on the key.  The loops that touch many keys at once —
deleting or assigning a whole list of them — are `deleteAll` and `putAll`, and `deleteWhere` sweeps
out what a predicate picks; `deleteIf` is the compare-and-delete that gives a key back only to the
value that still holds it.
-/

set_option autoImplicit false

/-- A Go map from `κ` to `ν`. -/
structure GoMap (κ ν : Type) where
  /-- The entries, at most one for each key. -/
  alist : AList fun _ : κ ↦ ν

namespace GoMap

variable {κ ν : Type}

/-- `make(map[K]V)`; also the nil map, which reads the same. -/
def empty : GoMap κ ν := ⟨∅⟩

instance : Inhabited (GoMap κ ν) := ⟨empty⟩

/-- The values a `range` loop visits. -/
def values (m : GoMap κ ν) : List ν := m.alist.entries.map Sigma.snd

/-- The keys a `range` loop visits. -/
def keys (m : GoMap κ ν) : List κ := m.alist.keys

/-- The keys and values a `range` loop visits. -/
def entries (m : GoMap κ ν) : List (κ × ν) := m.alist.entries.map fun e ↦ (e.1, e.2)

/-- `len(m)`. -/
def len (m : GoMap κ ν) : ℕ := m.alist.entries.length

variable [DecidableEq κ]

/-- `v, ok := m[k]`. -/
def get (m : GoMap κ ν) (k : κ) : Option ν := m.alist.lookup k

/-- `m[k] = v`. -/
def put (m : GoMap κ ν) (k : κ) (v : ν) : GoMap κ ν := ⟨m.alist.insert k v⟩

/-- `delete(m, k)`. -/
def delete (m : GoMap κ ν) (k : κ) : GoMap κ ν := ⟨m.alist.erase k⟩

/-! ## Reading back -/

@[simp] theorem get_empty (k : κ) : (empty : GoMap κ ν).get k = none := rfl

theorem get_put (m : GoMap κ ν) (k : κ) (v : ν) (j : κ) :
    (m.put k v).get j = if j = k then some v else m.get j := by
  split
  · rename_i h; subst h; exact AList.lookup_insert m.alist
  · rename_i h; exact AList.lookup_insert_ne h

theorem get_delete (m : GoMap κ ν) (k j : κ) :
    (m.delete k).get j = if j = k then none else m.get j := by
  split
  · rename_i h; subst h; exact AList.lookup_erase j m.alist
  · rename_i h; exact AList.lookup_erase_ne h

/-- A value is visited by the range loop when some key holds it. -/
theorem mem_values {m : GoMap κ ν} {v : ν} : v ∈ m.values ↔ ∃ k, m.get k = some v := by
  rw [values, List.mem_map]
  constructor
  · rintro ⟨⟨k, w⟩, hm, rfl⟩
    exact ⟨k, AList.mem_lookup_iff.mpr hm⟩
  · rintro ⟨k, hk⟩
    exact ⟨⟨k, v⟩, AList.mem_lookup_iff.mp hk, rfl⟩

theorem mem_entries {m : GoMap κ ν} {k : κ} {v : ν} : (k, v) ∈ m.entries ↔ m.get k = some v := by
  rw [entries, List.mem_map, get, ← Option.mem_def, AList.mem_lookup_iff]
  constructor
  · rintro ⟨⟨j, w⟩, hm, h⟩
    cases h
    exact hm
  · exact fun h ↦ ⟨⟨k, v⟩, h, rfl⟩

theorem mem_keys {m : GoMap κ ν} {k : κ} : k ∈ m.keys ↔ ∃ v, m.get k = some v := by
  rw [keys, ← AList.mem_keys, ← AList.lookup_isSome, Option.isSome_iff_exists, get]

/-- A range loop over values that are a function of their keys is one over the keys. -/
theorem map_values {α : Type} {m : GoMap κ ν} {f : ν → α} {g : κ → α}
    (h : ∀ k v, m.get k = some v → f v = g k) : m.values.map f = m.keys.map g := by
  rw [values, keys, AList.keys, List.keys, List.map_map, List.map_map]
  exact List.map_congr_left fun e he ↦ h e.1 e.2 (AList.mem_lookup_iff.mpr he)

omit [DecidableEq κ] in
theorem keys_nodup (m : GoMap κ ν) : m.keys.Nodup := m.alist.keys_nodup

/-! ## Loops over a list of keys -/

/-- `for _, k := range ks { delete(m, k) }`. -/
def deleteAll (m : GoMap κ ν) (ks : List κ) : GoMap κ ν := ks.foldl delete m

theorem get_deleteAll (m : GoMap κ ν) (ks : List κ) (j : κ) :
    (m.deleteAll ks).get j = if j ∈ ks then none else m.get j := by
  induction ks generalizing m with
  | nil => simp [deleteAll]
  | cons k ks ih =>
    rw [deleteAll, List.foldl_cons, ← deleteAll, ih, get_delete]
    by_cases hj : j = k <;> simp [hj]

theorem kerase_eq_filter {k : κ} {l : List (Sigma fun _ : κ ↦ ν)} (h : l.NodupKeys) :
    l.kerase k = l.filter fun e ↦ e.1 ≠ k := by
  induction l with
  | nil => rfl
  | cons e l ih =>
    obtain ⟨he, hl⟩ := List.nodupKeys_cons.mp h
    by_cases hk : k = e.1
    · rw [List.kerase_cons_eq hk, List.filter_cons_of_neg (by simp [hk])]
      refine (List.filter_eq_self.mpr fun f hf ↦ ?_).symm
      refine decide_eq_true fun hfk ↦ he ?_
      rw [← hk, ← hfk]
      exact List.mem_keys_of_mem hf
    · rw [List.kerase_cons_ne hk, ih hl, List.filter_cons_of_pos (by simp [Ne.symm hk])]

theorem entries_deleteAll (m : GoMap κ ν) (ks : List κ) :
    (m.deleteAll ks).alist.entries = m.alist.entries.filter fun e ↦ e.1 ∉ ks := by
  induction ks generalizing m with
  | nil => simp [deleteAll]
  | cons k ks ih =>
    rw [deleteAll, List.foldl_cons, ← deleteAll, ih]
    show (m.alist.entries.kerase k).filter _ = _
    rw [kerase_eq_filter m.alist.nodupKeys, List.filter_filter]
    refine List.filter_congr fun e _ ↦ ?_
    by_cases hk : e.1 = k <;> simp [hk]

/-- `for _, k := range ks { m[k] = v }`. -/
def putAll (m : GoMap κ ν) (ks : List κ) (v : ν) : GoMap κ ν := ks.foldl (fun m k ↦ m.put k v) m

theorem get_putAll (m : GoMap κ ν) (ks : List κ) (v : ν) (j : κ) :
    (m.putAll ks v).get j = if j ∈ ks then some v else m.get j := by
  induction ks generalizing m with
  | nil => simp [putAll]
  | cons k ks ih =>
    rw [putAll, List.foldl_cons, ← putAll, ih, get_put]
    by_cases hj : j = k <;> simp [hj]

theorem get_foldl_put_of_notMem {α : Type} {f : α → κ} {g : α → ν} {k : κ} :
    ∀ {l : List α} (m : GoMap κ ν), k ∉ l.map f →
      (l.foldl (fun m x ↦ m.put (f x) (g x)) m).get k = m.get k
  | [], _, _ => rfl
  | y :: l, m, h => by
    rw [List.map_cons, List.mem_cons, not_or] at h
    rw [List.foldl_cons, get_foldl_put_of_notMem _ h.2, get_put, if_neg h.1]

/-- What was put under the keys of a list, each once. -/
theorem get_foldl_put {α : Type} {f : α → κ} {g : α → ν} :
    ∀ {l : List α} (m : GoMap κ ν), (l.map f).Nodup → ∀ {x : α}, x ∈ l →
      (l.foldl (fun m x ↦ m.put (f x) (g x)) m).get (f x) = some (g x)
  | y :: l, m, hnodup, x, hx => by
    obtain ⟨hy, hnodup⟩ := List.nodup_cons.mp hnodup
    rw [List.foldl_cons]
    rcases List.mem_cons.mp hx with rfl | hx
    · rw [get_foldl_put_of_notMem _ hy, get_put, if_pos rfl]
    · exact get_foldl_put _ hnodup hx

/-- `for k, v := range m { if p(v) { delete(m, k) } }`. -/
def deleteWhere (m : GoMap κ ν) (p : ν → Bool) : GoMap κ ν :=
  m.deleteAll (m.keys.filter fun k ↦ (m.get k).any p)

theorem get_deleteWhere (m : GoMap κ ν) (p : ν → Bool) (j : κ) :
    (m.deleteWhere p).get j = (m.get j).filter fun v ↦ !p v := by
  rw [deleteWhere, get_deleteAll]
  have hpicked : j ∈ m.keys.filter (fun k ↦ (m.get k).any p) ↔ (m.get j).any p = true := by
    rw [List.mem_filter, and_iff_right_iff_imp]
    intro h
    cases hj : m.get j with
    | none => simp [hj] at h
    | some v => exact mem_keys.mpr ⟨v, hj⟩
  cases hj : m.get j with
  | none => simp
  | some v =>
    rw [hj, Option.any_some] at hpicked
    cases hp : p v <;> simp [hpicked, hp, Option.filter]

/-! ## Compare and delete -/

variable [DecidableEq ν]

/-- `if m[k] == v { delete(m, k) }`. -/
def deleteIf (m : GoMap κ ν) (k : κ) (v : ν) : GoMap κ ν :=
  if m.get k = some v then m.delete k else m

theorem get_deleteIf (m : GoMap κ ν) (k : κ) (v : ν) (j : κ) :
    (m.deleteIf k v).get j = if j = k ∧ m.get k = some v then none else m.get j := by
  rw [deleteIf]
  split
  · rename_i h; rw [get_delete]; simp [h]
  · rename_i h; simp [h]

/-- `for _, k := range ks { if m[k] == v { delete(m, k) } }`. -/
def deleteAllIf (m : GoMap κ ν) (ks : List κ) (v : ν) : GoMap κ ν :=
  ks.foldl (fun m k ↦ m.deleteIf k v) m

theorem get_deleteAllIf (m : GoMap κ ν) (ks : List κ) (v : ν) (j : κ) :
    (m.deleteAllIf ks v).get j = if j ∈ ks ∧ m.get j = some v then none else m.get j := by
  induction ks generalizing m with
  | nil => simp [deleteAllIf]
  | cons k ks ih =>
    rw [deleteAllIf, List.foldl_cons, ← deleteAllIf, ih, get_deleteIf]
    by_cases hj : j = k
    · subst hj
      by_cases hv : m.get j = some v <;> simp [hv]
    · simp [hj]

end GoMap

/-! ## Owned maps

An index is worth having only as long as what it points at still owns the key.  `Owned m p` says
so for every entry, and a change keeps it as long as the entries it makes are owned. -/

namespace GoMap

variable {κ ν : Type} [DecidableEq κ]

/-- Every entry of the map satisfies `p`. -/
def Owned (m : GoMap κ ν) (p : κ → ν → Prop) : Prop := ∀ k v, m.get k = some v → p k v

theorem Owned.empty (p : κ → ν → Prop) : (GoMap.empty : GoMap κ ν).Owned p := by
  intro k v h; simp at h

/-- A changed map is owned if each of its entries is an old one, which the new owners still own,
or a new one that is owned. -/
theorem Owned.change {m m' : GoMap κ ν} {p q : κ → ν → Prop} (h : m.Owned p)
    (hm : ∀ k v, m'.get k = some v → (m.get k = some v ∧ (p k v → q k v)) ∨ q k v) :
    m'.Owned q := by
  intro k v hk
  rcases hm k v hk with ⟨hold, hpq⟩ | hq
  · exact hpq (h k v hold)
  · exact hq

theorem Owned.mono {m : GoMap κ ν} {p q : κ → ν → Prop} (h : m.Owned p)
    (hpq : ∀ k v, m.get k = some v → p k v → q k v) : m.Owned q :=
  fun k v hk ↦ hpq k v hk (h k v hk)

end GoMap

/-! ## Sums over the values -/

/-- The sum of `f` over the values. -/
def GoMap.sumOf {κ ν : Type} (m : GoMap κ ν) (f : ν → ℕ) : ℕ := (m.values.map f).sum

namespace GoMap

variable {κ ν : Type} [DecidableEq κ]

theorem values_put_of_get_none {m : GoMap κ ν} {k : κ} (v : ν) (h : m.get k = none) :
    (m.put k v).values = v :: m.values := by
  have hk : k ∉ m.alist := AList.lookup_eq_none.mp h
  rw [values, put, AList.entries_insert_of_notMem hk, List.map_cons, ← values]

/-- Replacing the value under a key moves the old one out and the new one to the front. -/
theorem values_put_of_get_some {m : GoMap κ ν} {k : κ} (v : ν) {w : ν} (h : m.get k = some w) :
    ∃ rest, m.values.Perm (w :: rest) ∧ (m.put k v).values = v :: rest := by
  have hk : k ∈ m.alist.entries.keys := List.dlookup_isSome.mp (Option.isSome_of_eq_some h)
  obtain ⟨b, l₁, l₂, -, hl, he⟩ := List.exists_of_kerase hk
  have hb : b = w := by
    have hmem : (⟨k, b⟩ : Sigma fun _ : κ ↦ ν) ∈ m.alist.entries := by rw [hl]; simp
    exact Option.some.inj ((AList.mem_lookup_iff.mpr hmem).symm.trans h)
  refine ⟨(l₁ ++ l₂).map Sigma.snd, ?_, ?_⟩
  · rw [values, hl, ← hb, List.map_append, List.map_cons, List.map_append]
    exact List.perm_middle
  · rw [values, put, AList.entries_insert, he, List.map_cons]

/-- **Assigning changes the sum by the difference of the two values under the key.** -/
theorem sumOf_put (m : GoMap κ ν) (k : κ) (v : ν) (f : ν → ℕ) :
    (m.put k v).sumOf f + ((m.get k).map f).getD 0 = m.sumOf f + f v := by
  cases h : m.get k with
  | none => simp [sumOf, values_put_of_get_none v h, Nat.add_comm]
  | some w =>
    obtain ⟨rest, hp, hput⟩ := values_put_of_get_some v h
    have hsum : m.sumOf f = f w + (rest.map f).sum := by
      rw [sumOf, (hp.map f).sum_eq, List.map_cons, List.sum_cons]
    rw [hsum, sumOf, hput, List.map_cons, List.sum_cons, Option.map_some, Option.getD_some]
    omega

end GoMap
