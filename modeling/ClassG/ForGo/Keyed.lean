import Mathlib.Data.List.Perm.Lattice
import Mathlib.Data.List.Sort
import ClassG.ForGo.Map

/-!
# Rows under their key

A Go map whose values are kept under a key of their own, and a table of a database under its primary
key, are the same thing: a `Keyed` collection of rows, at most one for each key.  `get` describes
it, and `rows` are what a loop or a `SELECT` goes through, in no order that anything may depend on.
-/

set_option autoImplicit false

/-- Rows, each under its key. -/
structure Keyed {κ ν : Type} [DecidableEq κ] (key : ν → κ) where
  map : GoMap κ ν
  keyed : map.Owned fun k v ↦ key v = k

namespace Keyed

variable {κ ν μ : Type} [DecidableEq κ] {key : ν → κ} {key' : μ → κ}

def empty : Keyed key := ⟨.empty, .empty _⟩

instance : Inhabited (Keyed key) := ⟨empty⟩

/-- The row under a key. -/
def get (t : Keyed key) (k : κ) : Option ν := t.map.get k

/-- The row, in place of what has its key. -/
def put (t : Keyed key) (v : ν) : Keyed key where
  map := t.map.put (key v) v
  keyed := by
    refine t.keyed.change fun k w h ↦ ?_
    rw [GoMap.get_put] at h
    split at h
    · rename_i hk
      exact .inr (by rw [← Option.some.inj h, hk])
    · exact .inl ⟨h, id⟩

/-- Without the row under a key. -/
def delete (t : Keyed key) (k : κ) : Keyed key where
  map := t.map.delete k
  keyed := by
    refine t.keyed.change fun j w h ↦ ?_
    rw [GoMap.get_delete] at h
    split at h
    · cases h
    · exact .inl ⟨h, id⟩

/-- Without the rows that satisfy `p`. -/
def deleteWhere (t : Keyed key) (p : ν → Bool) : Keyed key where
  map := t.map.deleteWhere p
  keyed := by
    refine t.keyed.change fun j w h ↦ ?_
    rw [GoMap.get_deleteWhere] at h
    exact .inl ⟨(Option.filter_eq_some_iff.mp h).1, id⟩

/-- What a loop goes through. -/
def rows (t : Keyed key) : List ν := t.map.values

variable {t : Keyed key} {k j : κ} {v w : ν}

@[simp] theorem get_empty : (empty : Keyed key).get k = none := rfl

theorem get_put : (t.put v).get k = if k = key v then some v else t.get k := GoMap.get_put ..

theorem get_delete : (t.delete k).get j = if j = k then none else t.get j := GoMap.get_delete ..

theorem get_deleteWhere {p : ν → Bool} :
    (t.deleteWhere p).get k = (t.get k).filter fun v ↦ !p v := GoMap.get_deleteWhere ..

/-- Deleting the rows with a key deletes the row under it. -/
theorem get_deleteWhere_key :
    (t.deleteWhere fun v ↦ key v = k).get j = (t.delete k).get j := by
  rw [get_deleteWhere, get_delete]
  cases hv : t.get j with
  | none => simp
  | some v =>
    rw [Option.filter_some, t.keyed j v hv]
    by_cases hjk : j = k <;> simp [hjk]

theorem key_of_get (h : t.get k = some v) : key v = k := t.keyed k v h

theorem mem_rows : v ∈ t.rows ↔ t.get (key v) = some v := by
  rw [rows, GoMap.mem_values]
  constructor
  · rintro ⟨k, hk⟩
    rwa [t.keyed k v hk]
  · exact fun h ↦ ⟨_, h⟩

theorem mem_rows_of_get (h : t.get k = some v) : v ∈ t.rows := by
  rw [mem_rows, key_of_get h, h]

/-- Collections with the same rows answer alike. -/
theorem get_congr {t t' : Keyed key} (h : ∀ v, v ∈ t.rows ↔ v ∈ t'.rows) (k : κ) :
    t.get k = t'.get k := by
  refine Option.ext fun v ↦ ⟨fun hv ↦ ?_, fun hv ↦ ?_⟩
  · rw [← key_of_get hv, ← mem_rows, ← h]
    exact mem_rows_of_get hv
  · rw [← key_of_get hv, ← mem_rows, h]
    exact mem_rows_of_get hv

theorem mem_rows_put : w ∈ (t.put v).rows ↔ w = v ∨ w ∈ t.rows ∧ key w ≠ key v := by
  rw [mem_rows, get_put, mem_rows]
  by_cases hkey : key w = key v
  · simp [hkey, eq_comm]
  · have hne : w ≠ v := fun heq ↦ hkey (congrArg key heq)
    simp [hkey, hne]

theorem mem_rows_deleteWhere {p : ν → Bool} :
    v ∈ (t.deleteWhere p).rows ↔ v ∈ t.rows ∧ p v = false := by
  rw [mem_rows, get_deleteWhere, mem_rows, Option.filter_eq_some_iff, Bool.not_eq_true']

theorem mem_rows_delete : v ∈ (t.delete k).rows ↔ v ∈ t.rows ∧ key v ≠ k := by
  rw [mem_rows, get_delete, mem_rows]
  by_cases hkey : key v = k <;> simp [hkey]

/-- A row that is put comes first. -/
theorem rows_put : (t.put v).rows = v :: t.rows.filter (key · ≠ key v) := by
  show v :: (t.map.alist.entries.kerase (key v)).map Sigma.snd =
    v :: (t.map.alist.entries.map Sigma.snd).filter (key · ≠ key v)
  rw [GoMap.kerase_eq_filter t.map.alist.nodupKeys, List.filter_map]
  refine congrArg (v :: List.map _ ·) (List.filter_congr fun e he ↦ ?_)
  rw [Function.comp_apply, t.keyed e.1 e.2 (AList.mem_lookup_iff.mpr he)]

theorem get_eq_find? : t.get k = t.rows.find? (key · = k) := by
  cases hget : t.get k with
  | none =>
    refine (List.find?_eq_none.mpr fun w hw ↦ ?_).symm
    rintro hk
    rw [mem_rows, of_decide_eq_true hk, hget] at hw
    cases hw
  | some w =>
    have hsome : (t.rows.find? (key · = k)).isSome :=
      List.find?_isSome.mpr ⟨w, mem_rows_of_get hget, decide_eq_true (key_of_get hget)⟩
    obtain ⟨v, hv⟩ := Option.isSome_iff_exists.mp hsome
    have hkey : key v = k := by simpa using List.find?_some hv
    have hrow := mem_rows.mp (List.mem_of_find?_eq_some hv)
    rw [hv, ← hget, ← hkey, hrow]

theorem rows_deleteWhere {p : ν → Bool} :
    (t.deleteWhere p).rows = t.rows.filter fun v ↦ !p v := by
  show ((t.map.deleteAll _).alist.entries.map Sigma.snd) =
    (t.map.alist.entries.map Sigma.snd).filter _
  rw [GoMap.entries_deleteAll, List.filter_map]
  refine congrArg (List.map _ ·) (List.filter_congr fun e he ↦ ?_)
  have hget : t.map.get e.1 = some e.2 := AList.mem_lookup_iff.mpr he
  have hkey : e.1 ∈ t.map.keys := GoMap.mem_keys.mpr ⟨e.2, hget⟩
  simp [hget, hkey]

/-- The keys of the rows are those of the map. -/
theorem rows_map_key (t : Keyed key) : t.rows.map key = t.map.keys := by
  rw [rows, GoMap.values, GoMap.keys, AList.keys, List.keys, List.map_map]
  refine List.map_congr_left fun e he ↦ ?_
  exact t.keyed e.1 e.2 (AList.mem_lookup_iff.mpr he)

/-- **Rows have different keys.** -/
theorem nodup_keys (t : Keyed key) : (t.rows.map key).Nodup := by
  rw [rows_map_key]
  exact t.map.alist.nodupKeys

theorem nodup_rows (t : Keyed key) : t.rows.Nodup := t.nodup_keys.of_map key

/-- Of more rows than one, one has another key. -/
theorem exists_key_ne_of_one_lt_countP {p : ν → Bool} (h : 1 < t.rows.countP p) (k : κ) :
    ∃ v ∈ t.rows, p v ∧ key v ≠ k := by
  by_contra! hall
  have hnodup : ((t.rows.filter p).map key).Nodup :=
    t.nodup_keys.sublist (List.filter_sublist.map key)
  have hkeys : (t.rows.filter p).map key = List.replicate (t.rows.countP p) k := by
    refine List.eq_replicate_iff.mpr ⟨by rw [List.length_map, List.countP_eq_length_filter], ?_⟩
    intro j hj
    obtain ⟨v, hv, rfl⟩ := List.mem_map.mp hj
    obtain ⟨hrows, hp⟩ := List.mem_filter.mp hv
    exact hall v hrows hp
  rw [hkeys, List.nodup_replicate] at hnodup
  omega

theorem length_rows_eq_zero_iff (t : Keyed key) : t.rows.length = 0 ↔ ∀ k, t.get k = none := by
  rw [List.length_eq_zero_iff, List.eq_nil_iff_forall_not_mem]
  constructor
  · intro h k
    cases hk : t.get k with
    | none => rfl
    | some v => exact absurd (mem_rows_of_get hk) (h v)
  · intro h v hv
    rw [mem_rows, h] at hv
    cases hv

/-- The row under a key, and the rows under the others. -/
theorem rows_perm_of_get (h : t.get k = some v) :
    t.rows.Perm (v :: t.rows.filter (key · ≠ k)) := by
  have hnodup : (v :: t.rows.filter (key · ≠ k)).Nodup :=
    List.nodup_cons.mpr ⟨by simp [key_of_get h], t.nodup_rows.filter _⟩
  refine (List.perm_ext_iff_of_nodup t.nodup_rows hnodup).mpr fun w ↦ ?_
  rw [List.mem_cons, List.mem_filter, decide_eq_true_iff]
  refine ⟨fun hw ↦ ?_, ?_⟩
  · by_cases hk : key w = k
    · rw [mem_rows, hk, h] at hw
      exact .inl (Option.some.inj hw).symm
    · exact .inr ⟨hw, hk⟩
  · rintro (rfl | hw)
    · exact mem_rows_of_get h
    · exact hw.1

theorem filter_rows_of_get (h : t.get k = none) : t.rows.filter (key · ≠ k) = t.rows := by
  refine List.filter_eq_self.mpr fun w hw ↦ decide_eq_true fun hk ↦ ?_
  rw [mem_rows, hk, h] at hw
  cases hw

theorem filter_rows_put :
    ((t.put v).rows.filter (key · ≠ key v)).Perm (t.rows.filter (key · ≠ key v)) := by
  refine (List.perm_ext_iff_of_nodup ((t.put v).nodup_rows.filter _)
    (t.nodup_rows.filter _)).mpr fun w ↦ ?_
  rw [List.mem_filter, List.mem_filter, mem_rows_put, decide_eq_true_iff]
  refine ⟨fun hw ↦ ⟨(hw.1.resolve_left fun heq ↦ hw.2 (congrArg key heq)).1, hw.2⟩, fun hw ↦
    ⟨.inr hw, hw.2⟩⟩

/-- **How many rows there are of a kind**, after one is put in place of what has its key. -/
theorem length_filter_put (p : ν → Bool) (v : ν) :
    ((t.put v).rows.filter p).length + ((t.get (key v)).toList.filter p).length =
      (t.rows.filter p).length + ([v].filter p).length := by
  have hput : (t.put v).get (key v) = some v := by rw [get_put, if_pos rfl]
  have hnew := ((rows_perm_of_get hput).filter p).length_eq
  have hrest := ((filter_rows_put (t := t) (v := v)).filter p).length_eq
  rw [← List.singleton_append, List.filter_append, List.length_append, hrest] at hnew
  rcases hget : t.get (key v) with _ | u
  · rw [filter_rows_of_get hget] at hnew
    rw [hnew, Option.toList_none, List.filter_nil, List.length_nil]
    omega
  · have hold := ((rows_perm_of_get hget).filter p).length_eq
    rw [← List.singleton_append, List.filter_append, List.length_append] at hold
    rw [Option.toList_some]
    omega

/-- Collections that answer alike have the same rows. -/
theorem rows_perm {t' : Keyed key'} {f : ν → μ} (hf : ∀ v, key' (f v) = key v)
    (h : ∀ k, t'.get k = (t.get k).map f) : t'.rows.Perm (t.rows.map f) := by
  have hnodup : (t.rows.map f).Nodup := by
    refine List.Nodup.of_map key' ?_
    rw [List.map_map, show key' ∘ f = key from funext hf]
    exact t.nodup_keys
  refine (List.perm_ext_iff_of_nodup t'.nodup_rows hnodup).mpr fun w ↦ ?_
  rw [mem_rows, h, Option.map_eq_some_iff, List.mem_map]
  constructor
  · rintro ⟨v, hv, rfl⟩
    exact ⟨v, mem_rows.mpr (by rwa [hf] at hv), rfl⟩
  · rintro ⟨v, hv, rfl⟩
    exact ⟨v, by rw [hf]; exact mem_rows.mp hv, rfl⟩

/-- Sorting rows by a key gives the first `n` of them whatever order they came in, if rows with one
key come no earlier than that. -/
theorem take_eq_of_sorted {ρ β : Type} [LinearOrder β] {f : ρ → β} {n : ℕ} {l l' : List ρ}
    (h : l.Perm l') (hl : l.Pairwise fun a b ↦ f a ≤ f b) (hl' : l'.Pairwise fun a b ↦ f a ≤ f b)
    (hn : ∀ a ∈ l, ∀ b ∈ l, a ≠ b → f a = f b → n ≤ l.countP fun c ↦ f c < f a) :
    l.take n = l'.take n := by
  induction n generalizing l l' with
  | zero => rfl
  | succ n ih =>
    cases l with
    | nil => rw [h.nil_eq]
    | cons a l =>
      cases l' with
      | nil => cases h.eq_nil
      | cons b l' =>
        have hab : a = b := by
          by_contra hne
          have ha : a ∈ b :: l' := h.mem_iff.mp List.mem_cons_self
          have hb : b ∈ a :: l := h.mem_iff.mpr List.mem_cons_self
          have hle := List.rel_of_pairwise_cons hl ((List.mem_cons.mp hb).resolve_left (Ne.symm hne))
          have hge := List.rel_of_pairwise_cons hl' ((List.mem_cons.mp ha).resolve_left hne)
          have hfew := hn a List.mem_cons_self b hb hne (le_antisymm hle hge)
          have hnone : (a :: l).countP (fun c ↦ f c < f a) = 0 := by
            refine List.countP_eq_zero.mpr fun c hc ↦ ?_
            rcases List.mem_cons.mp hc with rfl | hc
            · simp
            · simpa using List.rel_of_pairwise_cons hl hc
          omega
        subst hab
        rw [List.take_succ_cons, List.take_succ_cons,
          ih h.cons_inv hl.of_cons hl'.of_cons fun c hc d hd hne heq ↦ ?_]
        have hfew := hn c (List.mem_cons_of_mem _ hc) d (List.mem_cons_of_mem _ hd) hne heq
        rw [List.countP_cons] at hfew
        split at hfew <;> omega

/-- So rows of another kind, sorted by a key of their own, become the same list. -/
theorem take_sorts {ρ σ β β' : Type} [LinearOrder β] [LinearOrder β'] {f : ρ → β} {h : σ → β'}
    {g : σ → ρ} {r : ρ → ρ → Prop} {r' : σ → σ → Prop} [DecidableRel r] [DecidableRel r'] {n : ℕ}
    {l : List ρ} {l' : List σ} (hp : (l'.map g).Perm l) (hr : ∀ a b, r a b ↔ f a ≤ f b)
    (hr' : ∀ a b, r' a b ↔ h a ≤ h b)
    (hf : ∀ a ∈ l', ∀ b ∈ l', h a ≤ h b → f (g a) ≤ f (g b))
    (hn : ∀ a ∈ l, ∀ b ∈ l, a ≠ b → f a = f b → n ≤ l.countP fun c ↦ f c < f a) :
    ((l'.insertionSort r').map g).take n = (l.insertionSort r).take n := by
  have htotal : Std.Total r := ⟨fun a b ↦ by rw [hr, hr]; exact le_total _ _⟩
  have htrans : IsTrans ρ r := ⟨fun a b c ↦ by rw [hr, hr, hr]; exact le_trans⟩
  have htotal' : Std.Total r' := ⟨fun a b ↦ by rw [hr', hr']; exact le_total _ _⟩
  have htrans' : IsTrans σ r' := ⟨fun a b c ↦ by rw [hr', hr', hr']; exact le_trans⟩
  have hperm' := List.perm_insertionSort r' l'
  have hl : ((l'.insertionSort r').map g).Perm l := (hperm'.map g).trans hp
  refine take_eq_of_sorted (f := f) (hl.trans (List.perm_insertionSort r l).symm) ?_ ?_ ?_
  · refine List.pairwise_map.mpr ((List.pairwise_insertionSort r' l').imp_of_mem ?_)
    intro a b ha hb hab
    exact hf a (hperm'.mem_iff.mp ha) b (hperm'.mem_iff.mp hb) ((hr' a b).mp hab)
  · exact (List.pairwise_insertionSort r l).imp fun hab ↦ (hr _ _).mp hab
  · intro a ha b hb hne heq
    rw [hl.countP_eq]
    exact hn a (hl.mem_iff.mp ha) b (hl.mem_iff.mp hb) hne heq

end Keyed
