import Mathlib.Data.List.Sort
import Mathlib.Tactic.Common

/-!
# Keyset paging

A list too long for one answer is read page by page, in descending order of a key.  A page ends with
the key of its last row, and the next request asks for the rows below that key.  Unlike an offset
this stays a position in the list whatever is inserted above it.

Between two requests the rows may change, so a `walk` is over a sequence of tables.

* `lt_of_walk`: the keys go down through the whole walk, whatever the tables do meanwhile.
* `existsUnique_of_walk`: a key that is there throughout is returned once.
* `readUpTo_of_walk`: of a table that does not change, a walk that has come to its end has returned
  all the rows in order; and it does come to its end, `walk_ends`.
-/

set_option autoImplicit false

namespace Paging

variable {ρ κ : Type} [LinearOrder κ]

/-- The rows in descending order of their keys. -/
def inOrder (key : ρ → κ) (rows : List ρ) : List ρ := rows.insertionSort fun a b ↦ key b ≤ key a

/-- Some rows, and the key to go on from if there are more. -/
structure Page (ρ κ : Type) where
  rows : List ρ
  next : Option κ
  deriving DecidableEq, Repr

/-- The rows that come after a key, or all of them. -/
def after (key : ρ → κ) (from' : Option κ) (rows : List ρ) : List ρ :=
  rows.filter fun r ↦ from'.all fun k ↦ key r < k

/-- The next `limit` rows after a key. -/
def page (key : ρ → κ) (limit : ℕ) (from' : Option κ) (rows : List ρ) : Page ρ κ :=
  let rest := after key from' (inOrder key rows)
  ⟨rest.take limit, if limit < rest.length then rest[limit - 1]?.map key else none⟩

/-- The `n`-th page, if the walk gets that far: the rows are `T n` when it is read. -/
def walk (key : ρ → κ) (limit : ℕ) (T : ℕ → List ρ) : ℕ → Option (Page ρ κ)
  | 0 => some (page key limit none (T 0))
  | n + 1 => do
    let k ← (← walk key limit T n).next
    return page key limit (some k) (T (n + 1))

/-- The rows of the `n`-th page. -/
def returned (key : ρ → κ) (limit : ℕ) (T : ℕ → List ρ) (n : ℕ) : List ρ :=
  ((walk key limit T n).map Page.rows).getD []

/-- The rows of the pages up to the `n`-th. -/
def readUpTo (key : ρ → κ) (limit : ℕ) (T : ℕ → List ρ) (n : ℕ) : List ρ :=
  (List.range (n + 1)).flatMap (returned key limit T)

variable {key : ρ → κ} {limit : ℕ} {from' : Option κ} {rows : List ρ} {r : ρ} {k : κ}

theorem walk_succ {T : ℕ → List ρ} {n : ℕ} {p : Page ρ κ} :
    walk key limit T (n + 1) = some p ↔ ∃ q k, walk key limit T n = some q ∧
      q.next = some k ∧ p = page key limit (some k) (T (n + 1)) := by
  rw [walk]
  cases hq : walk key limit T n with
  | none => simp
  | some q => cases hk : q.next <;> simp [hk, eq_comm]

/-! ## The order -/

theorem perm_inOrder (key : ρ → κ) (rows : List ρ) : (inOrder key rows).Perm rows :=
  List.perm_insertionSort ..

@[simp] theorem mem_inOrder : r ∈ inOrder key rows ↔ r ∈ rows := (perm_inOrder key rows).mem_iff

@[simp] theorem length_inOrder : (inOrder key rows).length = rows.length :=
  (perm_inOrder key rows).length_eq

/-- The keys of rows that have different keys go down. -/
theorem inOrder_descending (h : (rows.map key).Nodup) :
    (inOrder key rows).Pairwise fun a b ↦ key b < key a := by
  have hle : (inOrder key rows).Pairwise fun a b ↦ key b ≤ key a :=
    @List.pairwise_insertionSort ρ (fun a b ↦ key b ≤ key a) _ ⟨fun a b ↦ le_total (key b) (key a)⟩
      ⟨fun a b c hab hbc ↦ hbc.trans hab⟩ rows
  have hne : (inOrder key rows).Pairwise fun a b ↦ key a ≠ key b :=
    List.pairwise_map.mp (((perm_inOrder key rows).map key).nodup_iff.mpr h)
  exact hle.imp₂ (fun a b hab hba ↦ lt_of_le_of_ne hab hba.symm) hne

/-- Rows with different keys have one order. -/
theorem eq_of_perm_of_descending {l l' : List ρ} (h : l.Perm l')
    (hl : l.Pairwise fun a b ↦ key b < key a) (hl' : l'.Pairwise fun a b ↦ key b < key a) :
    l = l' :=
  h.eq_of_pairwise (fun _ _ _ _ hab hba ↦ absurd hab hba.not_gt) hl hl'

/-- The order does not depend on how the rows come. -/
theorem inOrder_eq_of_perm {rows' : List ρ} (h : (rows.map key).Nodup) (hp : rows.Perm rows') :
    inOrder key rows = inOrder key rows' := by
  have h' : (rows'.map key).Nodup := (hp.map key).nodup_iff.mp h
  exact eq_of_perm_of_descending
    ((perm_inOrder key rows).trans (hp.trans (perm_inOrder key rows').symm))
    (inOrder_descending h) (inOrder_descending h')

theorem inOrder_filter (h : (rows.map key).Nodup) (p : ρ → Bool) :
    inOrder key (rows.filter p) = (inOrder key rows).filter p := by
  have h' : ((rows.filter p).map key).Nodup := h.sublist (List.filter_sublist.map key)
  exact eq_of_perm_of_descending
    ((perm_inOrder key _).trans ((perm_inOrder key rows).symm.filter p))
    (inOrder_descending h') ((inOrder_descending h).filter _)

/-- Keys of another kind order the rows in the same way if they compare as the others do. -/
theorem inOrder_map {σ κ' : Type} [LinearOrder κ'] {key' : σ → κ'} {f : ρ → σ}
    (hf : ∀ a ∈ rows, ∀ b ∈ rows, key b ≤ key a ↔ key' (f b) ≤ key' (f a)) :
    inOrder key' (rows.map f) = (inOrder key rows).map f :=
  (List.map_insertionSort _ _ f rows hf).symm

@[simp] theorem mem_after : r ∈ after key from' rows ↔ r ∈ rows ∧ ∀ k ∈ from', key r < k := by
  cases from' <;> simp [after]

/-- After a key and then after a lower one is after the lower one. -/
theorem after_after (h : ∀ k' ∈ from', k < k') :
    after key (some k) (after key from' rows) = after key (some k) rows := by
  rw [after, after, List.filter_filter, after]
  refine List.filter_congr fun r _ ↦ ?_
  cases from' with
  | none => simp
  | some k' =>
    have hk : k < k' := h k' rfl
    simp only [Option.all_some, Bool.and_eq_decide, decide_eq_true_eq]
    simp only [decide_eq_decide, and_iff_left_iff_imp]
    exact fun hr ↦ hr.trans hk

/-- Of rows in order, those after the key of one are those behind it. -/
theorem after_getElem {l : List ρ} (h : l.Pairwise fun a b ↦ key b < key a) {n : ℕ}
    (hn : n < l.length) : after key (some (key l[n])) l = l.drop (n + 1) := by
  induction l generalizing n with
  | nil => simp at hn
  | cons a l ih =>
    rw [List.pairwise_cons] at h
    cases n with
    | zero =>
      have hself : after key (some (key a)) (a :: l) = after key (some (key a)) l := by
        rw [after, List.filter_cons_of_neg (by simp), after]
      rw [List.getElem_cons_zero, hself, after, List.filter_eq_self.mpr (by simpa using h.1)]
      rfl
    | succ n =>
      have hn' : n < l.length := by simpa using hn
      have hlt : key l[n] < key a := h.1 _ (List.getElem_mem hn')
      rw [List.getElem_cons_succ, List.drop_succ_cons, ← ih h.2 hn', after,
        List.filter_cons_of_neg (by simp [hlt.le]), after]

/-! ## One page -/

/-- **A page and what comes after it are all that was asked for.** -/
theorem page_append_after (h : (rows.map key).Nodup) (hl : 0 < limit) :
    (page key limit from' rows).rows ++
      ((page key limit from' rows).next.map fun k ↦ after key (some k) (inOrder key rows)).getD [] =
        after key from' (inOrder key rows) := by
  have hrest : (after key from' (inOrder key rows)).Pairwise fun a b ↦ key b < key a :=
    (inOrder_descending h).filter _
  simp only [page]
  split
  · rename_i hlt
    have hn : limit - 1 < (after key from' (inOrder key rows)).length := by omega
    have hlast := List.getElem_mem hn
    rw [mem_after] at hlast
    rw [List.getElem?_eq_getElem hn, Option.map_some, Option.map_some, Option.getD_some,
      ← after_after hlast.2, after_getElem hrest hn, Nat.sub_add_cancel hl, List.take_append_drop]
  · rename_i hle
    rw [Option.map_none, Option.getD_none, List.append_nil, List.take_of_length_le (by omega)]

theorem rows_sublist : (page key limit from' rows).rows.Sublist (inOrder key rows) :=
  (List.take_sublist ..).trans List.filter_sublist

theorem mem_of_mem_page (hr : r ∈ (page key limit from' rows).rows) :
    r ∈ rows ∧ ∀ k ∈ from', key r < k := by
  have hrest := List.mem_of_mem_take hr
  simpa using hrest

/-- A row that was asked for is on the page or after it. -/
theorem mem_page (h : (rows.map key).Nodup) (hl : 0 < limit) (hr : r ∈ rows)
    (hfrom : ∀ k ∈ from', key r < k) (hnext : ∀ k ∈ (page key limit from' rows).next, k ≤ key r) :
    r ∈ (page key limit from' rows).rows := by
  have hrest : r ∈ after key from' (inOrder key rows) := by simpa using ⟨hr, hfrom⟩
  rw [← page_append_after h hl, List.mem_append] at hrest
  rcases hrest with hrest | hrest
  · exact hrest
  · cases hk : (page key limit from' rows).next with
    | none => simp [hk] at hrest
    | some k =>
      rw [hk, Option.map_some, Option.getD_some, mem_after] at hrest
      exact absurd (hrest.2 k rfl) (hnext k hk).not_gt

/-- The next page begins behind the rows of this one, which are behind the key it began with. -/
theorem page_next_spec (h : (rows.map key).Nodup) (hl : 0 < limit)
    (hk : k ∈ (page key limit from' rows).next) :
    (∀ k' ∈ from', k < k') ∧ ∀ r ∈ (page key limit from' rows).rows, k ≤ key r := by
  have hrest : (after key from' (inOrder key rows)).Pairwise fun a b ↦ key b < key a :=
    (inOrder_descending h).filter _
  simp only [page, Option.mem_def] at hk
  split at hk
  · rename_i hlt
    have hn : limit - 1 < (after key from' (inOrder key rows)).length := by omega
    rw [List.getElem?_eq_getElem hn, Option.map_some, Option.some.injEq] at hk
    subst hk
    refine ⟨(mem_after.mp (List.getElem_mem hn)).2, fun r hr ↦ ?_⟩
    obtain ⟨i, hi, rfl⟩ := List.mem_take_iff_getElem.mp hr
    rcases Nat.lt_or_eq_of_le (show i ≤ limit - 1 by omega) with hlt' | heq
    · exact (List.pairwise_iff_getElem.mp hrest i (limit - 1) _ hn hlt').le
    · subst heq
      rfl
  · cases hk

/-- The next page begins behind a row that is there. -/
theorem exists_of_next (hk : (page key limit from' rows).next = some k) :
    ∃ r ∈ rows, key r = k := by
  simp only [page] at hk
  split at hk
  · obtain ⟨r, hr, rfl⟩ := Option.map_eq_some_iff.mp hk
    exact ⟨r, by simpa using (mem_after.mp (List.mem_of_getElem? hr)).1, rfl⟩
  · cases hk

/-- One filter keeps what another does and more, which comes before the rest: if their pages have
the same rows, nothing more is to come. -/
theorem of_page_filter_rows_eq {p q : ρ → Bool} (h : (rows.map key).Nodup) (hl : 0 < limit)
    (hmore : ∀ r ∈ rows, ∀ r' ∈ rows, q r → p r = false → q r' → key r < key r' → p r' = false)
    (hpage : (page key limit from' (rows.filter p)).rows =
      (page key limit from' (rows.filter q)).rows)
    (hr : r ∈ rows) (hqr : q r) (hfrom : ∀ k ∈ from', key r < k) : p r := by
  by_contra hpr
  have hq : ((rows.filter q).map key).Nodup := h.sublist (List.filter_sublist.map key)
  have hrest : r ∈ after key from' (inOrder key (rows.filter q)) :=
    mem_after.mpr ⟨by simp [hr, hqr], hfrom⟩
  have hdesc : (after key from' (inOrder key (rows.filter q))).Pairwise fun a b ↦ key b < key a :=
    (inOrder_descending hq).filter _
  -- the first row of the page is one more
  obtain ⟨a, l, hal⟩ := List.exists_cons_of_ne_nil (List.ne_nil_of_mem hrest)
  have ha : a ∈ (page key limit from' (rows.filter q)).rows := by
    obtain ⟨n, rfl⟩ := Nat.exists_eq_succ_of_ne_zero hl.ne'
    simp [page, hal]
  have haq := (mem_of_mem_page ha).1
  rw [← hpage] at ha
  have hap := (mem_of_mem_page ha).1
  rw [List.mem_filter] at haq hap
  rw [hal] at hrest hdesc
  rcases List.mem_cons.mp hrest with rfl | hrl
  · exact hpr hap.2
  · have hmore := hmore r hr a haq.1 hqr (eq_false_of_ne_true hpr) haq.2
      ((List.pairwise_cons.mp hdesc).1 r hrl)
    simp [hap.2] at hmore

/-- Filters that differ only on what does not come after the key make one page. -/
theorem page_filter_congr {p q : ρ → Bool} (h : (rows.map key).Nodup)
    (hpq : ∀ r ∈ rows, (∀ k ∈ from', key r < k) → p r = q r) :
    page key limit from' (rows.filter p) = page key limit from' (rows.filter q) := by
  have hafter : after key from' (inOrder key (rows.filter p)) =
      after key from' (inOrder key (rows.filter q)) := by
    rw [inOrder_filter h, inOrder_filter h, after, after, List.filter_filter, List.filter_filter]
    refine List.filter_congr fun r hr ↦ ?_
    rw [mem_inOrder] at hr
    cases hk : from'.all fun k ↦ decide (key r < k) with
    | false => rw [Bool.false_and, Bool.false_and]
    | true => rw [hpq r hr fun k hmem ↦ by simpa [Option.mem_def.mp hmem] using hk]
  rw [page, page, hafter]

theorem page_descending (h : (rows.map key).Nodup) :
    (page key limit from' rows).rows.Pairwise fun a b ↦ key b < key a :=
  ((inOrder_descending h).filter _).sublist (List.take_sublist ..)

/-! ## A walk -/

variable {T : ℕ → List ρ} {m n : ℕ} {p : Page ρ κ} {r' : ρ}

/-- Every page of a walk is a page of the rows that are there when it is read. -/
theorem page_of_walk (h : walk key limit T n = some p) :
    ∃ from', p = page key limit from' (T n) := by
  cases n with
  | zero => exact ⟨none, (Option.some.inj h).symm⟩
  | succ n =>
    obtain ⟨q, k, -, -, rfl⟩ := walk_succ.mp h
    exact ⟨some k, rfl⟩

theorem returned_eq (h : walk key limit T n = some p) : returned key limit T n = p.rows := by
  rw [returned, h]
  rfl

/-- What is returned is there when it is. -/
theorem mem_of_returned (hr : r ∈ returned key limit T n) : r ∈ T n := by
  cases h : walk key limit T n with
  | none => simp [returned, h] at hr
  | some p =>
    rw [returned_eq h] at hr
    obtain ⟨from', rfl⟩ := page_of_walk h
    exact (mem_of_mem_page hr).1

/-- **What the walk goes on from is below all it has returned.** -/
theorem next_le_of_walk (hT : ∀ n, ((T n).map key).Nodup) (hl : 0 < limit)
    (h : walk key limit T n = some p) (hk : p.next = some k) (hm : m ≤ n)
    (hr : r ∈ returned key limit T m) : k ≤ key r := by
  induction n generalizing p k with
  | zero =>
    obtain rfl : m = 0 := by omega
    rw [returned_eq h] at hr
    obtain rfl := Option.some.inj h
    exact (page_next_spec (hT 0) hl hk).2 r hr
  | succ n ih =>
    have hreturned := returned_eq h
    obtain ⟨q, k', hq, hk', rfl⟩ := walk_succ.mp h
    obtain ⟨hlt, hle⟩ := page_next_spec (hT (n + 1)) hl hk
    rcases Nat.lt_or_eq_of_le hm with hm | rfl
    · exact (hlt k' rfl).le.trans (ih hq hk' (by omega))
    · exact hle r (hreturned ▸ hr)

/-- **The keys go down from page to page**, whatever the tables do meanwhile. -/
theorem lt_of_walk (hT : ∀ n, ((T n).map key).Nodup) (hl : 0 < limit) (hmn : m < n)
    (hr : r ∈ returned key limit T m) (hr' : r' ∈ returned key limit T n) : key r' < key r := by
  obtain ⟨n, rfl⟩ : ∃ n', n = n' + 1 := ⟨n - 1, by omega⟩
  cases h : walk key limit T (n + 1) with
  | none => simp [returned, h] at hr'
  | some p =>
    rw [returned_eq h] at hr'
    obtain ⟨q, k, hq, hk, rfl⟩ := walk_succ.mp h
    exact ((mem_of_mem_page hr').2 k rfl).trans_le (next_le_of_walk hT hl hq hk (by omega) hr)

theorem returned_descending (hT : ∀ n, ((T n).map key).Nodup) (n : ℕ) :
    (returned key limit T n).Pairwise fun a b ↦ key b < key a := by
  cases h : walk key limit T n with
  | none => simp [returned, h]
  | some p =>
    rw [returned_eq h]
    obtain ⟨from', rfl⟩ := page_of_walk h
    exact page_descending (hT n)

/-- A walk that has got as far as a page has got as far as those before it. -/
theorem walk_of_le (h : walk key limit T n = some p) (hm : m ≤ n) :
    ∃ q, walk key limit T m = some q := by
  induction n generalizing p with
  | zero =>
    obtain rfl : m = 0 := by omega
    exact ⟨p, h⟩
  | succ n ih =>
    rcases Nat.lt_or_eq_of_le hm with hm | rfl
    · obtain ⟨q, -, hq, -⟩ := walk_succ.mp h
      exact ih hq (by omega)
    · exact ⟨p, h⟩

/-- A key that has been there at each request so far has been returned unless it is still below
what the walk goes on from. -/
theorem exists_returned_of_walk (hT : ∀ n, ((T n).map key).Nodup) (hl : 0 < limit)
    (h : walk key limit T n = some p) (hthere : ∀ m ≤ n, ∃ r ∈ T m, key r = k)
    (hnext : ∀ k' ∈ p.next, k' ≤ k) : ∃ m ≤ n, ∃ r ∈ returned key limit T m, key r = k := by
  induction n generalizing p with
  | zero =>
    obtain ⟨r, hr, rfl⟩ := hthere 0 le_rfl
    obtain rfl := Option.some.inj h
    exact ⟨0, le_rfl, r, mem_page (hT 0) hl hr (by simp) hnext, rfl⟩
  | succ n ih =>
    obtain ⟨q, k', hq, hk', rfl⟩ := walk_succ.mp h
    rcases lt_or_ge k k' with hlt | hge
    · obtain ⟨r, hr, rfl⟩ := hthere (n + 1) le_rfl
      refine ⟨n + 1, le_rfl, r, ?_, rfl⟩
      rw [returned_eq h]
      exact mem_page (hT (n + 1)) hl hr (by simpa using hlt) hnext
    · have hq' : ∀ k'' ∈ q.next, k'' ≤ k := by
        intro k'' hk''
        rw [hk', Option.mem_def, Option.some.injEq] at hk''
        exact hk'' ▸ hge
      obtain ⟨m, hm, hr⟩ := ih hq (fun m hm ↦ hthere m (by omega)) hq'
      exact ⟨m, by omega, hr⟩

/-- **A key that is there throughout a walk to the end is returned once.** -/
theorem existsUnique_of_walk (hT : ∀ n, ((T n).map key).Nodup) (hl : 0 < limit)
    (h : walk key limit T n = some p) (hend : p.next = none)
    (hthere : ∀ m ≤ n, ∃ r ∈ T m, key r = k) :
    ∃! m, m ≤ n ∧ ∃ r ∈ returned key limit T m, key r = k := by
  obtain ⟨m, hm, r, hr, hk⟩ := exists_returned_of_walk hT hl h hthere (by simp [hend])
  refine ⟨m, ⟨hm, r, hr, hk⟩, ?_⟩
  rintro m' ⟨-, r', hr', hk'⟩
  rcases lt_trichotomy m' m with hlt | heq | hgt
  · exact absurd (hk.trans hk'.symm) (lt_of_walk hT hl hlt hr' hr).ne
  · exact heq
  · exact absurd (hk'.trans hk.symm) (lt_of_walk hT hl hgt hr hr').ne

/-! ## A walk over rows that stay as they are -/

theorem readUpTo_succ (n : ℕ) :
    readUpTo key limit T (n + 1) = readUpTo key limit T n ++ returned key limit T (n + 1) := by
  rw [readUpTo, List.range_succ, List.flatMap_append, List.flatMap_singleton, ← readUpTo]

/-- What has been read, and what comes after it, are all the rows in order. -/
theorem readUpTo_append_after (h : (rows.map key).Nodup) (hl : 0 < limit)
    (hw : walk key limit (fun _ ↦ rows) n = some p) :
    readUpTo key limit (fun _ ↦ rows) n ++
      (p.next.map fun k ↦ after key (some k) (inOrder key rows)).getD [] = inOrder key rows := by
  induction n generalizing p with
  | zero =>
    have hall : after key none (inOrder key rows) = inOrder key rows := by simp [after]
    have hzero : readUpTo key limit (fun _ ↦ rows) 0 = p.rows := by
      rw [readUpTo, List.range_one, List.flatMap_singleton, returned_eq hw]
    obtain rfl := Option.some.inj hw
    rw [hzero, page_append_after h hl, hall]
  | succ n ih =>
    rw [readUpTo_succ, returned_eq hw]
    obtain ⟨q, k, hq, hk, rfl⟩ := walk_succ.mp hw
    have hbefore := ih hq
    rw [hk, Option.map_some, Option.getD_some] at hbefore
    rw [List.append_assoc, page_append_after h hl, hbefore]

/-- **A walk that has come to its end has returned all the rows, in order.** -/
theorem readUpTo_of_walk (h : (rows.map key).Nodup) (hl : 0 < limit)
    (hw : walk key limit (fun _ ↦ rows) n = some p) (hend : p.next = none) :
    readUpTo key limit (fun _ ↦ rows) n = inOrder key rows := by
  rw [← readUpTo_append_after h hl hw, hend, Option.map_none, Option.getD_none, List.append_nil]

/-- A page that is not the last has as many rows as were asked for. -/
theorem length_rows_of_next (hk : (page key limit from' rows).next = some k) :
    (page key limit from' rows).rows.length = limit := by
  simp only [page] at hk ⊢
  split at hk
  · rw [List.length_take]
    omega
  · cases hk

/-- **A walk over rows that stay as they are comes to its end.** -/
theorem walk_ends (h : (rows.map key).Nodup) (hl : 0 < limit) :
    ∃ n p, walk key limit (fun _ ↦ rows) n = some p ∧ p.next = none := by
  by_contra hnever
  push Not at hnever
  -- a walk without end has returned more than `n` rows with its `n`-th page
  have hlong (n : ℕ) : (∃ p, walk key limit (fun _ ↦ rows) n = some p) ∧
      n < (readUpTo key limit (fun _ ↦ rows) n).length := by
    induction n with
    | zero =>
      refine ⟨⟨_, rfl⟩, ?_⟩
      obtain ⟨k, hk⟩ := Option.ne_none_iff_exists'.mp (hnever 0 _ rfl)
      rw [readUpTo, List.range_one, List.flatMap_singleton, returned_eq rfl,
        length_rows_of_next hk]
      exact hl
    | succ n ih =>
      obtain ⟨⟨p, hp⟩, hlen⟩ := ih
      obtain ⟨k, hk⟩ := Option.ne_none_iff_exists'.mp (hnever n p hp)
      have hw : walk key limit (fun _ ↦ rows) (n + 1) = some (page key limit (some k) rows) :=
        walk_succ.mpr ⟨p, k, hp, hk, rfl⟩
      refine ⟨⟨_, hw⟩, ?_⟩
      obtain ⟨k', hk'⟩ := Option.ne_none_iff_exists'.mp (hnever (n + 1) _ hw)
      rw [readUpTo_succ, List.length_append, returned_eq hw, length_rows_of_next hk']
      omega
  obtain ⟨⟨p, hp⟩, hlen⟩ := hlong rows.length
  have hall := congrArg List.length (readUpTo_append_after h hl hp)
  rw [List.length_append, length_inOrder] at hall
  omega

end Paging
