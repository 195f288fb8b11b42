import Mathlib.Algebra.BigOperators.Intervals
import ClassG.ForGo.TextOrder
import ClassG.Store.Contents

/-!
# Retention of detections

`PurgeDetections` of `store/libsqlstore` deletes in batches, and others may insert detections
between two of them.  It ends on the first batch that is short.

The statement compares the texts of instants.  `purge_exact_iff` says that a purge deletes what is
older than the cutoff and nothing else, as long as the years of what is in the table are in order
with that of the cutoff as texts; `purgesExactly_not` is a detection of the year 11476, which every
sweep of this century deletes.

The count is an `int64`, and a table has fewer rows.
-/

set_option autoImplicit false

namespace ClassG.Store

/-! ## The statement -/

/-- The order in which a `SELECT` comes upon the rows, when it has no `ORDER BY`. -/
structure ScanOrder where
  scan : List DetectionRow → List DetectionRow
  perm : ∀ rows, (scan rows).Perm rows

instance : Inhabited ScanOrder := ⟨⟨id, fun _ ↦ .rfl⟩⟩

/-- `purgeBatch`. -/
def purgeBatch : ℕ := 5000

namespace SqlStore

/-- What the subquery of `PurgeDetections` selects. -/
def expiring (s : SqlStore) (order : ScanOrder) (before : GoBytes) (batch : ℕ) :
    List DetectionRow :=
  (order.scan (s.detections.rows.filter fun r ↦ r.ts < before)).take batch

/-- `sqlcgen.PurgeDetections`: the table without these rows, and how many they are. -/
def deleteBatch (s : SqlStore) (order : ScanOrder) (before : GoBytes) (batch : ℕ) :
    SqlStore × ℕ :=
  let picked := s.expiring order before batch
  ({ s with detections := s.detections.deleteWhere fun r ↦
      (picked.map (·.detectionID)).contains r.detectionID }, picked.length)

/-- `InsertDetection` of each; one that fails changes nothing. -/
def insertAll (s : SqlStore) (ds : List Detection) : SqlStore :=
  ds.foldl (fun s d ↦ (s.insertDetection d).getD s) s

end SqlStore

/-! ## The loop -/

/-- What a turn of the loop meets. -/
structure Turn where
  order : ScanOrder := default
  /-- The statement returns an error. -/
  fails : Bool := false
  /-- `ctx.Err()` is not `nil` after the statement. -/
  done : Bool := false
  /-- What is inserted until the next statement. -/
  arrivals : List Detection := []

/-- Why a purge returns early. -/
inductive PurgeError
  | statement
  | context
  deriving DecidableEq, Repr

/-- What a purge leaves and returns. -/
structure Purged where
  store : SqlStore
  total : ℕ
  err : Option PurgeError

/-- `PurgeDetections` from its turn `k` on, with `none` if it goes on after `fuel` turns. -/
def purgeDetections (before : GoTime) (batch : ℕ) (turns : ℕ → Turn) :
    (fuel k : ℕ) → SqlStore → (total : ℕ) → Option Purged
  | 0, _, _, _ => none
  | fuel + 1, k, s, total =>
    if (turns k).fails then some ⟨s, total, some .statement⟩
    else
      let deleted := s.deleteBatch (turns k).order (toDB before) batch
      let total := total + deleted.2
      if deleted.2 < batch then some ⟨deleted.1, total, none⟩
      else if (turns k).done then some ⟨deleted.1, total, some .context⟩
      else
        purgeDetections before batch turns fuel (k + 1) (deleted.1.insertAll (turns k).arrivals)
          total

/-! ## What a statement does -/

namespace SqlStore

variable {s : SqlStore} {order : ScanOrder} {before : GoBytes} {batch : ℕ} {r : DetectionRow}

/-- The rows are as `InsertDetection` writes them. -/
def Written (s : SqlStore) : Prop := ∀ r ∈ s.detections.rows, r = .of r.doc

/-- The rows that the statement may delete. -/
def expired (s : SqlStore) (before : GoBytes) : List DetectionRow :=
  s.detections.rows.filter fun r ↦ r.ts < before

theorem mem_expired : r ∈ s.expired before ↔ r ∈ s.detections.rows ∧ r.ts < before := by
  rw [expired, List.mem_filter, decide_eq_true_iff]

theorem expired_of_mem_expiring (h : r ∈ s.expiring order before batch) : r ∈ s.expired before :=
  (order.perm _).mem_iff.mp (List.mem_of_mem_take h)

theorem length_expiring :
    (s.expiring order before batch).length = min batch (s.expired before).length := by
  rw [expiring, List.length_take, (order.perm _).length_eq, expired]

theorem nodup_expiring : (s.expiring order before batch).Nodup :=
  ((order.perm _).nodup_iff.mpr (s.detections.nodup_rows.filter _)).sublist (List.take_sublist ..)

/-- **A statement deletes what it has selected.** -/
theorem mem_deleteBatch : r ∈ (s.deleteBatch order before batch).1.detections.rows ↔
    r ∈ s.detections.rows ∧ r ∉ s.expiring order before batch := by
  rw [deleteBatch, Keyed.mem_rows_deleteWhere, ← Bool.not_eq_true, List.contains_iff_mem]
  refine and_congr_right fun hr ↦ not_congr ⟨fun h ↦ ?_, fun h ↦ List.mem_map_of_mem h⟩
  obtain ⟨r', hr', hid⟩ := List.mem_map.mp h
  have hrow' := Keyed.mem_rows.mp (mem_expired.mp (expired_of_mem_expiring hr')).1
  rw [hid, Keyed.mem_rows.mp hr] at hrow'
  rwa [Option.some.inj hrow']

/-- The count of a statement is short exactly if it leaves nothing to delete. -/
theorem count_lt_iff : (s.deleteBatch order before batch).2 < batch ↔
    (s.expired before).length < batch := by
  show (s.expiring order before batch).length < batch ↔ _
  rw [length_expiring]
  omega

theorem expired_of_short (h : (s.expired before).length < batch) :
    (s.deleteBatch order before batch).1.expired before = [] := by
  refine List.eq_nil_iff_forall_not_mem.mpr fun r hr ↦ ?_
  obtain ⟨hrow, hts⟩ := mem_expired.mp hr
  obtain ⟨hold, hkept⟩ := mem_deleteBatch.mp hrow
  refine hkept ?_
  rw [expiring, List.take_of_length_le]
  · exact (order.perm _).mem_iff.mpr (mem_expired.mpr ⟨hold, hts⟩)
  · rw [(order.perm _).length_eq]
    exact h.le

/-- What there was is what a statement deletes and what it leaves. -/
theorem rows_perm_deleteBatch (s : SqlStore) (order : ScanOrder) (before : GoBytes) (batch : ℕ) :
    s.detections.rows.Perm (s.expiring order before batch ++
      (s.deleteBatch order before batch).1.detections.rows) := by
  refine (List.perm_ext_iff_of_nodup s.detections.nodup_rows ?_).mpr fun r ↦ ?_
  · refine List.nodup_append.mpr ⟨nodup_expiring, Keyed.nodup_rows _, fun r hr r' hr' heq ↦ ?_⟩
    exact (mem_deleteBatch.mp (heq ▸ hr')).2 hr
  · rw [List.mem_append, mem_deleteBatch]
    refine ⟨fun hr ↦ ?_, fun hr ↦ ?_⟩
    · exact (em (r ∈ s.expiring order before batch)).imp_right fun hkept ↦ ⟨hr, hkept⟩
    · exact hr.elim (fun h ↦ (mem_expired.mp (expired_of_mem_expiring h)).1) And.left

theorem length_expired_deleteBatch (s : SqlStore) (order : ScanOrder) (before : GoBytes)
    (batch : ℕ) : ((s.deleteBatch order before batch).1.expired before).length +
      (s.deleteBatch order before batch).2 = (s.expired before).length := by
  have hlen :=
    ((rows_perm_deleteBatch s order before batch).filter fun r ↦ r.ts < before).length_eq
  have hall : (s.expiring order before batch).filter (fun r ↦ r.ts < before) =
      s.expiring order before batch :=
    List.filter_eq_self.mpr fun r hr ↦
      decide_eq_true (mem_expired.mp (expired_of_mem_expiring hr)).2
  rw [List.filter_append, hall, List.length_append] at hlen
  rw [expired, expired, hlen, Nat.add_comm]
  rfl

/-- The rows that are no longer there afterwards. -/
def gone (s s' : SqlStore) : ℕ :=
  s.detections.rows.countP fun r ↦ (s'.detections.get r.detectionID).isNone

@[simp] theorem gone_self (s : SqlStore) : s.gone s = 0 := by
  refine List.countP_eq_zero.mpr fun r hr ↦ ?_
  rw [Keyed.mem_rows.mp hr]
  simp

/-- **A statement counts what it deletes.** -/
theorem gone_deleteBatch (s : SqlStore) (order : ScanOrder) (before : GoBytes) (batch : ℕ) :
    s.gone (s.deleteBatch order before batch).1 = (s.deleteBatch order before batch).2 := by
  have hpicked : ∀ r ∈ s.expiring order before batch,
      ((s.deleteBatch order before batch).1.detections.get r.detectionID).isNone := by
    intro r hr
    rw [Option.isNone_iff_eq_none, deleteBatch, Keyed.get_deleteWhere]
    refine Option.filter_eq_none_iff.mpr fun r' hr' ↦ ?_
    rw [Keyed.key_of_get hr']
    simpa using ⟨r, hr, rfl⟩
  have hkept : ∀ r ∈ (s.deleteBatch order before batch).1.detections.rows,
      ¬((s.deleteBatch order before batch).1.detections.get r.detectionID).isNone := by
    intro r hr
    rw [Keyed.mem_rows.mp hr]
    simp
  rw [gone, (rows_perm_deleteBatch s order before batch).countP_eq, List.countP_append,
    List.countP_eq_zero.mpr hkept, List.countP_eq_length.mpr hpicked]
  rfl

/-! ### Inserts -/

theorem mem_insertDetection {d : Detection} (h : r ∈ ((s.insertDetection d).getD s).detections.rows) :
    r ∈ s.detections.rows ∨ r = .of d := by
  rw [insertDetection] at h
  split at h
  · exact .inl h
  · split at h
    · exact .inl h
    · exact (Keyed.mem_rows_put.mp h).symm.imp_left And.left

theorem mem_of_mem_insertDetection {d : Detection} (h : r ∈ s.detections.rows) :
    r ∈ ((s.insertDetection d).getD s).detections.rows := by
  rw [insertDetection]
  split
  · exact h
  · split
    · exact h
    · rename_i hfree
      refine Keyed.mem_rows_put.mpr (.inr ⟨h, fun hid ↦ hfree ?_⟩)
      rw [show d.detectionID = r.detectionID from hid.symm, Keyed.mem_rows.mp h]
      rfl

/-- **An insert adds what is inserted**, and leaves what there is. -/
theorem mem_insertAll {ds : List Detection} (h : r ∈ (s.insertAll ds).detections.rows) :
    r ∈ s.detections.rows ∨ ∃ d ∈ ds, r = .of d := by
  induction ds generalizing s with
  | nil => exact .inl h
  | cons d ds ih =>
    rcases ih h with hr | ⟨d', hd', hr⟩
    · exact (mem_insertDetection hr).imp_right fun heq ↦ ⟨d, List.mem_cons_self, heq⟩
    · exact .inr ⟨d', List.mem_cons_of_mem _ hd', hr⟩

theorem mem_of_mem_insertAll {ds : List Detection} (h : r ∈ s.detections.rows) :
    r ∈ (s.insertAll ds).detections.rows := by
  induction ds generalizing s with
  | nil => exact h
  | cons d ds ih => exact ih (mem_of_mem_insertDetection h)

theorem Written.deleteBatch (h : s.Written) : (s.deleteBatch order before batch).1.Written :=
  fun r hr ↦ h r (mem_deleteBatch.mp hr).1

theorem Written.insertAll (h : s.Written) (ds : List Detection) : (s.insertAll ds).Written := by
  intro r hr
  rcases mem_insertAll hr with hr | ⟨d, -, rfl⟩
  · exact h r hr
  · rfl

theorem written_run (ws : List Write) : (run ws).Written := fun r hr ↦
  ((kept (P := fun _ ↦ True) (Q := fun _ ↦ True) fun w _ ↦ by cases w <;> trivial).2 r hr).1

end SqlStore

/-! ## A run of the loop -/

section loop

variable (before : GoTime) (batch : ℕ) (turns : ℕ → Turn) (s : SqlStore)

/-- The store when a turn begins, if there is one before it has ended. -/
def storeAt : ℕ → SqlStore
  | 0 => s
  | k + 1 =>
    ((storeAt k).deleteBatch (turns k).order (toDB before) batch).1.insertAll (turns k).arrivals

/-- What the statement of a turn leaves, and its count. -/
def statementAt (k : ℕ) : SqlStore × ℕ :=
  if (turns k).fails then (storeAt before batch turns s k, 0)
  else (storeAt before batch turns s k).deleteBatch (turns k).order (toDB before) batch

/-- There is a turn `k`: the loop has not returned before it. -/
def Reaches (k : ℕ) : Prop := (purgeDetections before batch turns k 0 s 0).isNone

/-- The purge ends with its turn `last`; no statement deletes what is not older than the cutoff;
what is returned is how many rows were deleted; and unless it is an error, nothing older is left. -/
structure PurgedExactly (last : ℕ) (p : Purged) : Prop where
  reached : Reaches before batch turns s last
  ends : purgeDetections before batch turns (last + 1) 0 s 0 = some p
  store : p.store = (statementAt before batch turns s last).1
  all : p.err = none → ∀ r ∈ p.store.detections.rows, before ≤ r.doc.ts
  only : ∀ k ≤ last, ∀ r ∈ (storeAt before batch turns s k).detections.rows,
    before ≤ r.doc.ts → r ∈ (statementAt before batch turns s k).1.detections.rows
  total : p.total = ∑ k ∈ Finset.range (last + 1),
    (storeAt before batch turns s k).gone (statementAt before batch turns s k).1

/-- The purge ends, and is exact. -/
def PurgesExactly : Prop := ∃ last p, PurgedExactly before batch turns s last p

/-- Before every statement, the year of each detection in the table is in order with that of the
cutoff. -/
def InOrder : Prop := ∀ k, Reaches before batch turns s k →
  ∀ r ∈ (storeAt before batch turns s k).detections.rows,
    GoTime.YearsInOrder (GoTime.year r.doc.ts) (GoTime.year before)

/-- What is inserted after a turn is not to be deleted. -/
def NoneToDelete (k : ℕ) : Prop := ∀ d ∈ (turns k).arrivals,
  .of d ∈ (storeAt before batch turns s (k + 1)).detections.rows → ¬toDB d.ts < toDB before

/-- The loop goes on after a turn. -/
def GoesOn (k : ℕ) : Prop :=
  (turns k).fails = false ∧ batch ≤ (statementAt before batch turns s k).2 ∧ (turns k).done = false

variable {before batch turns s} {k n : ℕ}

theorem statementAt_of_not_fails (h : (turns k).fails = false) :
    statementAt before batch turns s k =
      (storeAt before batch turns s k).deleteBatch (turns k).order (toDB before) batch := by
  simp [statementAt, h]

/-- The loop at its turn `n` is as if it began there. -/
theorem purgeDetections_shift (h : ∀ k < n, GoesOn before batch turns s k) (fuel : ℕ) :
    purgeDetections before batch turns (n + fuel) 0 s 0 =
      purgeDetections before batch turns fuel n (storeAt before batch turns s n)
        (∑ k ∈ Finset.range n, (statementAt before batch turns s k).2) := by
  induction n generalizing fuel with
  | zero => rw [Nat.zero_add]; rfl
  | succ n ih =>
    obtain ⟨hfails, hcount, hdone⟩ := h n (Nat.lt_succ_self n)
    rw [statementAt_of_not_fails hfails] at hcount
    rw [Nat.succ_add, ← Nat.add_succ, ih fun k hk ↦ h k (Nat.lt_succ_of_lt hk), purgeDetections,
      if_neg (by simp [hfails]), if_neg hcount.not_gt, if_neg (by simp [hdone]),
      Finset.sum_range_succ, statementAt_of_not_fails hfails]
    rfl

/-- What the loop returns if it ends with a turn. -/
theorem purgeDetections_succ (h : ∀ k < n, GoesOn before batch turns s k)
    (hn : ¬GoesOn before batch turns s n) :
    ∃ p, (∀ fuel, purgeDetections before batch turns (n + (fuel + 1)) 0 s 0 = some p) ∧
      p.store = (statementAt before batch turns s n).1 ∧
      p.total = ∑ k ∈ Finset.range (n + 1), (statementAt before batch turns s k).2 ∧
      (p.err = none ↔ (turns n).fails = false ∧ (statementAt before batch turns s n).2 < batch) := by
  simp only [purgeDetections_shift h, Finset.sum_range_succ]
  simp only [purgeDetections]
  cases hfails : (turns n).fails with
  | true =>
    rw [show statementAt before batch turns s n = (storeAt before batch turns s n, 0) by
      simp [statementAt, hfails]]
    exact ⟨_, fun _ ↦ rfl, rfl, rfl, iff_of_false (by simp) (by simp)⟩
  | false =>
    rw [GoesOn, statementAt_of_not_fails hfails] at hn
    rw [statementAt_of_not_fails hfails]
    simp only [Bool.false_eq_true, if_false, true_and]
    split
    · exact ⟨_, fun _ ↦ rfl, rfl, rfl, iff_of_true rfl ‹_›⟩
    · rename_i hcount
      have hdone : (turns n).done = true := by
        by_contra hdone
        exact hn ⟨hfails, not_lt.mp hcount, by simpa using hdone⟩
      simp only [if_pos hdone]
      exact ⟨_, fun _ ↦ rfl, rfl, rfl, iff_of_false (by simp) hcount⟩

/-- The loop has not returned exactly as long as every turn lets it go on. -/
theorem reaches_iff : Reaches before batch turns s n ↔ ∀ k < n, GoesOn before batch turns s k := by
  constructor
  · intro h k
    induction k using Nat.strong_induction_on with
    | h k ih =>
      intro hk
      by_contra hstop
      obtain ⟨p, hp, -⟩ := purgeDetections_succ (fun j hj ↦ ih j hj (hj.trans hk)) hstop
      obtain ⟨fuel, rfl⟩ := Nat.exists_eq_add_of_lt hk
      rw [Reaches, Nat.add_assoc, hp] at h
      cases h
  · intro h
    rw [Reaches, ← Nat.add_zero n, purgeDetections_shift h]
    rfl

theorem Reaches.mono (h : Reaches before batch turns s n) (hk : k ≤ n) :
    Reaches before batch turns s k :=
  reaches_iff.mpr fun j hj ↦ reaches_iff.mp h j (hj.trans_le hk)

/-! ### What every turn keeps -/

theorem written_storeAt (hs : s.Written) : (storeAt before batch turns s k).Written := by
  induction k with
  | zero => exact hs
  | succ k ih => exact ih.deleteBatch.insertAll _

/-- A row that is in order is deleted only if it is older than the cutoff. -/
theorem ts_lt_iff {r : DetectionRow} (hr : r = .of r.doc)
    (horder : GoTime.YearsInOrder (GoTime.year r.doc.ts) (GoTime.year before)) :
    r.ts < toDB before ↔ r.doc.ts < before := by
  rw [hr]
  exact (GoTime.formatFixed_lt_iff_iff _ _).mpr horder

/-- A statement deletes rows only that compare as older than the cutoff. -/
theorem mem_statementAt {r : DetectionRow} (hr : r ∈ (storeAt before batch turns s k).detections.rows)
    (hts : ¬r.ts < toDB before) : r ∈ (statementAt before batch turns s k).1.detections.rows := by
  rw [statementAt]
  split
  · exact hr
  · exact SqlStore.mem_deleteBatch.mpr
      ⟨hr, fun h ↦ hts (SqlStore.mem_expired.mp (SqlStore.expired_of_mem_expiring h)).2⟩

/-- **A turn that is followed by another leaves fewer rows to delete**, if none is inserted. -/
theorem length_expired_succ (hbatch : 1 ≤ batch) (hgoes : GoesOn before batch turns s k)
    (hfresh : NoneToDelete before batch turns s k) :
    ((storeAt before batch turns s (k + 1)).expired (toDB before)).length <
      ((storeAt before batch turns s k).expired (toDB before)).length := by
  obtain ⟨hfails, hcount, -⟩ := hgoes
  rw [statementAt_of_not_fails hfails] at hcount
  have hleft := SqlStore.length_expired_deleteBatch (storeAt before batch turns s k)
    (turns k).order (toDB before) batch
  have hsub : (storeAt before batch turns s (k + 1)).expired (toDB before) ⊆
      ((storeAt before batch turns s k).deleteBatch (turns k).order (toDB before)
        batch).1.expired (toDB before) := by
    intro r hr
    obtain ⟨hrow, hts⟩ := SqlStore.mem_expired.mp hr
    rcases SqlStore.mem_insertAll hrow with hold | ⟨d, hd, rfl⟩
    · exact SqlStore.mem_expired.mpr ⟨hold, hts⟩
    · exact absurd hts (hfresh d hd hrow)
  have hle : ((storeAt before batch turns s (k + 1)).expired (toDB before)).length ≤ _ :=
    (List.subperm_of_subset ((Keyed.nodup_rows _).filter _) hsub).length_le
  omega

theorem InOrder.noneToDelete (horder : InOrder before batch turns s)
    (harrivals : ∀ d ∈ (turns k).arrivals, before ≤ d.ts)
    (h : Reaches before batch turns s (k + 1)) : NoneToDelete before batch turns s k :=
  fun d hd hrow hts ↦ ((ts_lt_iff rfl (horder _ h _ hrow)).mp hts).not_ge (harrivals d hd)

/-- **A purge ends** after as many turns as there are rows to delete, or before. -/
theorem Reaches.le (hbatch : 1 ≤ batch)
    (hfresh : ∀ k, Reaches before batch turns s (k + 1) → NoneToDelete before batch turns s k)
    (h : Reaches before batch turns s n) : n ≤ (s.expired (toDB before)).length := by
  have hfall : ((storeAt before batch turns s n).expired (toDB before)).length + n ≤
      (s.expired (toDB before)).length := by
    induction n with
    | zero => exact le_rfl
    | succ n ih =>
      have hlt := length_expired_succ hbatch (reaches_iff.mp h n (Nat.lt_succ_self n)) (hfresh n h)
      have hle := ih (h.mono (Nat.le_succ n))
      omega
  omega

theorem exists_last (hbatch : 1 ≤ batch)
    (hfresh : ∀ k, Reaches before batch turns s (k + 1) → NoneToDelete before batch turns s k) :
    ∃ last, Reaches before batch turns s last ∧ ¬GoesOn before batch turns s last := by
  by_contra! hall
  have hreach (n : ℕ) : Reaches before batch turns s n := by
    induction n with
    | zero => rfl
    | succ n ih =>
      refine reaches_iff.mpr fun k hk ↦ ?_
      rcases Nat.lt_succ_iff_lt_or_eq.mp hk with hk | rfl
      · exact reaches_iff.mp ih k hk
      · exact hall k ih
  have hle := (hreach ((s.expired (toDB before)).length + 1)).le hbatch hfresh
  omega

theorem gone_statementAt :
    (storeAt before batch turns s k).gone (statementAt before batch turns s k).1 =
      (statementAt before batch turns s k).2 := by
  rw [statementAt]
  split
  · exact SqlStore.gone_self _
  · exact SqlStore.gone_deleteBatch _ _ _ _

/-- A row that no statement deletes is there to the end. -/
theorem mem_storeAt_of_le {last : ℕ} {r : DetectionRow}
    (h : Reaches before batch turns s last) (hk : k ≤ last)
    (hkept : ∀ j ≤ last, r ∈ (storeAt before batch turns s j).detections.rows →
      r ∈ (statementAt before batch turns s j).1.detections.rows)
    (hr : r ∈ (storeAt before batch turns s k).detections.rows) :
    r ∈ (storeAt before batch turns s last).detections.rows := by
  induction last, hk using Nat.le_induction with
  | base => exact hr
  | succ j hj ih =>
    have hrow := ih (h.mono (Nat.le_succ j)) fun i hi ↦ hkept i (hi.trans (Nat.le_succ j))
    have hfails := (reaches_iff.mp h j (Nat.lt_succ_self j)).1
    have hstay := hkept j (Nat.le_succ j) hrow
    rw [statementAt_of_not_fails hfails] at hstay
    exact SqlStore.mem_of_mem_insertAll hstay

end loop

/-! ## What a purge deletes -/

section exact

variable {before : GoTime} {batch : ℕ} {turns : ℕ → Turn} {s : SqlStore}

theorem purgesExactly_of_inOrder (hbatch : 1 ≤ batch) (hs : s.Written)
    (harrivals : ∀ k, ∀ d ∈ (turns k).arrivals, before ≤ d.ts)
    (horder : InOrder before batch turns s) : PurgesExactly before batch turns s := by
  obtain ⟨last, hreached, hstop⟩ := exists_last hbatch fun k hk ↦ horder.noneToDelete (harrivals k) hk
  obtain ⟨p, hp, hstore, htotal, herr⟩ :=
    purgeDetections_succ (reaches_iff.mp hreached) hstop
  refine ⟨last, p, hreached, hp 0, hstore, fun hnone r hr ↦ ?_, fun k hk r hr hlate ↦ ?_, ?_⟩
  · obtain ⟨hfails, hshort⟩ := herr.mp hnone
    rw [hstore, statementAt_of_not_fails hfails] at hr
    rw [statementAt_of_not_fails hfails, SqlStore.count_lt_iff] at hshort
    have hrow := (SqlStore.mem_deleteBatch.mp hr).1
    by_contra hold
    have hts := (ts_lt_iff (written_storeAt hs r hrow) (horder last hreached r hrow)).mpr
      (not_le.mp hold)
    have hexpired := SqlStore.mem_expired.mpr ⟨hr, hts⟩
    rw [SqlStore.expired_of_short hshort] at hexpired
    cases hexpired
  · have hts := ts_lt_iff (written_storeAt hs r hr) (horder k (hreached.mono hk) r hr)
    exact mem_statementAt hr fun h ↦ (hts.mp h).not_ge hlate
  · rw [htotal]
    exact Finset.sum_congr rfl fun k _ ↦ gone_statementAt.symm

/-- The last statement of a purge that nothing interrupts is short. -/
theorem count_lt_of_not_goesOn {k : ℕ} (hquiet : (turns k).fails = false ∧ (turns k).done = false)
    (hstop : ¬GoesOn before batch turns s k) : (statementAt before batch turns s k).2 < batch := by
  by_contra hfull
  exact hstop ⟨hquiet.1, not_lt.mp hfull, hquiet.2⟩

theorem PurgedExactly.short {last : ℕ} {p : Purged}
    (hquiet : ∀ k, (turns k).fails = false ∧ (turns k).done = false)
    (h : PurgedExactly before batch turns s last p) :
    p.err = none ∧ ((storeAt before batch turns s last).expired (toDB before)).length < batch := by
  have hstop : ¬GoesOn before batch turns s last := by
    intro hgoes
    have hnext : Reaches before batch turns s (last + 1) := by
      refine reaches_iff.mpr fun k hk ↦ ?_
      rcases Nat.lt_succ_iff_lt_or_eq.mp hk with hk | rfl
      · exact reaches_iff.mp h.reached k hk
      · exact hgoes
    rw [Reaches, h.ends] at hnext
    cases hnext
  have hshort := count_lt_of_not_goesOn (hquiet last) hstop
  obtain ⟨p', hp', -, -, herr⟩ := purgeDetections_succ (reaches_iff.mp h.reached) hstop
  have hp := hp' 0
  rw [h.ends] at hp
  rw [Option.some.inj hp]
  refine ⟨herr.mpr ⟨(hquiet last).1, hshort⟩, ?_⟩
  rwa [statementAt_of_not_fails (hquiet last).1, SqlStore.count_lt_iff] at hshort

theorem inOrder_of_purgesExactly (hs : s.Written)
    (hquiet : ∀ k, (turns k).fails = false ∧ (turns k).done = false)
    (h : PurgesExactly before batch turns s) : InOrder before batch turns s := by
  obtain ⟨last, p, hp⟩ := h
  obtain ⟨herr, hshort⟩ := hp.short hquiet
  intro k hk r hr
  have hklast : k ≤ last := by
    by_contra hgt
    have hnext := hk.mono (not_le.mp hgt)
    rw [Reaches, hp.ends] at hnext
    cases hnext
  have hwritten := written_storeAt hs r hr
  rw [← GoTime.formatFixed_lt_iff_iff]
  show toDB r.doc.ts < toDB before ↔ _
  rw [show toDB r.doc.ts = r.ts from (congrArg DetectionRow.ts hwritten).symm]
  by_cases hold : r.doc.ts < before <;> by_cases hts : r.ts < toDB before
  · exact iff_of_true hts hold
  · -- Nothing deletes it, so it is there at the end.
    have hlast := mem_storeAt_of_le hp.reached hklast (fun j _ hj ↦ mem_statementAt hj hts) hr
    have hleft := hp.all herr r (hp.store ▸ mem_statementAt hlast hts)
    exact absurd hold hleft.not_gt
  · -- Nothing may delete it, but the last statement leaves nothing like it.
    have hkept (j : ℕ) (hj : j ≤ last)
        (hrow : r ∈ (storeAt before batch turns s j).detections.rows) :=
      hp.only j hj r hrow (not_lt.mp hold)
    have hend := hkept last le_rfl (mem_storeAt_of_le hp.reached hklast hkept hr)
    rw [statementAt_of_not_fails (hquiet last).1] at hend
    have hexpired := SqlStore.mem_expired.mpr ⟨hend, hts⟩
    rw [SqlStore.expired_of_short hshort] at hexpired
    cases hexpired
  · exact iff_of_false hts hold

/-- Years of four digits are in order. -/
theorem inOrder_of_inRange (hbefore : GoTime.InRange before)
    (hrows : ∀ r ∈ s.detections.rows, GoTime.InRange r.doc.ts)
    (harrivals : ∀ k, ∀ d ∈ (turns k).arrivals, GoTime.InRange d.ts) :
    InOrder before batch turns s := by
  have hall (k : ℕ) :
      ∀ r ∈ (storeAt before batch turns s k).detections.rows, GoTime.InRange r.doc.ts := by
    induction k with
    | zero => exact hrows
    | succ k ih =>
      intro r hr
      rcases SqlStore.mem_insertAll hr with hold | ⟨d, hd, rfl⟩
      · exact ih r (SqlStore.mem_deleteBatch.mp hold).1
      · exact harrivals k d hd
  exact fun k _ r hr ↦ (GoTime.yearsInOrder_iff hbefore.1 hbefore.2).mpr (.inl (hall k r hr).2)

/-- **The batches come to one `DELETE`** of all that compares as older, if nothing is inserted and
nothing interrupts them. -/
theorem purgeDetections_eq (hbatch : 1 ≤ batch)
    (hquiet : ∀ k, (turns k).fails = false ∧ (turns k).done = false)
    (hnone : ∀ k, (turns k).arrivals = []) :
    ∃ fuel p, purgeDetections before batch turns fuel 0 s 0 = some p ∧ p.err = none ∧
      ∀ id, p.store.detections.get id = (s.purgeDetections before).detections.get id := by
  have hend : ∃ last, Reaches before batch turns s last ∧ ¬GoesOn before batch turns s last :=
    exists_last hbatch fun k _ d hd ↦ by rw [hnone] at hd; cases hd
  obtain ⟨last, hreached, hstop⟩ := hend
  obtain ⟨p, hp, hstore, -, herr⟩ := purgeDetections_succ (reaches_iff.mp hreached) hstop
  have hcount := count_lt_of_not_goesOn (hquiet last) hstop
  have hfrom (k : ℕ) {r : DetectionRow} :
      r ∈ (storeAt before batch turns s k).detections.rows → r ∈ s.detections.rows := by
    induction k with
    | zero => exact id
    | succ k ih =>
      rw [storeAt, hnone]
      exact fun hr ↦ ih (SqlStore.mem_deleteBatch.mp hr).1
  refine ⟨last + 1, p, hp 0, herr.mpr ⟨(hquiet last).1, hcount⟩, Keyed.get_congr fun r ↦ ?_⟩
  rw [SqlStore.purgeDetections, Keyed.mem_rows_deleteWhere, decide_eq_false_iff_not, hstore]
  refine ⟨fun hr ↦ ?_, fun hr ↦ ?_⟩
  · rw [statementAt_of_not_fails (hquiet last).1] at hcount hr
    refine ⟨hfrom last (SqlStore.mem_deleteBatch.mp hr).1, fun hts ↦ ?_⟩
    have hexpired := SqlStore.mem_expired.mpr ⟨hr, hts⟩
    rw [SqlStore.expired_of_short (SqlStore.count_lt_iff.mp hcount)] at hexpired
    cases hexpired
  · exact mem_statementAt (mem_storeAt_of_le hreached (Nat.zero_le last)
      (fun j _ hj ↦ mem_statementAt hj hr.2) hr.1) hr.2

/-- **A purge is exact** if the years of what is in the table are in order with that of the cutoff,
whatever is inserted between its statements that is not older than the cutoff, and whatever
interrupts it.  Otherwise it is not, unless it is interrupted. -/
theorem purge_exact_iff (ws : List Write) (hbatch : 1 ≤ batch)
    (harrivals : ∀ k, ∀ d ∈ (turns k).arrivals, before ≤ d.ts) :
    (InOrder before batch turns (.run ws) → PurgesExactly before batch turns (.run ws)) ∧
      ((∀ k, (turns k).fails = false ∧ (turns k).done = false) →
        PurgesExactly before batch turns (.run ws) → InOrder before batch turns (.run ws)) :=
  ⟨purgesExactly_of_inOrder hbatch (SqlStore.written_run ws) harrivals,
    inOrder_of_purgesExactly (SqlStore.written_run ws)⟩

end exact

/-- The beginning of 2025. -/
def newYear2025 : GoTime := 63871286400 * GoDuration.second

/-- A detection of the day before. -/
def oldDetection : Detection where
  detectionID := GoBytes.ofASCII "a"
  ts := newYear2025 - 86400 * GoDuration.second

/-- A detection of the first instant of the year. -/
def newDetection : Detection where
  detectionID := GoBytes.ofASCII "b"
  ts := newYear2025

/-- A purge that meets a new detection after its first batch. -/
def oneArrival : ℕ → Turn
  | 0 => { arrivals := [newDetection] }
  | _ => {}

theorem purge_exact_oneArrival :
    PurgesExactly newYear2025 1 oneArrival (.run [.insertDetection oldDetection]) := by
  have harrivals : ∀ k, ∀ d ∈ (oneArrival k).arrivals, d = newDetection := by
    rintro (_ | k) d hd
    · exact List.mem_singleton.mp hd
    · cases hd
  have hrows : ∀ r ∈ (SqlStore.run [.insertDetection oldDetection]).detections.rows,
      r = .of oldDetection := fun r hr ↦ List.mem_singleton.mp hr
  refine (purge_exact_iff [.insertDetection oldDetection] le_rfl fun k d hd ↦ ?_).1
    (inOrder_of_inRange (by decide) (fun r hr ↦ ?_) fun k d hd ↦ ?_)
  · rw [harrivals k d hd]
    exact le_rfl
  · rw [hrows r hr]
    decide
  · rw [harrivals k d hd]
    decide

/-- What a sensor sends whose timestamp is 300000000000 seconds: a detection of the year 11476. -/
def farDetection : Detection where
  detectionID := GoBytes.ofASCII "f"
  ts := (62135596800 + 300000000000) * GoDuration.second

/-- **A purge deletes a detection that is not older than its cutoff.** -/
theorem purgesExactly_not : newYear2025 ≤ farDetection.ts ∧
    ¬PurgesExactly newYear2025 purgeBatch (fun _ ↦ {}) (.run [.insertDetection farDetection]) := by
  refine ⟨by decide, ?_⟩
  rintro ⟨last, p, h⟩
  have hrow : DetectionRow.of farDetection ∈
      (SqlStore.run [.insertDetection farDetection]).detections.rows := List.mem_singleton.mpr rfl
  have hkept := h.only 0 (Nat.zero_le last) _ hrow (by decide)
  have hexpired := SqlStore.mem_expired.mpr
    ⟨hkept, (by decide : toDB farDetection.ts < toDB newYear2025)⟩
  rw [statementAt_of_not_fails rfl, SqlStore.expired_of_short (Nat.lt_of_le_of_lt
    (List.length_filter_le _ _) (by decide : 1 < purgeBatch))] at hexpired
  cases hexpired

end ClassG.Store
