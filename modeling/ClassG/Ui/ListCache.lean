import Mathlib.Data.List.Sort
import ClassG.Store.Contents
import ClassG.Ui.ListFilter

/-!
# Lists kept by frames

* `Mirrors` — the entry holds the documents of the stored tracks that the server would answer with,
  but for those evicted.
* `Mirrors.put` — what one track more or less, or another in its place, leaves of that.
* `Follows` — the frame does not tell the two filters apart, brings no closed track into the query
  by closing it, and is not about an evicted track.
* `cache_follows` — the entry after any frames that follow.
-/

set_option autoImplicit false

namespace ClassG.Ui

open Store Machine

/-! ## Lists of documents -/

section lists

variable {l : List TrackDoc} {d : TrackDoc} {id : GoBytes} {i : ℕ}

theorem indexOf_eq_none {e : TracksResponse} :
    indexOf e id = none ↔ ∀ d ∈ e.tracks, d.trackID ≠ id := by
  rw [indexOf, List.findIdx?_eq_none_iff]
  simp

theorem indexOf_eq_some {e : TracksResponse} (h : indexOf e id = some i) :
    ∃ d, e.tracks[i]? = some d ∧ d.trackID = id := by
  rw [indexOf, List.findIdx?_eq_some_iff_getElem] at h
  obtain ⟨hi, hp, -⟩ := h
  exact ⟨_, List.getElem?_eq_getElem hi, of_decide_eq_true hp⟩

/-- A document with the id is put in place of the one that has it. -/
theorem set_eq_map (hnodup : (l.map (·.trackID)).Nodup) {old : TrackDoc} (hi : l[i]? = some old)
    (hid : old.trackID = d.trackID) :
    l.set i d = l.map fun x ↦ if x.trackID = d.trackID then d else x := by
  obtain ⟨hlt, hold⟩ := List.getElem?_eq_some_iff.mp hi
  refine List.ext_getElem (by simp) fun j hj hj' ↦ ?_
  have hjl : j < l.length := by simpa using hj'
  rw [List.getElem_set, List.getElem_map]
  have hiff : l[j].trackID = d.trackID ↔ i = j := by
    refine ⟨fun h ↦ ?_, fun h ↦ ?_⟩
    · have hids : (l.map (·.trackID))[i]? = (l.map (·.trackID))[j]? := by
        rw [List.getElem?_map, List.getElem?_map, hi, List.getElem?_eq_getElem hjl, Option.map_some,
          Option.map_some, hid, h]
      exact (List.getElem?_inj (by simpa using hlt) hnodup).mp hids
    · subst h
      rw [hold, hid]
  simp [hiff]

theorem mem_set (hnodup : (l.map (·.trackID)).Nodup) {old : TrackDoc} (hi : l[i]? = some old)
    (hid : old.trackID = d.trackID) {x : TrackDoc} :
    x ∈ l.set i d ↔ x = d ∨ (x ∈ l ∧ x.trackID ≠ d.trackID) := by
  rw [set_eq_map hnodup hi hid, List.mem_map]
  constructor
  · rintro ⟨y, hy, rfl⟩
    split
    · exact .inl rfl
    · rename_i hne
      exact .inr ⟨hy, hne⟩
  · rintro (rfl | ⟨hx, hne⟩)
    · exact ⟨old, List.mem_of_getElem? hi, if_pos hid⟩
    · exact ⟨x, hx, if_neg hne⟩

theorem nodup_set (hnodup : (l.map (·.trackID)).Nodup) {old : TrackDoc} (hi : l[i]? = some old)
    (hid : old.trackID = d.trackID) : ((l.set i d).map (·.trackID)).Nodup := by
  have hsame : (l.set i d).map (·.trackID) = l.map (·.trackID) := by
    rw [set_eq_map hnodup hi hid, List.map_map]
    refine List.map_congr_left fun x _ ↦ ?_
    show (if x.trackID = d.trackID then d else x).trackID = x.trackID
    split
    · rename_i h
      exact h.symm
    · rfl
  rwa [hsame]

end lists

/-! ## Eviction -/

section eviction

variable {l : List TrackDoc}

theorem mem_closedOf {d : TrackDoc} : d ∈ closedOf l ↔ d ∈ l ∧ d.state = "CLOSED" := by
  rw [closedOf, List.mem_filter, decide_eq_true_iff]

/-- Eviction takes away the doomed. -/
theorem evictExcessClosed_eq (l : List TrackDoc) :
    evictExcessClosed l = l.filter (·.trackID ∉ doomed l) := by
  rw [evictExcessClosed]
  split
  · rename_i hle
    have hnone : doomed l = [] := by
      rw [doomed, Nat.sub_eq_zero_of_le hle, List.take_zero, List.map_nil]
    rw [hnone]
    simp
  · refine List.filter_congr fun d _ ↦ ?_
    rw [← List.elem_eq_contains, List.elem_eq_mem, decide_not]

/-- The doomed are closed. -/
theorem closed_of_doomed {id : GoBytes} (h : id ∈ doomed l) :
    ∃ d ∈ l, d.state = "CLOSED" ∧ d.trackID = id := by
  rw [doomed, List.mem_map] at h
  obtain ⟨d, hd, rfl⟩ := h
  have hmem := (List.mem_insertionSort _).mp (List.mem_of_mem_take hd)
  exact ⟨d, (mem_closedOf.mp hmem).1, (mem_closedOf.mp hmem).2, rfl⟩

/-- What is not among the first `n` comes after them. -/
theorem filter_notMem_take {s : List TrackDoc} (hnodup : (s.map (·.trackID)).Nodup) (n : ℕ) :
    (s.filter fun d ↦ d.trackID ∉ (s.take n).map (·.trackID)) = s.drop n := by
  have hsplit : (s.take n ++ s.drop n).map (·.trackID) = s.map (·.trackID) := by
    rw [List.take_append_drop]
  rw [← hsplit, List.map_append, List.nodup_append] at hnodup
  calc (s.filter fun d ↦ d.trackID ∉ (s.take n).map (·.trackID))
      = (s.take n ++ s.drop n).filter fun d ↦ d.trackID ∉ (s.take n).map (·.trackID) := by
        rw [List.take_append_drop]
    _ = s.drop n := by
        rw [List.filter_append, List.filter_eq_nil_iff.mpr, List.nil_append,
          List.filter_eq_self.mpr]
        · intro d hd
          refine decide_eq_true fun hmem ↦ ?_
          exact hnodup.2.2 _ hmem _ (List.mem_map_of_mem hd) rfl
        · intro d hd hnot
          exact of_decide_eq_true hnot (List.mem_map_of_mem hd)

/-- **Eviction keeps as many closed ones as it may**, and those that were seen last the latest. -/
theorem evict_newest (hnodup : (l.map (·.trackID)).Nodup)
    (hmany : maxClosedPerList < (closedOf l).length) :
    (closedOf (evictExcessClosed l)).length = maxClosedPerList ∧
    ∀ d ∈ l, ∀ k ∈ evictExcessClosed l, d.trackID ∈ doomed l → k.state = "CLOSED" →
      ¬k.lastSeen < d.lastSeen := by
  let r (a b : TrackDoc) : Prop := ¬b.lastSeen < a.lastSeen
  have htotal : Std.Total r := ⟨fun a b ↦ by
    rw [show r a b ↔ a.lastSeen ≤ b.lastSeen from not_lt,
      show r b a ↔ b.lastSeen ≤ a.lastSeen from not_lt]
    exact le_total _ _⟩
  have htrans : IsTrans TrackDoc r := ⟨fun a b c hab hbc ↦
    not_lt.mpr ((not_lt.mp hab).trans (not_lt.mp hbc))⟩
  obtain ⟨sorted, hsorted⟩ : ∃ sorted, sorted = (closedOf l).insertionSort r := ⟨_, rfl⟩
  have hperm : sorted.Perm (closedOf l) := hsorted ▸ List.perm_insertionSort r _
  have hpair : sorted.Pairwise r := hsorted ▸ List.pairwise_insertionSort r _
  have hids : (sorted.map (·.trackID)).Nodup := by
    refine (hperm.map _).nodup_iff.mpr ?_
    exact hnodup.sublist (List.filter_sublist.map _)
  have hdoomed : doomed l =
      (sorted.take ((closedOf l).length - maxClosedPerList)).map (·.trackID) := by
    rw [hsorted]
    rfl
  have hdrop := filter_notMem_take hids ((closedOf l).length - maxClosedPerList)
  rw [← hdoomed] at hdrop
  refine ⟨?_, fun d hd k hk hdoom hclosed ↦ ?_⟩
  · have hkept : closedOf (evictExcessClosed l) = (closedOf l).filter (·.trackID ∉ doomed l) := by
      rw [evictExcessClosed_eq, closedOf, closedOf, List.filter_filter, List.filter_filter]
      refine List.filter_congr fun d _ ↦ ?_
      rw [Bool.and_comm]
    rw [hkept, ← (hperm.filter _).length_eq, hdrop, List.length_drop, hperm.length_eq]
    omega
  · rw [evictExcessClosed_eq, List.mem_filter, decide_eq_true_iff] at hk
    rw [hdoomed, List.mem_map] at hdoom
    obtain ⟨d', hd', hid⟩ := hdoom
    have hd'l : d' ∈ l := (mem_closedOf.mp (hperm.mem_iff.mp (List.mem_of_mem_take hd'))).1
    obtain rfl : d' = d := List.inj_on_of_nodup_map hnodup hd'l hd hid
    have hkdrop : k ∈ sorted.drop ((closedOf l).length - maxClosedPerList) := by
      rw [← hdrop, List.mem_filter, decide_eq_true_iff]
      exact ⟨hperm.mem_iff.mpr (mem_closedOf.mpr ⟨hk.1, hclosed⟩), hk.2⟩
    rw [← List.take_append_drop ((closedOf l).length - maxClosedPerList) sorted,
      List.pairwise_append] at hpair
    exact hpair.2.2 d' hd' k hkdrop

end eviction

/-! ## The invariant -/

section mirrors

variable {toLowerCase : String → String} {fold : Char → Char} {q : TracksQuery}
  {asked : TrackQuery}

/-- How many stored tracks match. -/
def matching (fold : Char → Char) (asked : TrackQuery) (s : MemStore) : List Track :=
  s.tracks.rows.filter (MemStore.matchesTrack fold asked)

/-- The entry holds the documents of the stored tracks that match, but for those evicted, and its
total counts them all. -/
structure Mirrors (fold : Char → Char) (asked : TrackQuery) (w : ListCache) : Prop where
  sendable : ∀ t ∈ w.store.tracks.rows, Sendable t
  nodup : (w.entry.tracks.map (·.trackID)).Nodup
  entry : ∀ d, d ∈ w.entry.tracks ↔
    ∃ t ∈ matching fold asked w.store, t.trackID ∉ w.evicted ∧ d = docOf t
  evicted : ∀ id ∈ w.evicted, ∃ t ∈ matching fold asked w.store,
    t.trackID = id ∧ t.state = "CLOSED"
  total : w.entry.total = (matching fold asked w.store).length

theorem mem_matching {s : MemStore} {t : Track} : t ∈ matching fold asked s ↔
    t ∈ s.tracks.rows ∧ MemStore.matchesTrack fold asked t = true := List.mem_filter

/-- The store after a track is put. -/
def putTrack (s : MemStore) (t : Track) : MemStore := { s with tracks := s.tracks.put t }

theorem ingested_update (s : MemStore) {t : Track} (ht : Sendable t) :
    ingested s (.update t) = putTrack s t := by
  rw [ingested, MemStore.upsertTrack, if_neg ht.1]
  rfl

/-- The closed track. -/
def closedTrack (t : Track) : Track := { t with state := "CLOSED" }

theorem ingested_closed {s : MemStore} {id : GoBytes} {t : Track} (h : s.tracks.get id = some t)
    (ht : Sendable t) : ingested s (.closed id) = putTrack s (closedTrack t) := by
  rw [ingested, h]
  dsimp only
  rw [MemStore.upsertTrack, if_neg ht.1]
  rfl

variable {w : ListCache} {t : Track}

/-- Whether the entry has a track that was not evicted. -/
theorem Mirrors.mem_iff (h : Mirrors fold asked w) {id : GoBytes} (hid : id ∉ w.evicted) :
    (∃ d ∈ w.entry.tracks, d.trackID = id) ↔
      ∃ t, w.store.tracks.get id = some t ∧ MemStore.matchesTrack fold asked t = true := by
  constructor
  · rintro ⟨d, hd, rfl⟩
    obtain ⟨t, ht, -, rfl⟩ := (h.entry d).mp hd
    exact ⟨t, Keyed.mem_rows.mp (mem_matching.mp ht).1, (mem_matching.mp ht).2⟩
  · rintro ⟨t, ht, hmatch⟩
    have hkey : t.trackID = id := Keyed.key_of_get ht
    refine ⟨docOf t, (h.entry _).mpr ⟨t, mem_matching.mpr ⟨Keyed.mem_rows_of_get ht, hmatch⟩, ?_,
      rfl⟩, hkey⟩
    rwa [hkey]

/-- **One track is put.**  What is left to show of the new entry. -/
theorem Mirrors.put (h : Mirrors fold asked w) (ht : Sendable t) (hnew : t.trackID ∉ w.evicted)
    (e : TracksResponse) (more : List GoBytes) (hnodup : (e.tracks.map (·.trackID)).Nodup)
    (hmem : ∀ d, d ∈ e.tracks ↔ (d ∈ w.entry.tracks ∧ d.trackID ≠ t.trackID ∨
      MemStore.matchesTrack fold asked t = true ∧ d = docOf t) ∧ d.trackID ∉ more)
    (hmore : ∀ id ∈ more, ∃ d, (d ∈ w.entry.tracks ∧ d.trackID ≠ t.trackID ∨
      MemStore.matchesTrack fold asked t = true ∧ d = docOf t) ∧ d.state = "CLOSED" ∧
        d.trackID = id)
    (htotal : e.total = (matching fold asked (putTrack w.store t)).length) :
    Mirrors fold asked ⟨putTrack w.store t, e, w.evicted ++ more⟩ := by
  have hrows (u : Track) : u ∈ matching fold asked (putTrack w.store t) ↔
      (u ∈ matching fold asked w.store ∧ u.trackID ≠ t.trackID) ∨
        (MemStore.matchesTrack fold asked t = true ∧ u = t) := by
    rw [mem_matching, mem_matching, putTrack, Keyed.mem_rows_put]
    constructor
    · rintro ⟨rfl | hu, hmatch⟩
      · exact .inr ⟨hmatch, rfl⟩
      · exact .inl ⟨⟨hu.1, hmatch⟩, hu.2⟩
    · rintro (⟨⟨hu, hmatch⟩, hne⟩ | ⟨hmatch, rfl⟩)
      · exact ⟨.inr ⟨hu, hne⟩, hmatch⟩
      · exact ⟨.inl rfl, hmatch⟩
  -- the documents on either side, before those evicted now are taken away
  have hdocs (d : TrackDoc) : (d ∈ w.entry.tracks ∧ d.trackID ≠ t.trackID ∨
      MemStore.matchesTrack fold asked t = true ∧ d = docOf t) ↔
        ∃ u ∈ matching fold asked (putTrack w.store t), u.trackID ∉ w.evicted ∧ d = docOf u := by
    constructor
    · rintro (⟨hd, hne⟩ | ⟨hmatch, rfl⟩)
      · obtain ⟨u, hu, hev, rfl⟩ := (h.entry d).mp hd
        exact ⟨u, (hrows u).mpr (.inl ⟨hu, hne⟩), hev, rfl⟩
      · exact ⟨t, (hrows t).mpr (.inr ⟨hmatch, rfl⟩), hnew, rfl⟩
    · rintro ⟨u, hu, hev, rfl⟩
      rcases (hrows u).mp hu with ⟨hu, hne⟩ | ⟨hmatch, rfl⟩
      · exact .inl ⟨(h.entry _).mpr ⟨u, hu, hev, rfl⟩, hne⟩
      · exact .inr ⟨hmatch, rfl⟩
  refine ⟨fun u hu ↦ ?_, hnodup, fun d ↦ ?_, fun id hid ↦ ?_, htotal⟩
  · rcases Keyed.mem_rows_put.mp hu with rfl | hu
    · exact ht
    · exact h.sendable u hu.1
  · rw [hmem, hdocs]
    constructor
    · rintro ⟨⟨u, hu, hev, rfl⟩, hmore⟩
      exact ⟨u, hu, fun hcon ↦ (List.mem_append.mp hcon).elim hev hmore, rfl⟩
    · rintro ⟨u, hu, hev, rfl⟩
      exact ⟨⟨u, hu, fun hcon ↦ hev (List.mem_append_left _ hcon), rfl⟩,
        fun hcon ↦ hev (List.mem_append_right _ hcon)⟩
  · rcases List.mem_append.mp hid with hid | hid
    · obtain ⟨u, hu, huid, hclosed⟩ := h.evicted id hid
      refine ⟨u, (hrows u).mpr (.inl ⟨hu, fun heq ↦ hnew ?_⟩), huid, hclosed⟩
      rwa [← heq, huid]
    · obtain ⟨d, hd, hclosed, hdid⟩ := hmore id hid
      obtain ⟨u, hu, -, rfl⟩ := (hdocs d).mp hd
      exact ⟨u, hu, hdid, hclosed⟩

/-- How many stored tracks match, after one is put. -/
theorem length_matching_put (fold : Char → Char) (asked : TrackQuery) (s : MemStore) (t : Track) :
    (matching fold asked (putTrack s t)).length +
        ((s.tracks.get t.trackID).toList.filter (MemStore.matchesTrack fold asked)).length =
      (matching fold asked s).length + ([t].filter (MemStore.matchesTrack fold asked)).length :=
  Keyed.length_filter_put _ t

/-- Nothing is counted under the id of a track that the entry has not. -/
theorem Mirrors.none_counted (h : Mirrors fold asked w) {id : GoBytes} (hid : id ∉ w.evicted)
    (habsent : ∀ d ∈ w.entry.tracks, d.trackID ≠ id) :
    ((w.store.tracks.get id).toList.filter (MemStore.matchesTrack fold asked)).length = 0 := by
  rcases hget : w.store.tracks.get id with _ | u
  · rfl
  · have hu : MemStore.matchesTrack fold asked u ≠ true := fun hmatch ↦ by
      obtain ⟨d, hd, hdid⟩ := (h.mem_iff hid).mpr ⟨u, hget, hmatch⟩
      exact habsent d hd hdid
    simp [hu]

/-- One is counted under the id of a track that it has. -/
theorem Mirrors.one_counted (h : Mirrors fold asked w) {id : GoBytes} (hid : id ∉ w.evicted)
    {d : TrackDoc} (hd : d ∈ w.entry.tracks) (hdid : d.trackID = id) :
    ((w.store.tracks.get id).toList.filter (MemStore.matchesTrack fold asked)).length = 1 := by
  obtain ⟨u, hget, hmatch⟩ := (h.mem_iff hid).mp ⟨d, hd, hdid⟩
  rw [hget]
  simp [hmatch]

/-- A track that does not match is put where the entry has none. -/
theorem Mirrors.skip (h : Mirrors fold asked w) (ht : Sendable t) (hnew : t.trackID ∉ w.evicted)
    (habsent : ∀ d ∈ w.entry.tracks, d.trackID ≠ t.trackID)
    (hp : MemStore.matchesTrack fold asked t = false) :
    Mirrors fold asked ⟨putTrack w.store t, w.entry, w.evicted⟩ := by
  have hcount := length_matching_put fold asked w.store t
  rw [h.none_counted hnew habsent] at hcount
  have hput := h.put ht hnew w.entry [] h.nodup (fun d ↦ ?_)
    (fun _ hid ↦ (nomatch hid)) (by simp [hp] at hcount; rw [hcount, h.total])
  · rwa [List.append_nil] at hput
  · simp only [hp, Bool.false_eq_true, false_and, or_false, List.not_mem_nil, not_false_eq_true,
      and_true]
    exact ⟨fun hd ↦ ⟨hd, habsent d hd⟩, fun hd ↦ hd.1⟩

/-- A track that matches is put where the entry has none. -/
theorem Mirrors.append (h : Mirrors fold asked w) (ht : Sendable t)
    (hnew : t.trackID ∉ w.evicted) (habsent : ∀ d ∈ w.entry.tracks, d.trackID ≠ t.trackID)
    (hp : MemStore.matchesTrack fold asked t = true) :
    Mirrors fold asked ⟨putTrack w.store t,
      ⟨evictExcessClosed (w.entry.tracks ++ [docOf t]), w.entry.total + 1⟩,
      w.evicted ++ doomed (w.entry.tracks ++ [docOf t])⟩ := by
  have hcount := length_matching_put fold asked w.store t
  rw [h.none_counted hnew habsent] at hcount
  have hlist (d : TrackDoc) : d ∈ w.entry.tracks ++ [docOf t] ↔
      (d ∈ w.entry.tracks ∧ d.trackID ≠ t.trackID ∨
        MemStore.matchesTrack fold asked t = true ∧ d = docOf t) := by
    rw [List.mem_append, List.mem_singleton]
    exact or_congr ⟨fun hd ↦ ⟨hd, habsent d hd⟩, fun hd ↦ hd.1⟩
      ⟨fun hd ↦ ⟨hp, hd⟩, fun hd ↦ hd.2⟩
  refine h.put ht hnew _ _ ?_ (fun d ↦ ?_) (fun id hid ↦ ?_)
    (by simp [hp] at hcount; rw [hcount, h.total])
  · rw [evictExcessClosed_eq]
    refine List.Nodup.sublist (List.filter_sublist.map _) ?_
    rw [List.map_append, List.map_singleton]
    refine h.nodup.append (List.nodup_singleton _) (List.disjoint_singleton.mpr fun hmem ↦ ?_)
    obtain ⟨d, hd, hdid⟩ := List.mem_map.mp hmem
    exact habsent d hd hdid
  · rw [evictExcessClosed_eq, List.mem_filter, decide_eq_true_iff, hlist]
  · obtain ⟨d, hd, hclosed, hdid⟩ := closed_of_doomed hid
    exact ⟨d, (hlist d).mp hd, hclosed, hdid⟩

/-- A track that matches is put where the entry has one. -/
theorem Mirrors.replace (h : Mirrors fold asked w) (ht : Sendable t)
    (hnew : t.trackID ∉ w.evicted) {i : ℕ} (hi : indexOf w.entry t.trackID = some i)
    (hp : MemStore.matchesTrack fold asked t = true) :
    Mirrors fold asked ⟨putTrack w.store t,
      { w.entry with tracks := w.entry.tracks.set i (docOf t) }, w.evicted⟩ := by
  obtain ⟨old, hold, hid⟩ := indexOf_eq_some hi
  have hcount := length_matching_put fold asked w.store t
  rw [h.one_counted hnew (List.mem_of_getElem? hold) hid] at hcount
  have hput := h.put ht hnew { w.entry with tracks := w.entry.tracks.set i (docOf t) } []
    (nodup_set h.nodup hold hid) (fun d ↦ ?_) (fun _ hid ↦ (nomatch hid))
    (by simp [hp] at hcount; rw [hcount, h.total])
  · rwa [List.append_nil] at hput
  · show d ∈ w.entry.tracks.set i (docOf t) ↔ _
    rw [mem_set h.nodup hold hid]
    simp only [hp, true_and, List.not_mem_nil, not_false_eq_true, and_true]
    exact or_comm

/-- A track that does not match is put where the entry has one. -/
theorem Mirrors.remove (h : Mirrors fold asked w) (ht : Sendable t)
    (hnew : t.trackID ∉ w.evicted) {i : ℕ} (hi : indexOf w.entry t.trackID = some i)
    (hp : MemStore.matchesTrack fold asked t = false) :
    Mirrors fold asked ⟨putTrack w.store t, without w.entry t.trackID, w.evicted⟩ := by
  obtain ⟨old, hold, hid⟩ := indexOf_eq_some hi
  have hcount := length_matching_put fold asked w.store t
  rw [h.one_counted hnew (List.mem_of_getElem? hold) hid] at hcount
  have hput := h.put ht hnew (without w.entry t.trackID) []
    (h.nodup.sublist (List.filter_sublist.map _)) (fun d ↦ ?_) (fun _ hid ↦ (nomatch hid)) ?_
  · rwa [List.append_nil] at hput
  · rw [without, List.mem_filter, decide_eq_true_iff]
    simp [hp]
  · show w.entry.total - 1 = _
    simp [hp] at hcount
    rw [h.total]
    omega

/-- The same tracks are stored. -/
theorem Mirrors.congr (h : Mirrors fold asked w) {s : MemStore}
    (hrows : ∀ u, u ∈ s.tracks.rows ↔ u ∈ w.store.tracks.rows) :
    Mirrors fold asked ⟨s, w.entry, w.evicted⟩ := by
  have hmatching (u : Track) : u ∈ matching fold asked s ↔ u ∈ matching fold asked w.store := by
    rw [mem_matching, mem_matching, hrows]
  have hperm : (matching fold asked s).Perm (matching fold asked w.store) :=
    (List.perm_ext_iff_of_nodup (s.tracks.nodup_rows.filter _)
      (w.store.tracks.nodup_rows.filter _)).mpr hmatching
  refine ⟨fun u hu ↦ h.sendable u ((hrows u).mp hu), h.nodup, fun d ↦ ?_, fun id hid ↦ ?_,
    h.total.trans hperm.length_eq.symm⟩
  · simp only [hmatching]
    exact h.entry d
  · simp only [hmatching]
    exact h.evicted id hid

end mirrors

/-! ## Frames that follow -/

/-- The frame does not tell the two filters apart, brings no closed track into the query by closing
it, and is not about an evicted track; and the closed tracks that an eviction chooses from can be
told apart by the texts of `last_seen`. -/
def Follows (toLowerCase : String → String) (fold : Char → Char) (q : TracksQuery)
    (asked : TrackQuery) (w : ListCache) : TrackFrame → Prop
  | .update t => Mirrored toLowerCase fold q asked t ∧ t.trackID ∉ w.evicted ∧
    (evictedBy toLowerCase q w.entry (docOf t) ≠ [] →
      ∀ t₁ ∈ (putTrack w.store t).tracks.rows, ∀ t₂ ∈ (putTrack w.store t).tracks.rows,
        docOf t₁ ∈ closedOf (w.entry.tracks ++ [docOf t]) →
          docOf t₂ ∈ closedOf (w.entry.tracks ++ [docOf t]) →
            GoTime.Tellable t₁.lastSeen t₂.lastSeen)
  | .closed id => ∀ t, w.store.tracks.get id = some t → t.state ≠ "CLOSED" →
    if MemStore.matchesTrack fold asked t then Mirrored toLowerCase fold q asked (closedTrack t)
    else MemStore.matchesTrack fold asked (closedTrack t) = false

section step

variable {toLowerCase : String → String} {fold : Char → Char} {q : TracksQuery}
  {asked : TrackQuery} {w : ListCache}

theorem mirrors_update (hr : q.Rendered) (hq : Asked q asked) (h : Mirrors fold asked w)
    {t : Track} (ht : Sendable t) (hf : Follows toLowerCase fold q asked w (.update t)) :
    Mirrors fold asked (w.step toLowerCase q (.update t)) := by
  obtain ⟨hmirrored, hnew, -⟩ := hf
  have hfits : matchesQuery toLowerCase (docOf t) q = MemStore.matchesTrack fold asked t :=
    matchesQuery_docOf hr hq ht.2 hmirrored
  rw [ListCache.step, ingested_update w.store ht, applyUpdate, evictedBy, hfits]
  have hid : (docOf t).trackID = t.trackID := rfl
  rw [hid]
  rcases hi : indexOf w.entry t.trackID with _ | i
  · have habsent := indexOf_eq_none.mp hi
    rcases hp : MemStore.matchesTrack fold asked t with _ | _
    · simp only [Bool.false_eq_true, and_false, if_false, List.append_nil]
      exact h.skip ht hnew habsent hp
    · simp only [and_self, if_true]
      exact h.append ht hnew habsent hp
  · rcases hp : MemStore.matchesTrack fold asked t with _ | _
    · simp only [reduceCtorEq, false_and, if_false, List.append_nil]
      exact h.remove ht hnew hi hp
    · simp only [reduceCtorEq, false_and, if_false, List.append_nil]
      exact h.replace ht hnew hi hp

theorem mirrors_closed (hr : q.Rendered) (hq : Asked q asked) (h : Mirrors fold asked w)
    {id : GoBytes} (hf : Follows toLowerCase fold q asked w (.closed id)) :
    Mirrors fold asked (w.step toLowerCase q (.closed id)) := by
  rw [ListCache.step]
  rcases hget : w.store.tracks.get id with _ | t
  · have hstore : ingested w.store (.closed id) = w.store := by rw [ingested, hget]
    have habsent : indexOf w.entry id = none := by
      refine indexOf_eq_none.mpr fun d hd hdid ↦ ?_
      obtain ⟨u, hu, -, rfl⟩ := (h.entry d).mp hd
      have huget := Keyed.mem_rows.mp (mem_matching.mp hu).1
      rw [show u.trackID = id from hdid, hget] at huget
      cases huget
    rw [hstore, applyClosed, habsent]
    exact h
  · have hkey : t.trackID = id := Keyed.key_of_get hget
    have hsend : Sendable t := h.sendable t (Keyed.mem_rows_of_get hget)
    have hsend' : Sendable (closedTrack t) := hsend
    -- what the entry has under the id is the document of the stored track
    have hdoc {d : TrackDoc} (hd : d ∈ w.entry.tracks) (hdid : d.trackID = id) :
        d = docOf t ∧ MemStore.matchesTrack fold asked t = true := by
      obtain ⟨u, hu, -, rfl⟩ := (h.entry d).mp hd
      have huget := Keyed.mem_rows.mp (mem_matching.mp hu).1
      rw [show u.trackID = id from hdid, hget] at huget
      obtain rfl := Option.some.inj huget
      exact ⟨rfl, (mem_matching.mp hu).2⟩
    rw [ingested_closed hget hsend]
    by_cases hclosed : t.state = "CLOSED"
    · have hsame : closedTrack t = t := by
        rw [closedTrack, ← hclosed]
      have hentry : applyClosed toLowerCase q w.entry id = w.entry := by
        rw [applyClosed]
        rcases hi : indexOf w.entry id with _ | i
        · rfl
        · obtain ⟨d, hd, hdid⟩ := indexOf_eq_some hi
          obtain ⟨rfl, -⟩ := hdoc (List.mem_of_getElem? hd) hdid
          simp only [hd]
          exact if_pos hclosed
      rw [hentry, hsame]
      refine h.congr fun u ↦ ?_
      rw [putTrack, Keyed.mem_rows_put]
      refine ⟨?_, fun hu ↦ ?_⟩
      · rintro (rfl | hu)
        · exact Keyed.mem_rows_of_get hget
        · exact hu.1
      · by_cases hid : u.trackID = t.trackID
        · have huget := Keyed.mem_rows.mp hu
          rw [hid, hkey, hget] at huget
          exact .inl (Option.some.inj huget).symm
        · exact .inr ⟨hu, hid⟩
    · have hnew : (closedTrack t).trackID ∉ w.evicted := by
        intro hmem
        obtain ⟨u, hu, huid, huclosed⟩ := h.evicted _ hmem
        have huget := Keyed.mem_rows.mp (mem_matching.mp hu).1
        rw [huid, show (closedTrack t).trackID = id from hkey, hget] at huget
        obtain rfl := Option.some.inj huget
        exact hclosed huclosed
      have hcond := hf t hget hclosed
      rw [applyClosed]
      rcases hi : indexOf w.entry id with _ | i
      · have habsent := indexOf_eq_none.mp hi
        rw [← hkey] at habsent hget
        have hnot : MemStore.matchesTrack fold asked t ≠ true := fun hmatch ↦ by
          obtain ⟨d, hd, hdid⟩ := (h.mem_iff hnew).mpr ⟨t, hget, hmatch⟩
          exact habsent d hd hdid
        rw [if_neg hnot] at hcond
        exact h.skip hsend' hnew habsent hcond
      · obtain ⟨d, hd, hdid⟩ := indexOf_eq_some hi
        obtain ⟨rfl, hmatch⟩ := hdoc (List.mem_of_getElem? hd) hdid
        rw [if_pos hmatch] at hcond
        have hfits : matchesQuery toLowerCase (docOf (closedTrack t)) q =
            MemStore.matchesTrack fold asked (closedTrack t) :=
          matchesQuery_docOf hr hq hsend.2 hcond
        have hdocClosed : { docOf t with state := "CLOSED" } = docOf (closedTrack t) := rfl
        rw [← hkey] at hi
        simp only [hd]
        rw [if_neg (show (docOf t).state ≠ "CLOSED" from hclosed), hdocClosed, hfits]
        rcases hp : MemStore.matchesTrack fold asked (closedTrack t) with _ | _
        · simp only [Bool.not_false, if_true]
          rw [← hkey]
          exact h.remove hsend' hnew hi hp
        · simp only [Bool.not_true, Bool.false_eq_true, if_false]
          exact h.replace hsend' hnew hi hp

/-- An eviction by an update chooses from a list of documents of stored tracks. -/
theorem evicts (h : Mirrors fold asked w) {t : Track}
    (hpresent : indexOf w.entry t.trackID = none) :
    ((w.entry.tracks ++ [docOf t]).map (·.trackID)).Nodup ∧
      ∀ d ∈ w.entry.tracks ++ [docOf t], ∃ u ∈ (putTrack w.store t).tracks.rows, d = docOf u := by
  have habsent := indexOf_eq_none.mp hpresent
  constructor
  · rw [List.map_append, List.map_singleton]
    refine h.nodup.append (List.nodup_singleton _) (List.disjoint_singleton.mpr fun hmem ↦ ?_)
    obtain ⟨d, hd, hdid⟩ := List.mem_map.mp hmem
    exact habsent d hd hdid
  · intro d hd
    rcases List.mem_append.mp hd with hd | hd
    · obtain ⟨u, hu, -, rfl⟩ := (h.entry d).mp hd
      exact ⟨u, Keyed.mem_rows_put.mpr (.inr ⟨(mem_matching.mp hu).1, habsent _ hd⟩), rfl⟩
    · exact ⟨t, Keyed.mem_rows_put.mpr (.inl rfl), List.mem_singleton.mp hd⟩

/-- **What an update evicts** is closed, and was not seen later than any closed track that it
keeps; and it keeps as many as it may. -/
theorem evicted_oldest (h : Mirrors fold asked w) {t : Track} (ht : Sendable t)
    (hf : Follows toLowerCase fold q asked w (.update t))
    (hevicts : evictedBy toLowerCase q w.entry (docOf t) ≠ []) :
    (closedOf (w.step toLowerCase q (.update t)).entry.tracks).length = maxClosedPerList ∧
    ∀ t₁ ∈ (w.step toLowerCase q (.update t)).store.tracks.rows,
      t₁.trackID ∈ evictedBy toLowerCase q w.entry (docOf t) → t₁.state = "CLOSED" ∧
        ∀ t₂ ∈ (w.step toLowerCase q (.update t)).store.tracks.rows,
          docOf t₂ ∈ (w.step toLowerCase q (.update t)).entry.tracks → t₂.state = "CLOSED" →
            t₁.lastSeen ≤ t₂.lastSeen := by
  obtain ⟨-, -, htell⟩ := hf
  have htell := htell hevicts
  have hcond : indexOf w.entry t.trackID = none ∧
      matchesQuery toLowerCase (docOf t) q = true := by
    by_contra hnot
    exact hevicts (if_neg hnot)
  have hdoomed : evictedBy toLowerCase q w.entry (docOf t) =
      doomed (w.entry.tracks ++ [docOf t]) := if_pos hcond
  have hentry : (w.step toLowerCase q (.update t)).entry.tracks =
      evictExcessClosed (w.entry.tracks ++ [docOf t]) := by
    show (applyUpdate toLowerCase q w.entry (docOf t)).tracks = _
    rw [applyUpdate, show indexOf w.entry (docOf t).trackID = none from hcond.1, hcond.2]
    rfl
  have hstore : (w.step toLowerCase q (.update t)).store = putTrack w.store t :=
    ingested_update w.store ht
  rw [hdoomed] at hevicts
  rw [hdoomed, hentry, hstore]
  obtain ⟨hnodup, hdocs⟩ := evicts h hcond.1
  have hmany : maxClosedPerList < (closedOf (w.entry.tracks ++ [docOf t])).length := by
    by_contra hle
    refine hevicts ?_
    rw [doomed, Nat.sub_eq_zero_of_le (not_lt.mp hle), List.take_zero, List.map_nil]
  obtain ⟨hkept, hnewest⟩ := evict_newest hnodup hmany
  have hput : ∀ u ∈ (putTrack w.store t).tracks.rows, Sendable u := fun u hu ↦
    (Keyed.mem_rows_put.mp hu).elim (fun heq ↦ heq ▸ ht) fun hu ↦ h.sendable u hu.1
  refine ⟨hkept, fun t₁ h₁ hid ↦ ?_⟩
  obtain ⟨d, hd, hclosed, hdid⟩ := closed_of_doomed hid
  obtain ⟨u, hu, rfl⟩ := hdocs d hd
  have hut : u = t₁ := by
    have hget := Keyed.mem_rows.mp hu
    rw [show u.trackID = t₁.trackID from hdid, Keyed.mem_rows.mp h₁] at hget
    exact (Option.some.inj hget).symm
  subst hut
  refine ⟨hclosed, fun t₂ h₂ hkeep hclosed₂ ↦ ?_⟩
  have hmem₂ : docOf t₂ ∈ w.entry.tracks ++ [docOf t] := by
    rw [evictExcessClosed_eq] at hkeep
    exact (List.mem_filter.mp hkeep).1
  have htexts := hnewest _ hd _ hkeep hid hclosed₂
  rw [show (docOf t₂).lastSeen < (docOf u).lastSeen ↔ t₂.lastSeen < u.lastSeen from
    GoTime.formatRFC3339Nano_lt_iff (hput t₂ h₂).2 (hput u h₁).2
      (htell t₂ h₂ u h₁ (mem_closedOf.mpr ⟨hmem₂, hclosed₂⟩) (mem_closedOf.mpr ⟨hd, hclosed⟩))]
    at htexts
  exact not_lt.mp htexts

end step

/-! ## Runs -/

section run

variable {toLowerCase : String → String} {fold : Char → Char} {q : TracksQuery}
  {asked : TrackQuery} {tr : List (Step ListCache TrackFrame)} {w : ListCache}

theorem listTracks_total (hq : Asked q asked) (s : MemStore) :
    (s.listTracks fold asked).total = (matching fold asked s).length := by
  have hsorted (rows : List Track) (less : Track → Track → Bool) :
      (sortSlice less rows).length = rows.length := (List.perm_insertionSort _ rows).length_eq
  rw [MemStore.listTracks]
  simp only [hq.skipTotal, Bool.false_eq_true, if_false, paginate]
  split <;> exact hsorted _ _

/-- An answer that its limit does not cut off has all that match. -/
theorem listTracks_perm (hq : Asked q asked) {s : MemStore}
    (hle : (s.listTracks fold asked).total ≤ limitOf asked.limit) :
    (s.listTracks fold asked).rows.Perm (matching fold asked s) := by
  rw [listTracks_total hq] at hle
  have hperm : (sortSlice (newer Track.lastSeen Track.trackID) (matching fold asked s)).Perm
      (matching fold asked s) := List.perm_insertionSort _ _
  have hcut : ¬limitOf asked.limit <
      (sortSlice (newer Track.lastSeen Track.trackID) (matching fold asked s)).length := by
    rw [hperm.length_eq]
    exact not_lt.mpr hle
  rw [matching] at hperm hcut ⊢
  rw [MemStore.listTracks]
  simp only [paginate, hq.cursor, kept]
  rw [if_neg hcut]
  exact hperm

theorem mirrors_init (hq : Asked q asked)
    (h : (listCache toLowerCase fold q asked).init w) : Mirrors fold asked w := by
  obtain ⟨hentry, hevicted, hle, hsend⟩ := h
  rw [hentry] at hle
  have hperm := listTracks_perm hq hle
  refine ⟨hsend, ?_, fun d ↦ ?_, fun id hid ↦ ?_, ?_⟩
  · rw [hentry, answer, List.map_map]
    refine (hperm.map _).nodup_iff.mpr ?_
    exact w.store.tracks.nodup_keys.sublist (List.filter_sublist.map _)
  · rw [hentry, answer, hevicted, List.mem_map]
    refine ⟨?_, ?_⟩
    · rintro ⟨t, ht, rfl⟩
      exact ⟨t, hperm.mem_iff.mp ht, List.not_mem_nil, rfl⟩
    · rintro ⟨t, ht, -, rfl⟩
      exact ⟨t, hperm.mem_iff.mpr ht, rfl⟩
  · rw [hevicted] at hid
    cases hid
  · rw [hentry]
    exact listTracks_total hq w.store

theorem mirrors_of_run (hq : serverQuery q = some asked) (hr : q.Rendered)
    (h : (listCache toLowerCase fold q asked).Run tr w)
    (hf : ∀ x ∈ tr, Follows toLowerCase fold q asked x.pre x.act) : Mirrors fold asked w := by
  have hasked := asked_of_serverQuery hq
  refine h.invariant_of (C := Follows toLowerCase fold q asked) hf
    (fun w hw ↦ mirrors_init hasked hw) fun w f w' hm hf hn ↦ ?_
  obtain ⟨hsend, rfl⟩ := hn
  cases f with
  | update t => exact mirrors_update hr hasked hm (hsend t rfl) hf
  | closed id => exact mirrors_closed hr hasked hm hf

/-- **Pushed frames keep a list equal to the server's.**  After any frames that follow, the entry
has the documents of the tracks that `ListTracks` now returns, if its limit does not cut them off,
each once, but for those evicted, and its total is theirs.  What was evicted is closed; an eviction
keeps as many closed tracks as it may, and none that was seen last before one that it drops. -/
theorem cache_follows (toLowerCase : String → String) (fold : Char → Char)
    (hq : serverQuery q = some asked) (hr : q.Rendered)
    (h : (listCache toLowerCase fold q asked).Run tr w)
    (hf : ∀ x ∈ tr, Follows toLowerCase fold q asked x.pre x.act) :
    (w.entry.tracks.map (·.trackID)).Nodup ∧
    w.entry.total = (w.store.listTracks fold asked).total ∧
    ((w.store.listTracks fold asked).total ≤ limitOf asked.limit → ∀ d, d ∈ w.entry.tracks ↔
      ∃ t ∈ (w.store.listTracks fold asked).rows, t.trackID ∉ w.evicted ∧ d = docOf t) ∧
    (∀ id ∈ w.evicted, ∃ t, w.store.tracks.get id = some t ∧ t.state = "CLOSED") ∧
    ∀ x ∈ tr, ∀ t, x.act = .update t → evictedBy toLowerCase q x.pre.entry (docOf t) ≠ [] →
      (closedOf x.post.entry.tracks).length = maxClosedPerList ∧
      ∀ t₁ ∈ x.post.store.tracks.rows,
        t₁.trackID ∈ evictedBy toLowerCase q x.pre.entry (docOf t) → t₁.state = "CLOSED" ∧
          ∀ t₂ ∈ x.post.store.tracks.rows, docOf t₂ ∈ x.post.entry.tracks →
            t₂.state = "CLOSED" → t₁.lastSeen ≤ t₂.lastSeen := by
  have hasked := asked_of_serverQuery hq
  have hm := mirrors_of_run hq hr h hf
  refine ⟨hm.nodup, hm.total.trans (listTracks_total hasked w.store).symm, fun hle d ↦ ?_,
    fun id hid ↦ ?_, fun x hx t hact hevicts ↦ ?_⟩
  · rw [hm.entry]
    exact exists_congr fun t ↦ and_congr_left' (listTracks_perm hasked hle).mem_iff.symm
  · obtain ⟨t, ht, rfl, hclosed⟩ := hm.evicted id hid
    exact ⟨t, Keyed.mem_rows.mp (mem_matching.mp ht).1, hclosed⟩
  · obtain ⟨tr', hsuffix, hpre, hsend, hpost⟩ := h.of_mem hx
    have hmpre := mirrors_of_run hq hr hpre fun y hy ↦
      hf y (hsuffix.subset (List.mem_cons_of_mem _ hy))
    have hfx := hf x hx
    rw [hact] at hfx hsend hpost
    rw [hpost]
    exact evicted_oldest hmpre (hsend t rfl) hfx hevicts

end run

/-! ## Runs of frames -/

/-- `toLowerCase` on texts of ASCII. -/
def lowerASCII (s : String) : String := GoString.toLower id s

/-- The start of 2024. -/
def newYear : GoTime := 63839664000000000000

/-- What the console asks for: this year's tracks. -/
def thisYear : TracksQuery := { since := some (GoTime.formatRFC3339Nano newYear) }

/-- What it asks for: the closed ones. -/
def allClosed : TracksQuery := { state := ["CLOSED"] }

/-- A track, seen last that long after the start of the year. -/
def seenAfter (nanos : ℤ) : Track where
  trackID := GoBytes.ofASCII "T1"
  firstSeen := newYear
  lastSeen := newYear + nanos

/-- An empty store, and the answer that there is nothing. -/
def nothingStored : ListCache := ⟨{}, {}, []⟩

/-- The state after the frames. -/
def frames (q : TracksQuery) (fs : List TrackFrame) : ListCache :=
  replay (ListCache.step lowerASCII q) nothingStored fs

/-- The frame can be sent. -/
def CanSend : TrackFrame → Prop
  | .update t => Sendable t
  | .closed _ => True

instance (f : TrackFrame) : Decidable (CanSend f) :=
  match f with
  | .update t => inferInstanceAs (Decidable (Sendable t))
  | .closed _ => inferInstanceAs (Decidable True)

theorem run_frames (q : TracksQuery) (asked : TrackQuery) (fs : List TrackFrame)
    (hnothing : answer id {} asked = {})
    (h : Admits (ListCache.step lowerASCII q) (fun _ f ↦ CanSend f) nothingStored fs) :
    (listCache lowerASCII id q asked).Run
      (replaySteps (ListCache.step lowerASCII q) nothingStored fs []) (frames q fs) := by
  refine Run.replay (M := listCache lowerASCII id q asked)
    (fun w f hsend ↦ ⟨fun t ht ↦ ?_, rfl⟩) fs
    (.init ⟨hnothing.symm, rfl, Nat.zero_le _, ?_⟩) h
  · subst ht
    exact hsend
  · intro t ht
    cases ht

/-- A track is seen, and a second into the year it is closed. -/
def secondFrames : List TrackFrame :=
  [.update (seenAfter 1000000000), .closed (GoBytes.ofASCII "T1")]

theorem mirrored_thisYear {t : Track} (ht : GoTime.Tellable t.lastSeen newYear)
    (hc : 0 ≤ t.confidence) :
    Mirrored lowerASCII id thisYear { since := newYear, limit := 100 } t where
  since _ _ := ⟨ht, fun h ↦ absurd h (by decide)⟩
  until' _ _ h := absurd rfl h
  serial _ _ _ _ hs := nomatch hs
  vendor _ _ _ _ _ hv := nomatch hv
  confidence _ _ _ _ _ _ := hc

theorem cache_follows_second :
    (frames thisYear secondFrames).entry = ⟨[docOf (closedTrack (seenAfter 1000000000))], 1⟩ ∧
    (frames thisYear secondFrames).entry.total =
      ((frames thisYear secondFrames).store.listTracks id { since := newYear, limit := 100 }).total
    := by
  have hasked : serverQuery thisYear = some { since := newYear, limit := 100 } := by decide
  refine ⟨by decide, (cache_follows lowerASCII id hasked ⟨?_, ?_⟩
    (run_frames thisYear _ secondFrames (by decide) (by decide))
    fun x hx ↦ ?_).2.1⟩
  · rintro b hb
    exact ⟨newYear, by decide, (Option.some.inj hb).symm⟩
  · rintro b hb
    cases hb
  · rcases List.mem_cons.mp (show x ∈ _ :: [_] from hx) with rfl | hx
    · intro t ht hopen
      have hget : (frames thisYear [.update (seenAfter 1000000000)]).store.tracks.get
          (GoBytes.ofASCII "T1") = some (seenAfter 1000000000) := by decide
      obtain rfl := Option.some.inj (hget.symm.trans ht)
      rw [if_pos (by decide)]
      exact mirrored_thisYear (by decide) (by decide)
    · obtain rfl := List.mem_singleton.mp hx
      exact ⟨mirrored_thisYear (by decide) (by decide), List.not_mem_nil,
        fun hevicts ↦ absurd (by decide) hevicts⟩

/-- **Frames that the two sides take differently.**  Half a second into the year, a track comes
before the year by its text; and a track that is closed does not come into the list of the closed
ones. -/
theorem frames_missed :
    (serverQuery thisYear = some { since := newYear, limit := 100 } ∧
      ∃ tr w, (listCache lowerASCII id thisYear { since := newYear, limit := 100 }).Run tr w ∧
        w.entry.total = 0 ∧ (w.store.listTracks id { since := newYear, limit := 100 }).total = 1) ∧
    serverQuery allClosed = some { states := ["CLOSED"], limit := 100 } ∧
      ∃ tr w, (listCache lowerASCII id allClosed { states := ["CLOSED"], limit := 100 }).Run tr w ∧
        w.entry.total = 0 ∧
          (w.store.listTracks id { states := ["CLOSED"], limit := 100 }).total = 1 := by
  refine ⟨⟨by decide, _, _, run_frames thisYear _ [.update (seenAfter 500000000)]
      (by decide) (by decide), by decide, by decide⟩,
    by decide, _, _, run_frames allClosed _ [.update (seenAfter 0),
      .closed (GoBytes.ofASCII "T1")] (by decide) (by decide), by decide,
    by decide⟩

end ClassG.Ui
