import ClassG.Store.Mem
import ClassG.Store.Sql

/-!
# What the stores hold, and their pages

What has been written decides what a store holds: `MemStore.run` and `SqlStore.run`.  The pages of
either store are the pages of `Paging` by instant and id: in memory always (`paginate_eq`), in the
database as long as the texts of the instants compare as the instants do (`sqlPage_eq`).
-/

set_option autoImplicit false

namespace ClassG.Store

/-! ## Writes -/

/-- What is written to a store. -/
inductive Write
  | upsertTrack (t : Track)
  | insertDetection (d : Detection)
  | purgeTracks (before : GoTime)
  | purgeDetections (before : GoTime)
  deriving DecidableEq, Repr

/-- The instants of what is kept have years of four digits. -/
def Write.Dated : Write → Prop
  | upsertTrack t => GoTime.InRange t.firstSeen ∧ GoTime.InRange t.lastSeen
  | insertDetection d => GoTime.InRange d.ts
  | _ => True

instance : (w : Write) → Decidable w.Dated
  | .upsertTrack _ => inferInstanceAs (Decidable (_ ∧ _))
  | .insertDetection d => inferInstanceAs (Decidable (GoTime.InRange d.ts))
  | .purgeTracks _ | .purgeDetections _ => .isTrue trivial

/-- The store after a write; one that fails changes nothing. -/
def MemStore.apply (s : MemStore) : Write → MemStore
  | .upsertTrack t => (s.upsertTrack t).getD s
  | .insertDetection d => (s.insertDetection d).getD s
  | .purgeTracks before => s.purgeTracks before
  | .purgeDetections before => s.purgeDetections before

def SqlStore.apply (s : SqlStore) : Write → SqlStore
  | .upsertTrack t => (s.upsertTrack t).getD s
  | .insertDetection d => (s.insertDetection d).getD s
  | .purgeTracks before => s.purgeTracks before
  | .purgeDetections before => s.purgeDetections before

/-- The store after the writes. -/
def MemStore.run (ws : List Write) : MemStore := ws.foldl .apply {}

def SqlStore.run (ws : List Write) : SqlStore := ws.foldl .apply {}

/-- What holds of the empty store and is kept by the writes holds after them. -/
theorem MemStore.run_induct {I : MemStore → Prop} {C : Write → Prop} (h0 : I {})
    (hs : ∀ s w, I s → C w → I (s.apply w)) {ws : List Write} (hws : ∀ w ∈ ws, C w) :
    I (MemStore.run ws) :=
  List.foldlRecOn ws _ h0 fun s hi w hw ↦ hs s w hi (hws w hw)

theorem SqlStore.run_induct {I : SqlStore → Prop} {C : Write → Prop} (h0 : I {})
    (hs : ∀ s w, I s → C w → I (s.apply w)) {ws : List Write} (hws : ∀ w ∈ ws, C w) :
    I (SqlStore.run ws) :=
  List.foldlRecOn ws _ h0 fun s hi w hw ↦ hs s w hi (hws w hw)

/-! ### What a write does to a row -/

section rows

variable {w : Write} {id : GoBytes}

/-- What a write makes of the track under an id. -/
def Write.onTrack (id : GoBytes) (old : Option Track) : Write → Option Track
  | upsertTrack t => if t.trackID ≠ [] ∧ id = t.trackID then some t else old
  | purgeTracks before => old.filter fun t ↦ !(t.lastSeen < before)
  | _ => old

/-- What a write makes of the detection under an id. -/
def Write.onDetection (id : GoBytes) (old : Option Detection) : Write → Option Detection
  | insertDetection d => if d.detectionID ≠ [] ∧ id = d.detectionID then old.or (some d) else old
  | purgeDetections before => old.filter fun d ↦ !(d.ts < before)
  | _ => old

theorem MemStore.tracks_apply (s : MemStore) :
    (s.apply w).tracks.get id = w.onTrack id (s.tracks.get id) := by
  cases w with
  | upsertTrack t =>
    by_cases ht : t.trackID = []
    · simp [apply, upsertTrack, Write.onTrack, ht]
    · simp [apply, upsertTrack, Write.onTrack, ht, Keyed.get_put]
  | insertDetection d =>
    simp only [apply, insertDetection, Write.onTrack]
    split <;> [rfl; split <;> rfl]
  | purgeTracks before => exact Keyed.get_deleteWhere
  | purgeDetections before => rfl

theorem MemStore.detections_apply (s : MemStore) :
    (s.apply w).detections.get id = w.onDetection id (s.detections.get id) := by
  cases w with
  | upsertTrack t =>
    simp only [apply, upsertTrack, Write.onDetection]
    split <;> rfl
  | insertDetection d =>
    by_cases hd : d.detectionID = []
    · simp [apply, insertDetection, Write.onDetection, hd]
    cases hold : s.detections.get d.detectionID with
    | some d' =>
      by_cases hid : id = d.detectionID <;>
        simp [apply, insertDetection, Write.onDetection, hd, hold, hid]
    | none =>
      by_cases hid : id = d.detectionID <;>
        simp [apply, insertDetection, Write.onDetection, hd, hold, hid, Keyed.get_put]
  | purgeTracks before => rfl
  | purgeDetections before => exact Keyed.get_deleteWhere

/-- What a write makes of the row of a track. -/
def Write.onTrackRow (id : GoBytes) (old : Option TrackRow) : Write → Option TrackRow
  | upsertTrack t => if t.trackID ≠ [] ∧ id = t.trackID then some (.of t) else old
  | purgeTracks before => old.filter fun r ↦ !(r.lastSeen < toDB before)
  | _ => old

/-- What a write makes of the row of a detection. -/
def Write.onDetectionRow (id : GoBytes) (old : Option DetectionRow) : Write → Option DetectionRow
  | insertDetection d =>
    if d.detectionID ≠ [] ∧ id = d.detectionID then old.or (some (.of d)) else old
  | purgeDetections before => old.filter fun r ↦ !(r.ts < toDB before)
  | _ => old

theorem SqlStore.tracks_apply (s : SqlStore) :
    (s.apply w).tracks.get id = w.onTrackRow id (s.tracks.get id) := by
  cases w with
  | upsertTrack t =>
    by_cases ht : t.trackID = []
    · simp [apply, upsertTrack, Write.onTrackRow, ht]
    · simp [apply, upsertTrack, Write.onTrackRow, ht, Keyed.get_put, TrackRow.of]
  | insertDetection d =>
    simp only [apply, insertDetection, Write.onTrackRow]
    split <;> [rfl; split <;> rfl]
  | purgeTracks before => exact Keyed.get_deleteWhere
  | purgeDetections before => rfl

theorem SqlStore.detections_apply (s : SqlStore) :
    (s.apply w).detections.get id = w.onDetectionRow id (s.detections.get id) := by
  cases w with
  | upsertTrack t =>
    simp only [apply, upsertTrack, Write.onDetectionRow]
    split <;> rfl
  | insertDetection d =>
    by_cases hd : d.detectionID = []
    · simp [apply, insertDetection, Write.onDetectionRow, hd]
    cases hold : s.detections.get d.detectionID with
    | some d' =>
      by_cases hid : id = d.detectionID <;>
        simp [apply, insertDetection, Write.onDetectionRow, hd, hold, hid]
    | none =>
      by_cases hid : id = d.detectionID <;>
        simp [apply, insertDetection, Write.onDetectionRow, hd, hold, hid, Keyed.get_put,
          DetectionRow.of]
  | purgeTracks before => rfl
  | purgeDetections before => exact Keyed.get_deleteWhere

end rows

/-! ### What holds of every row -/

/-- The condition on what is written. -/
def Write.Keeps (P : Track → Prop) (Q : Detection → Prop) : Write → Prop
  | upsertTrack t => P t
  | insertDetection d => Q d
  | _ => True

section kept

variable {P : Track → Prop} {Q : Detection → Prop} {w : Write} {id : GoBytes}

theorem Write.Keeps.onTrack {old : Option Track} (hw : w.Keeps P Q) (h : ∀ t ∈ old, P t) :
    ∀ t ∈ w.onTrack id old, P t := by
  intro t ht
  cases w with
  | upsertTrack t' =>
    rw [Write.onTrack] at ht
    split at ht
    · exact Option.some.inj ht ▸ hw
    · exact h t ht
  | purgeTracks before => exact h t (Option.filter_eq_some_iff.mp ht).1
  | insertDetection d => exact h t ht
  | purgeDetections before => exact h t ht

theorem Write.Keeps.onDetection {old : Option Detection} (hw : w.Keeps P Q) (h : ∀ d ∈ old, Q d) :
    ∀ d ∈ w.onDetection id old, Q d := by
  intro d hd
  cases w with
  | insertDetection d' =>
    rw [Write.onDetection] at hd
    split at hd
    · rcases Option.or_eq_some_iff.mp hd with hd | ⟨-, hd⟩
      · exact h d hd
      · exact Option.some.inj hd ▸ hw
    · exact h d hd
  | purgeDetections before => exact h d (Option.filter_eq_some_iff.mp hd).1
  | upsertTrack t => exact h d hd
  | purgeTracks before => exact h d hd

/-- A condition that everything written meets holds of everything in memory. -/
theorem MemStore.kept {ws : List Write} (hws : ∀ w ∈ ws, w.Keeps P Q) :
    (∀ t ∈ (run ws).tracks.rows, P t) ∧ ∀ d ∈ (run ws).detections.rows, Q d := by
  have hall : (∀ id, ∀ t ∈ (run ws).tracks.get id, P t) ∧
      ∀ id, ∀ d ∈ (run ws).detections.get id, Q d := by
    refine run_induct (I := fun s ↦ (∀ id, ∀ t ∈ s.tracks.get id, P t) ∧
      ∀ id, ∀ d ∈ s.detections.get id, Q d) ⟨by simp, by simp⟩ (fun s w hs hw ↦ ?_) hws
    refine ⟨fun id t ht ↦ ?_, fun id d hd ↦ ?_⟩
    · rw [tracks_apply] at ht
      exact hw.onTrack (hs.1 id) t ht
    · rw [detections_apply] at hd
      exact hw.onDetection (hs.2 id) d hd
  exact ⟨fun t ht ↦ hall.1 _ t (Keyed.mem_rows.mp ht),
    fun d hd ↦ hall.2 _ d (Keyed.mem_rows.mp hd)⟩

/-- A row is as it was written, and its document meets the condition. -/
theorem SqlStore.kept {ws : List Write} (hws : ∀ w ∈ ws, w.Keeps P Q) :
    (∀ r ∈ (run ws).tracks.rows, r = .of r.doc ∧ P r.doc) ∧
      ∀ r ∈ (run ws).detections.rows, r = .of r.doc ∧ Q r.doc := by
  have hall : (∀ id, ∀ r ∈ (run ws).tracks.get id, r = .of r.doc ∧ P r.doc) ∧
      ∀ id, ∀ r ∈ (run ws).detections.get id, r = .of r.doc ∧ Q r.doc := by
    refine run_induct (I := fun s ↦ (∀ id, ∀ r ∈ s.tracks.get id, r = .of r.doc ∧ P r.doc) ∧
      ∀ id, ∀ r ∈ s.detections.get id, r = .of r.doc ∧ Q r.doc) ⟨by simp, by simp⟩
      (fun s w hs hw ↦ ?_) hws
    refine ⟨fun id r hr ↦ ?_, fun id r hr ↦ ?_⟩
    · rw [tracks_apply] at hr
      cases w with
      | upsertTrack t =>
        rw [Write.onTrackRow] at hr
        split at hr
        · exact Option.some.inj hr ▸ ⟨rfl, hw⟩
        · exact hs.1 id r hr
      | purgeTracks before => exact hs.1 id r (Option.filter_eq_some_iff.mp hr).1
      | insertDetection d => exact hs.1 id r hr
      | purgeDetections before => exact hs.1 id r hr
    · rw [detections_apply] at hr
      cases w with
      | insertDetection d =>
        rw [Write.onDetectionRow] at hr
        split at hr
        · rcases Option.or_eq_some_iff.mp hr with hr | ⟨-, hr⟩
          · exact hs.2 id r hr
          · exact Option.some.inj hr ▸ ⟨rfl, hw⟩
        · exact hs.2 id r hr
      | purgeDetections before => exact hs.2 id r (Option.filter_eq_some_iff.mp hr).1
      | upsertTrack t => exact hs.2 id r hr
      | purgeTracks before => exact hs.2 id r hr
  exact ⟨fun r hr ↦ hall.1 _ r (Keyed.mem_rows.mp hr),
    fun r hr ↦ hall.2 _ r (Keyed.mem_rows.mp hr)⟩

end kept

/-! ## Pages -/

section pages

variable {ρ : Type} {ts : ρ → GoTime} {ident : ρ → GoBytes} {limit : ℤ} {cursor : Option Cursor}

/-- The place of a row in the order. -/
def keyOf (ts : ρ → GoTime) (ident : ρ → GoBytes) (r : ρ) : Key := toLex (ts r, ident r)

/-- The cursor at a place. -/
def Cursor.at (k : Key) : Cursor := ⟨(ofLex k).1, (ofLex k).2⟩

/-- A page as it is answered. -/
def listPage (p : Paging.Page ρ Key) (total : ℕ) : ListPage ρ where
  rows := p.rows
  nextCursor := (p.next.map fun k ↦ (Cursor.at k).encode).getD []
  total := total

theorem newer_iff {a b : ρ} : newer ts ident a b ↔ keyOf ts ident b < keyOf ts ident a := by
  rw [newer, keyOf, keyOf, Prod.Lex.toLex_lt_toLex]
  by_cases h : ts a = ts b
  · simp [h]
  · simp [h, Ne.symm h]

/-- `sort.Slice` puts the rows in order. -/
theorem sortSlice_newer (rows : List ρ) :
    sortSlice (newer ts ident) rows = Paging.inOrder (keyOf ts ident) rows := by
  have hle : ∀ a ∈ rows, ∀ b ∈ rows, (!newer ts ident b a) = true ↔
      keyOf ts ident (id b) ≤ keyOf ts ident (id a) := by
    intro a _ b _
    rw [Bool.not_eq_true', Bool.eq_false_iff, ne_eq, newer_iff, not_lt, id, id]
  have hmap := List.map_insertionSort (fun a b ↦ (!newer ts ident b a) = true)
    (fun a b ↦ keyOf ts ident b ≤ keyOf ts ident a) id rows hle
  rwa [List.map_id, List.map_id] at hmap

/-- **A page from memory is a page of the rows in order.** -/
theorem paginate_eq (matched : List ρ) : paginate ts ident matched limit cursor =
    listPage (Paging.page (keyOf ts ident) (limitOf limit) (cursor.map Cursor.key) matched)
      matched.length := by
  have hkept : kept ts ident cursor (Paging.inOrder (keyOf ts ident) matched) =
      Paging.after (keyOf ts ident) (cursor.map Cursor.key)
        (Paging.inOrder (keyOf ts ident) matched) := by
    cases cursor with
    | none => simp [kept, Paging.after]
    | some c =>
      refine List.filter_congr fun r _ ↦ ?_
      rw [Bool.eq_iff_iff, Cursor.before_iff, Option.map_some, Option.all_some, decide_eq_true_iff,
        keyOf]
  simp only [paginate, sortSlice_newer, Paging.length_inOrder, hkept, Paging.page, listPage]
  split
  · cases (Paging.after (keyOf ts ident) (cursor.map Cursor.key)
      (Paging.inOrder (keyOf ts ident) matched))[limitOf limit - 1]? <;> rfl
  · rename_i hle
    rw [List.take_of_length_le (by omega)]
    rfl

/-- A row for a page, as it comes from the database. -/
def PageRow.of (ts : ρ → GoTime) (ident : ρ → GoBytes) (r : ρ) : PageRow ρ :=
  ⟨r, toDB (ts r), ident r⟩

/-- The text of an instant compares with the text of a bound as the instants do. -/
structure Comparable (t u : GoTime) : Prop where
  lt : toDB t < toDB u ↔ t < u
  eq : toDB t = toDB u ↔ t = u

theorem comparable_of_inRange {t u : GoTime} (ht : GoTime.InRange t) (hu : GoTime.InRange u) :
    Comparable t u :=
  ⟨GoTime.formatFixed_lt_iff ht hu, GoTime.formatFixed_inj ht hu⟩

theorem Comparable.le {t u : GoTime} (h : Comparable t u) : toDB t ≤ toDB u ↔ t ≤ u := by
  rw [le_iff_lt_or_eq, le_iff_lt_or_eq, h.lt, h.eq]

theorem Comparable.key_lt {t u : GoTime} (h : Comparable t u) (i j : GoBytes) :
    (toLex (toDB t, i) : GoBytes ×ₗ GoBytes) < toLex (toDB u, j) ↔
      (toLex (t, i) : Key) < toLex (u, j) := by
  rw [Prod.Lex.toLex_lt_toLex, Prod.Lex.toLex_lt_toLex]
  exact or_congr h.lt (and_congr_left' h.eq)

/-- **A page from the database is a page of the rows in order**, if the texts of their instants
compare with each other and with that of the cursor as the instants do. -/
theorem sqlPage_eq {docs : List ρ} (total : ℕ) (hnodup : (docs.map (keyOf ts ident)).Nodup)
    (hdocs : ∀ r ∈ docs, GoTime.InRange (ts r))
    (hcursor : ∀ c ∈ cursor, ∀ r ∈ docs, Comparable (ts r) c.ts) :
    sqlPage (docs.map (.of ts ident)) total limit cursor =
      listPage (Paging.page (keyOf ts ident) (limitOf limit) (cursor.map Cursor.key) docs)
        total := by
  have hbehind : ∀ r ∈ docs, (behind cursor ∘ PageRow.of ts ident) r =
      (cursor.map Cursor.key).all fun k ↦ decide (keyOf ts ident r < k) := by
    intro r hr
    cases cursor with
    | none => rfl
    | some c =>
      have hlt := (hcursor c rfl r hr).key_lt (ident r) c.id
      rw [Prod.Lex.toLex_lt_toLex] at hlt
      exact decide_eq_decide.mpr hlt
  have hselect : selectPage cursor (limitOf limit + 1) (docs.map (.of ts ident)) =
      ((Paging.after (keyOf ts ident) (cursor.map Cursor.key)
        (Paging.inOrder (keyOf ts ident) docs)).take (limitOf limit + 1)).map (.of ts ident) := by
    have hle : ∀ a ∈ docs, ∀ b ∈ docs, keyOf ts ident b ≤ keyOf ts ident a ↔
        (PageRow.of ts ident b).key ≤ (PageRow.of ts ident a).key := by
      intro a ha b hb
      rw [← not_lt, ← not_lt]
      exact not_congr
        ((comparable_of_inRange (hdocs a ha) (hdocs b hb)).key_lt (ident a) (ident b)).symm
    have hsub : ∀ r ∈ docs.filter (behind cursor ∘ PageRow.of ts ident), r ∈ docs :=
      fun r hr ↦ (List.mem_filter.mp hr).1
    rw [selectPage, List.filter_map, Paging.after, ← Paging.inOrder_filter hnodup,
      List.map_take, ← List.filter_congr hbehind]
    congr 1
    exact Paging.inOrder_map fun a ha b hb ↦ hle a (hsub a ha) b (hsub b hb)
  have hrange : ∀ r ∈ Paging.after (keyOf ts ident) (cursor.map Cursor.key)
      (Paging.inOrder (keyOf ts ident) docs), GoTime.InRange (ts r) := by
    intro r hr
    rw [Paging.mem_after, Paging.mem_inOrder] at hr
    exact hdocs r hr.1
  rw [sqlPage, hselect, Paging.page, listPage]
  generalize Paging.after (keyOf ts ident) (cursor.map Cursor.key)
    (Paging.inOrder (keyOf ts ident) docs) = rest at *
  have hpos := limitOf_pos limit
  have hdoc : (fun r : PageRow ρ ↦ r.doc) ∘ PageRow.of ts ident = id := rfl
  simp only [buildPage, List.length_map, List.length_take, List.map_map, hdoc, List.map_id,
    List.take_take]
  by_cases hlt : limitOf limit < rest.length
  · have hn : limitOf limit - 1 < rest.length := by omega
    have hfrom : fromDB (toDB (ts rest[limitOf limit - 1])) = ts rest[limitOf limit - 1] :=
      fromDB_toDB (hrange _ (List.getElem_mem hn))
    rw [if_pos (by omega), if_pos hlt, List.getElem?_map,
      List.getElem?_take_of_lt (by omega), List.getElem?_eq_getElem hn, Nat.min_eq_left (by omega)]
    simp [PageRow.of, hfrom, Cursor.at, keyOf]
  · rw [if_neg (by omega), if_neg hlt, List.take_of_length_le (by omega),
      List.take_of_length_le (by omega)]
    rfl

end pages

/-! ### The lists of the stores -/

section lists

/-- The rows that match have different ids. -/
theorem nodup_matching {ν : Type} {ident : ν → GoBytes} (t : Keyed ident) (p : ν → Bool) :
    ((t.rows.filter p).map ident).Nodup :=
  t.nodup_keys.sublist (List.filter_sublist.map ident)

theorem nodup_keyOf {ρ : Type} {ts : ρ → GoTime} {ident : ρ → GoBytes} {docs : List ρ}
    (h : (docs.map ident).Nodup) : (docs.map (keyOf ts ident)).Nodup := by
  refine List.Nodup.of_map (fun k ↦ (ofLex k).2) ?_
  rw [List.map_map]
  exact h

namespace MemStore

theorem listTracks_eq (s : MemStore) (fold : Char → Char) (q : TrackQuery) :
    s.listTracks fold q = listPage (Paging.page (keyOf Track.lastSeen Track.trackID)
        (limitOf q.limit) (q.cursor.map Cursor.key) (s.tracks.rows.filter (matchesTrack fold q)))
      (if q.skipTotal then 0 else (s.tracks.rows.filter (matchesTrack fold q)).length) := by
  simp only [listTracks, paginate_eq]
  rfl

theorem listDetections_eq (s : MemStore) (q : DetectionQuery) :
    s.listDetections q = listPage (Paging.page (keyOf Detection.ts Detection.detectionID)
        (limitOf q.limit) (q.cursor.map Cursor.key) (s.detections.rows.filter (matchesDetection q)))
      (s.detections.rows.filter (matchesDetection q)).length := paginate_eq _

/-- Nothing matches a query without a serial and a MAC. -/
theorem matchesTrackDetection_empty {q : TrackDetectionQuery} (h : q.serial = "" ∧ q.macs = [])
    (d : Detection) : matchesTrackDetection q d = false := by
  simp [matchesTrackDetection, ofAircraft, h.1, h.2, set]

theorem listTrackDetections_eq (s : MemStore) (q : TrackDetectionQuery) :
    s.listTrackDetections q = listPage (Paging.page (keyOf Detection.ts Detection.detectionID)
        (limitOf q.limit) (q.cursor.map Cursor.key)
        (s.detections.rows.filter (matchesTrackDetection q)))
      (if q.skipTotal then 0
        else (s.detections.rows.filter (matchesTrackDetection q)).length) := by
  rw [listTrackDetections]
  split
  · rename_i h
    have hnone : s.detections.rows.filter (matchesTrackDetection q) = [] :=
      List.filter_eq_nil_iff.mpr fun d _ ↦ by simp [matchesTrackDetection_empty h]
    rw [hnone]
    simp [listPage, Paging.page, Paging.inOrder, Paging.after]
  · simp only [paginate_eq]
    rfl

end MemStore

namespace SqlStore

/-- The rows are as they were written, and their instants have years of four digits. -/
structure Sound (s : SqlStore) : Prop where
  tracks : ∀ r ∈ s.tracks.rows, r = .of r.doc ∧ GoTime.InRange r.doc.lastSeen
  detections : ∀ r ∈ s.detections.rows, r = .of r.doc ∧ GoTime.InRange r.doc.ts

/-- The tracks that match. -/
def tracksThat (s : SqlStore) (p : TrackRow → Bool) : List Track :=
  (s.tracks.rows.filter p).map (·.doc)

/-- The detections that match. -/
def detectionsThat (s : SqlStore) (p : DetectionRow → Bool) : List Detection :=
  (s.detections.rows.filter p).map (·.doc)

variable {s : SqlStore}

theorem Sound.nodup_tracks (h : s.Sound) (p : TrackRow → Bool) :
    ((s.tracksThat p).map Track.trackID).Nodup := by
  have hid : ∀ r ∈ s.tracks.rows.filter p, r.doc.trackID = r.trackID :=
    fun r hr ↦ by rw [(h.tracks r (List.mem_filter.mp hr).1).1]; rfl
  rw [tracksThat, List.map_map]
  exact List.map_congr_left hid ▸ nodup_matching s.tracks p

theorem Sound.nodup_detections (h : s.Sound) (p : DetectionRow → Bool) :
    ((s.detectionsThat p).map Detection.detectionID).Nodup := by
  have hid : ∀ r ∈ s.detections.rows.filter p, r.doc.detectionID = r.detectionID :=
    fun r hr ↦ by rw [(h.detections r (List.mem_filter.mp hr).1).1]; rfl
  rw [detectionsThat, List.map_map]
  exact List.map_congr_left hid ▸ nodup_matching s.detections p

theorem Sound.dated_tracks (h : s.Sound) {p : TrackRow → Bool} :
    ∀ t ∈ s.tracksThat p, GoTime.InRange t.lastSeen := by
  intro t ht
  obtain ⟨r, hr, rfl⟩ := List.mem_map.mp ht
  exact (h.tracks r (List.mem_filter.mp hr).1).2

theorem Sound.dated_detections (h : s.Sound) {p : DetectionRow → Bool} :
    ∀ d ∈ s.detectionsThat p, GoTime.InRange d.ts := by
  intro d hd
  obtain ⟨r, hr, rfl⟩ := List.mem_map.mp hd
  exact (h.detections r (List.mem_filter.mp hr).1).2

/-- The rows of a query for a page are those of the documents. -/
theorem Sound.tracks_page (h : s.Sound) (p : TrackRow → Bool) :
    (s.tracks.rows.filter p).map (·.page) =
      (s.tracksThat p).map (.of Track.lastSeen Track.trackID) := by
  rw [tracksThat, List.map_map]
  refine List.map_congr_left fun r hr ↦ ?_
  rw [(h.tracks r (List.mem_filter.mp hr).1).1]
  rfl

theorem Sound.detections_page (h : s.Sound) (p : DetectionRow → Bool) :
    (s.detections.rows.filter p).map (·.page) =
      (s.detectionsThat p).map (.of Detection.ts Detection.detectionID) := by
  rw [detectionsThat, List.map_map]
  refine List.map_congr_left fun r hr ↦ ?_
  rw [(h.detections r (List.mem_filter.mp hr).1).1]
  rfl

theorem listTracks_eq (h : s.Sound) {q : TrackQuery}
    (hcursor : ∀ c ∈ q.cursor, ∀ t ∈ s.tracksThat (matchesTrack q), Comparable t.lastSeen c.ts) :
    s.listTracks q = listPage (Paging.page (keyOf Track.lastSeen Track.trackID)
        (limitOf q.limit) (q.cursor.map Cursor.key) (s.tracksThat (matchesTrack q)))
      (if q.skipTotal then 0 else (s.tracksThat (matchesTrack q)).length) := by
  rw [listTracks]
  simp only [h.tracks_page]
  rw [sqlPage_eq _ (nodup_keyOf (h.nodup_tracks _)) h.dated_tracks hcursor, tracksThat,
    List.length_map]

theorem listDetections_eq (h : s.Sound) {q : DetectionQuery}
    (hcursor : ∀ c ∈ q.cursor, ∀ d ∈ s.detectionsThat (matchesDetection q),
      Comparable d.ts c.ts) :
    s.listDetections q = listPage (Paging.page (keyOf Detection.ts Detection.detectionID)
        (limitOf q.limit) (q.cursor.map Cursor.key) (s.detectionsThat (matchesDetection q)))
      (s.detectionsThat (matchesDetection q)).length := by
  rw [listDetections]
  simp only [h.detections_page]
  rw [sqlPage_eq _ (nodup_keyOf (h.nodup_detections _)) h.dated_detections hcursor,
    detectionsThat, List.length_map]

/-- Nothing matches a query without a serial and a MAC. -/
theorem matchesTrackDetection_empty {q : TrackDetectionQuery} (h : q.serial = "" ∧ q.macs = [])
    (r : DetectionRow) : matchesTrackDetection q r = false := by
  simp [matchesTrackDetection, h.1, h.2, nullStr, jsonSet]

theorem listTrackDetections_eq (h : s.Sound) {q : TrackDetectionQuery}
    (hcursor : ∀ c ∈ q.cursor, ∀ d ∈ s.detectionsThat (matchesTrackDetection q),
      Comparable d.ts c.ts) :
    s.listTrackDetections q = listPage (Paging.page (keyOf Detection.ts Detection.detectionID)
        (limitOf q.limit) (q.cursor.map Cursor.key) (s.detectionsThat (matchesTrackDetection q)))
      (if q.skipTotal then 0 else (s.detectionsThat (matchesTrackDetection q)).length) := by
  rw [listTrackDetections]
  split
  · rename_i hempty
    have hnone : s.detectionsThat (matchesTrackDetection q) = [] := by
      rw [detectionsThat, List.filter_eq_nil_iff.mpr fun d _ ↦ by
        simp [matchesTrackDetection_empty hempty], List.map_nil]
    rw [hnone]
    simp [listPage, Paging.page, Paging.inOrder, Paging.after]
  · simp only [h.detections_page]
    rw [sqlPage_eq _ (nodup_keyOf (h.nodup_detections _)) h.dated_detections hcursor,
      detectionsThat, List.length_map]

end SqlStore

/-- What the conditions on the writes say of the rows. -/
theorem Write.Dated.keeps {w : Write} (h : w.Dated) :
    w.Keeps (fun t ↦ GoTime.InRange t.lastSeen) (fun d ↦ GoTime.InRange d.ts) := by
  cases w with
  | upsertTrack t => exact h.2
  | insertDetection d => exact h
  | purgeTracks before => trivial
  | purgeDetections before => trivial

theorem SqlStore.sound_run {ws : List Write} (hws : ∀ w ∈ ws, w.Dated) : (run ws).Sound :=
  have h := kept fun w hw ↦ (hws w hw).keeps
  ⟨h.1, h.2⟩

end lists

end ClassG.Store
