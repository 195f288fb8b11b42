import ClassG.Store.Contents
import Mathlib.Data.Option.Defs

/-!
# Reading a list to its end

A client asks for the first page of a list and then, with the cursor that comes with each page, for
the next.  It gets every row that matches, once and in order, and it comes to an end.  What is
written meanwhile does not disturb that for the rows that stay where they are: `pages_complete`.

A row that an update moves back in time is another matter, as the client meets it again further down
(`returned_again`).  And an instant whose year has more than four digits has a cursor that cannot be
read back.
-/

set_option autoImplicit false

namespace ClassG.Store

/-! ## Lists -/

/-- A list that is read page by page. -/
structure Listing where
  Row : Type
  ts : Row → GoTime
  ident : Row → GoBytes
  /-- The rows that match, of what has been written. -/
  present : List Write → List Row
  /-- A page: the limit, and the cursor that it begins behind. -/
  list : List Write → ℤ → Option Cursor → ListPage Row

/-- The lists of the API, with what they filter by, in each of the stores. -/
inductive Endpoint
  | memTracks (fold : Char → Char) (q : TrackQuery)
  | memDetections (q : DetectionQuery)
  | memTrackDetections (q : TrackDetectionQuery)
  | sqlTracks (q : TrackQuery)
  | sqlDetections (q : DetectionQuery)
  | sqlTrackDetections (q : TrackDetectionQuery)

def Endpoint.listing : Endpoint → Listing
  | memTracks fold q =>
    { Row := Track
      ts := Track.lastSeen
      ident := Track.trackID
      present := fun ws ↦ (MemStore.run ws).tracks.rows.filter (MemStore.matchesTrack fold q)
      list := fun ws limit cursor ↦
        (MemStore.run ws).listTracks fold { q with limit := limit, cursor := cursor } }
  | memDetections q =>
    { Row := Detection
      ts := Detection.ts
      ident := Detection.detectionID
      present := fun ws ↦ (MemStore.run ws).detections.rows.filter (MemStore.matchesDetection q)
      list := fun ws limit cursor ↦
        (MemStore.run ws).listDetections { q with limit := limit, cursor := cursor } }
  | memTrackDetections q =>
    { Row := Detection
      ts := Detection.ts
      ident := Detection.detectionID
      present := fun ws ↦
        (MemStore.run ws).detections.rows.filter (MemStore.matchesTrackDetection q)
      list := fun ws limit cursor ↦
        (MemStore.run ws).listTrackDetections { q with limit := limit, cursor := cursor } }
  | sqlTracks q =>
    { Row := Track
      ts := Track.lastSeen
      ident := Track.trackID
      present := fun ws ↦
        (SqlStore.run ws).tracksThat (SqlStore.matchesTrack q)
      list := fun ws limit cursor ↦
        (SqlStore.run ws).listTracks { q with limit := limit, cursor := cursor } }
  | sqlDetections q =>
    { Row := Detection
      ts := Detection.ts
      ident := Detection.detectionID
      present := fun ws ↦
        (SqlStore.run ws).detectionsThat (SqlStore.matchesDetection q)
      list := fun ws limit cursor ↦
        (SqlStore.run ws).listDetections { q with limit := limit, cursor := cursor } }
  | sqlTrackDetections q =>
    { Row := Detection
      ts := Detection.ts
      ident := Detection.detectionID
      present := fun ws ↦
        (SqlStore.run ws).detectionsThat (SqlStore.matchesTrackDetection q)
      list := fun ws limit cursor ↦
        (SqlStore.run ws).listTrackDetections { q with limit := limit, cursor := cursor } }

namespace Listing

variable (L : Listing) (limit : ℤ)

/-- The place of a row in the list. -/
abbrev key (r : L.Row) : Key := keyOf L.ts L.ident r

/-- The `n`-th page that a client gets, if it gets that far: `h n` is what has been written when it
asks for it. -/
def walk (h : ℕ → List Write) : ℕ → Option (ListPage L.Row)
  | 0 => some (L.list (h 0) limit none)
  | n + 1 => do
    let p ← walk h n
    guard (p.nextCursor ≠ [])
    let c ← decodeCursor p.nextCursor
    return L.list (h (n + 1)) limit (some c)

/-- The rows of the `n`-th page. -/
def returned (h : ℕ → List Write) (n : ℕ) : List L.Row :=
  ((L.walk limit h n).map ListPage.rows).getD []

/-- The rows of the pages up to the `n`-th. -/
def readUpTo (h : ℕ → List Write) (n : ℕ) : List L.Row :=
  (List.range (n + 1)).flatMap (L.returned limit h)

/-- The `n`-th page is the last. -/
def Ends (h : ℕ → List Write) (n : ℕ) : Prop :=
  ∃ p, L.walk limit h n = some p ∧ p.nextCursor = []

/-- What is needed of a list: no two rows have one id, the years have four digits, and a page is a
page of the rows in order. -/
structure Lawful (L : Listing) (ws : List Write) : Prop where
  nodup : ((L.present ws).map L.ident).Nodup
  dated : ∀ r ∈ L.present ws, GoTime.InRange (L.ts r)
  list_eq (limit : ℤ) (cursor : Option Cursor) : (∀ c ∈ cursor, GoTime.InRange c.ts) →
    ∃ total, L.list ws limit cursor =
      listPage (Paging.page L.key (limitOf limit) (cursor.map Cursor.key) (L.present ws)) total

end Listing

/-! ### The lists are lawful -/

section lawful

variable {ws : List Write}

/-- **Every list is lawful**, in either store. -/
theorem Endpoint.lawful (e : Endpoint) (hws : ∀ w ∈ ws, w.Dated) : e.listing.Lawful ws := by
  have hmem := MemStore.kept fun w hw ↦ (hws w hw).keeps
  have hsql := SqlStore.sound_run hws
  cases e with
  | memTracks fold q =>
    exact ⟨nodup_matching _ _, fun t ht ↦ hmem.1 t (List.mem_filter.mp ht).1,
      fun limit cursor _ ↦ ⟨_, MemStore.listTracks_eq ..⟩⟩
  | memDetections q =>
    exact ⟨nodup_matching _ _, fun d hd ↦ hmem.2 d (List.mem_filter.mp hd).1,
      fun limit cursor _ ↦ ⟨_, MemStore.listDetections_eq ..⟩⟩
  | memTrackDetections q =>
    exact ⟨nodup_matching _ _, fun d hd ↦ hmem.2 d (List.mem_filter.mp hd).1,
      fun limit cursor _ ↦ ⟨_, MemStore.listTrackDetections_eq ..⟩⟩
  | sqlTracks q =>
    exact ⟨hsql.nodup_tracks _, hsql.dated_tracks, fun limit cursor hcursor ↦
      ⟨_, SqlStore.listTracks_eq hsql fun c hc t ht ↦
        comparable_of_inRange (hsql.dated_tracks t ht) (hcursor c hc)⟩⟩
  | sqlDetections q =>
    exact ⟨hsql.nodup_detections _, hsql.dated_detections, fun limit cursor hcursor ↦
      ⟨_, SqlStore.listDetections_eq hsql fun c hc d hd ↦
        comparable_of_inRange (hsql.dated_detections d hd) (hcursor c hc)⟩⟩
  | sqlTrackDetections q =>
    exact ⟨hsql.nodup_detections _, hsql.dated_detections, fun limit cursor hcursor ↦
      ⟨_, SqlStore.listTrackDetections_eq hsql fun c hc d hd ↦
        comparable_of_inRange (hsql.dated_detections d hd) (hcursor c hc)⟩⟩

end lawful

/-! ### A walk in the abstract -/

namespace Listing

variable {L : Listing} {limit : ℤ} {h : ℕ → List Write} {m n : ℕ}

/-- The page that is answered shows the page of the rows in order. -/
structure Shows {ρ : Type} (p : ListPage ρ) (q : Paging.Page ρ Key) : Prop where
  rows : p.rows = q.rows
  next : p.nextCursor = (q.next.map fun k ↦ (Cursor.at k).encode).getD []

theorem encode_ne_nil {c : Cursor} (hc : GoTime.InRange c.ts) : c.encode ≠ [] := by
  intro hnil
  have hc' := decodeCursor_encode hc
  rw [hnil] at hc'
  cases hc'

theorem shows_list {ws : List Write} {cursor : Option Cursor} (hL : L.Lawful ws)
    (hcursor : ∀ c ∈ cursor, GoTime.InRange c.ts) : Shows (L.list ws limit cursor)
      (Paging.page L.key (limitOf limit) (cursor.map Cursor.key) (L.present ws)) := by
  obtain ⟨total, htotal⟩ := hL.list_eq limit cursor hcursor
  rw [htotal]
  exact ⟨rfl, rfl⟩

/-- The rows that are there at each request. -/
def tables (L : Listing) (h : ℕ → List Write) (n : ℕ) : List L.Row := L.present (h n)

/-- **What a client reads is a walk through the rows in order.** -/
theorem walk_shows (limit : ℤ) (hL : ∀ n, L.Lawful (h n)) (n : ℕ) : Option.Rel Shows (L.walk limit h n)
    (Paging.walk L.key (limitOf limit) (L.tables h) n) := by
  induction n with
  | zero => exact .some (shows_list (hL 0) (by simp))
  | succ n ih =>
    rw [walk, Paging.walk]
    generalize hp : L.walk limit h n = p at ih
    generalize hq : Paging.walk L.key (limitOf limit) (L.tables h) n = q at ih
    cases ih with
    | none => exact .none
    | @some p q hshows =>
      cases hk : q.next with
      | none =>
        have hnil : p.nextCursor = [] := by rw [hshows.next, hk]; rfl
        simp [hnil, hk, guard]
      | some k =>
        obtain ⟨from', rfl⟩ := Paging.page_of_walk hq
        obtain ⟨r, hr, rfl⟩ := Paging.exists_of_next hk
        have hrange : GoTime.InRange (Cursor.at (L.key r)).ts := (hL n).dated r hr
        have hnext : p.nextCursor = (Cursor.at (L.key r)).encode := by rw [hshows.next, hk]; rfl
        have hlist : Shows (L.list (h (n + 1)) limit (some (Cursor.at (L.key r))))
            (Paging.page L.key (limitOf limit) (some (L.key r)) (L.tables h (n + 1))) :=
          shows_list (hL (n + 1)) (by simpa using hrange)
        simpa [hnext, hk, guard, encode_ne_nil hrange, decodeCursor_encode hrange] using hlist

/-- What is returned is what the walk returns. -/
theorem returned_eq (limit : ℤ) (hL : ∀ n, L.Lawful (h n)) (n : ℕ) : L.returned limit h n =
    Paging.returned L.key (limitOf limit) (L.tables h) n := by
  have hshows := walk_shows limit hL n
  rw [returned, Paging.returned]
  generalize L.walk limit h n = p at hshows ⊢
  generalize Paging.walk L.key (limitOf limit) (L.tables h) n = q at hshows ⊢
  cases hshows with
  | none => rfl
  | some hshows => exact hshows.rows

theorem readUpTo_eq (limit : ℤ) (hL : ∀ n, L.Lawful (h n)) (n : ℕ) : L.readUpTo limit h n =
    Paging.readUpTo L.key (limitOf limit) (L.tables h) n := by
  rw [readUpTo, Paging.readUpTo, funext (returned_eq limit hL)]

/-- The walk has no more pages where there is no cursor. -/
theorem ends_iff (limit : ℤ) (hL : ∀ n, L.Lawful (h n)) (n : ℕ) : L.Ends limit h n ↔
    ∃ q, Paging.walk L.key (limitOf limit) (L.tables h) n = some q ∧ q.next = none := by
  rw [Ends]
  have hshows := walk_shows limit hL n
  generalize hp : L.walk limit h n = p at hshows
  generalize hq : Paging.walk L.key (limitOf limit) (L.tables h) n = q at hshows
  cases hshows with
  | none => simp
  | @some p q hshows =>
    obtain ⟨from', rfl⟩ := Paging.page_of_walk hq
    simp only [Option.some.injEq, exists_eq_left', hshows.next]
    generalize hk : (Paging.page L.key (limitOf limit) from' (L.tables h n)).next = next
    cases next with
    | none => simp
    | some k =>
      obtain ⟨r, hr, rfl⟩ := Paging.exists_of_next hk
      simp [encode_ne_nil (c := Cursor.at (L.key r)) ((hL n).dated r hr)]

/-- A cursor that has been returned is accepted. -/
theorem goes_on (hL : ∀ n, L.Lawful (h n)) {p : ListPage L.Row} (hp : L.walk limit h n = some p) :
    L.Ends limit h n ∨ (L.walk limit h (n + 1)).isSome := by
  have hshows := walk_shows limit hL (n + 1)
  have hends := ends_iff limit hL n
  have hn := walk_shows limit hL n
  rw [hp] at hn
  generalize hq : Paging.walk L.key (limitOf limit) (L.tables h) n = q at hn hends
  cases hn with
  | @some _ q hpq =>
    cases hk : q.next with
    | none => exact .inl (hends.mpr ⟨q, rfl, hk⟩)
    | some k =>
      rw [Paging.walk_succ.mpr ⟨q, k, hq, hk, rfl⟩] at hshows
      generalize L.walk limit h (n + 1) = p' at hshows ⊢
      cases hshows with
      | some _ => exact .inr rfl

end Listing

/-! ## What a client gets -/

/-- The client gets to the end, and has got every row that matches once, in descending order. -/
structure Listing.ReadToEnd (L : Listing) (limit : ℤ) (ws : List Write) (n : ℕ) : Prop where
  ends : L.Ends limit (fun _ ↦ ws) n
  all : (L.readUpTo limit (fun _ ↦ ws) n).Perm (L.present ws)
  descending : (L.readUpTo limit (fun _ ↦ ws) n).Pairwise fun a b ↦ L.key b < L.key a

/-- What holds of a walk while things are written. -/
structure Listing.ReadMeanwhile (L : Listing) (limit : ℤ) (h : ℕ → List Write) : Prop where
  /-- Every cursor that is returned is accepted. -/
  goes_on (n : ℕ) (p : ListPage L.Row) : L.walk limit h n = some p →
    L.Ends limit h n ∨ (L.walk limit h (n + 1)).isSome
  /-- A row that is there at each request, at the same place, is returned once. -/
  stable (n : ℕ) (k : Key) : L.Ends limit h n → (∀ m ≤ n, ∃ r ∈ L.present (h m), L.key r = k) →
    ∃! m, m ≤ n ∧ ∃ r ∈ L.returned limit h m, L.key r = k
  /-- A page has no row twice. -/
  nodup (n : ℕ) : ((L.returned limit h n).map L.ident).Nodup
  /-- A row that is returned again has been moved back. -/
  moved (m n : ℕ) (r r' : L.Row) : m < n → r ∈ L.returned limit h m → r' ∈ L.returned limit h n →
    L.ident r' = L.ident r → L.ts r' < L.ts r

theorem Listing.readToEnd {L : Listing} (limit : ℤ) {ws : List Write} (hL : L.Lawful ws) :
    ∃ n, L.ReadToEnd limit ws n := by
  have hkeys : ((L.present ws).map L.key).Nodup := nodup_keyOf hL.nodup
  obtain ⟨n, q, hq, hend⟩ := Paging.walk_ends hkeys (limitOf_pos limit)
  have hread : L.readUpTo limit (fun _ ↦ ws) n = Paging.inOrder L.key (L.present ws) :=
    (L.readUpTo_eq limit (fun _ ↦ hL) n).trans
      (Paging.readUpTo_of_walk hkeys (limitOf_pos limit) hq hend)
  refine ⟨n, (ends_iff limit (fun _ ↦ hL) n).mpr ⟨q, hq, hend⟩, ?_, ?_⟩
  · rw [hread]
    exact Paging.perm_inOrder ..
  · rw [hread]
    exact Paging.inOrder_descending hkeys

theorem Listing.readMeanwhile {L : Listing} (limit : ℤ) {h : ℕ → List Write}
    (hL : ∀ n, L.Lawful (h n)) : L.ReadMeanwhile limit h := by
  have hkeys (n : ℕ) : ((L.tables h n).map L.key).Nodup := nodup_keyOf (hL n).nodup
  have hpos := limitOf_pos limit
  refine ⟨fun n p hp ↦ goes_on hL hp, fun n k hend hthere ↦ ?_, fun n ↦ ?_, ?_⟩
  · obtain ⟨q, hq, hend⟩ := (ends_iff limit hL n).mp hend
    simp only [returned_eq limit hL]
    exact Paging.existsUnique_of_walk hkeys hpos hq hend hthere
  · rw [returned_eq limit hL]
    cases hq : Paging.walk L.key (limitOf limit) (L.tables h) n with
    | none => simp [Paging.returned, hq]
    | some q =>
      obtain ⟨from', rfl⟩ := Paging.page_of_walk hq
      rw [Paging.returned_eq hq]
      have hall : ((Paging.inOrder L.key (L.tables h n)).map L.ident).Nodup :=
        ((Paging.perm_inOrder L.key (L.tables h n)).map L.ident).nodup_iff.mpr (hL n).nodup
      exact hall.sublist (Paging.rows_sublist.map L.ident)
  · intro m n r r' hmn hr hr' hid
    rw [returned_eq limit hL] at hr hr'
    have hlt := Paging.lt_of_walk hkeys hpos hmn hr hr'
    rw [key, key, keyOf, keyOf, Prod.Lex.toLex_lt_toLex, hid] at hlt
    exact hlt.resolve_right fun hsame ↦ lt_irrefl _ hsame.2

/-- **Reading a list page by page.**  In either store, for every filter and every page size: what
does not change meanwhile is read to the end, once and in order; what does is, as far as it stays at
its place, and a row is returned again only if it was moved back; and cursors can be read back. -/
theorem pages_complete (e : Endpoint) (limit : ℤ) :
    (∀ ws, (∀ w ∈ ws, w.Dated) → ∃ n, e.listing.ReadToEnd limit ws n) ∧
      (∀ h, (∀ n, ∀ w ∈ h n, w.Dated) → e.listing.ReadMeanwhile limit h) ∧
      ∀ c : Cursor, GoTime.InRange c.ts → decodeCursor c.encode = some c :=
  ⟨fun _ hws ↦ Listing.readToEnd limit (e.lawful hws),
    fun _ hh ↦ Listing.readMeanwhile limit fun n ↦ e.lawful (hh n),
    fun _ hc ↦ decodeCursor_encode hc⟩

/-! ### Examples -/

/-- A track with nothing but an id and an instant. -/
def trackAt (id : String) (lastSeen : GoTime) : Track where
  trackID := GoBytes.ofASCII id
  firstSeen := 0
  lastSeen := lastSeen

/-- Two tracks of one instant, and an earlier one. -/
def threeTracks : List Write :=
  [.upsertTrack (trackAt "a" 20), .upsertTrack (trackAt "b" 20), .upsertTrack (trackAt "c" 10)]

theorem threeTracks_complete :
    (∃ n, (Endpoint.sqlTracks {}).listing.ReadToEnd 2 threeTracks n) ∧
      (Endpoint.sqlTracks {}).listing.ReadMeanwhile 2 (fun _ ↦ threeTracks) ∧
      decodeCursor (Cursor.encode ⟨20, GoBytes.ofASCII "a"⟩) = some ⟨20, GoBytes.ofASCII "a"⟩ :=
  have h := pages_complete (.sqlTracks {}) 2
  have hdated : ∀ w ∈ threeTracks, w.Dated := by decide
  ⟨h.1 threeTracks hdated, h.2.1 _ fun _ ↦ hdated, h.2.2 _ (by decide)⟩

/-- Between the first request and the second, track `a` is moved behind the others. -/
def movedBack : ℕ → List Write
  | 0 => [.upsertTrack (trackAt "a" 30), .upsertTrack (trackAt "b" 20)]
  | _ => [.upsertTrack (trackAt "a" 30), .upsertTrack (trackAt "b" 20),
      .upsertTrack (trackAt "a" 10)]

/-- 1 January of the year 10000, in UTC; where clocks are an hour behind, it is still 9999. -/
def year10000 : GoTime := 315537897600 * GoDuration.second

/-- Two tracks of that instant. -/
def lateTracks : List Write :=
  [.upsertTrack (trackAt "a" year10000), .upsertTrack (trackAt "b" year10000)]

/-- A row may be returned twice, and a cursor may not be accepted. -/
theorem returned_again :
    (∃ (e : Endpoint) (limit : ℤ) (h : ℕ → List Write), 1 ≤ limit ∧ (∀ n, ∀ w ∈ h n, w.Dated) ∧
      ∃ m n, m < n ∧ ∃ i ∈ (e.listing.returned limit h m).map e.listing.ident,
        i ∈ (e.listing.returned limit h n).map e.listing.ident) ∧
      ∃ (e : Endpoint) (limit : ℤ) (ws : List Write), 1 ≤ limit ∧
        ∀ n, ¬e.listing.ReadToEnd limit ws n := by
  constructor
  · have h0 : ((Endpoint.memTracks id {}).listing.returned 1 movedBack 0 : List Track).map
        Track.trackID = [GoBytes.ofASCII "a"] := by decide
    have h2 : ((Endpoint.memTracks id {}).listing.returned 1 movedBack 2 : List Track).map
        Track.trackID = [GoBytes.ofASCII "a"] := by decide
    refine ⟨.memTracks id {}, 1, movedBack, by decide, ?_, 0, 2, by decide, GoBytes.ofASCII "a",
      h0.symm ▸ List.mem_singleton_self _, h2.symm ▸ List.mem_singleton_self _⟩
    intro n
    cases n with
    | zero => decide
    | succ n => exact (by decide : ∀ w ∈ movedBack 1, w.Dated)
  · refine ⟨.memTracks id {}, 1, lateTracks, by decide, fun n hread ↦ ?_⟩
    have hfirst : ((Endpoint.memTracks id {}).listing.walk 1 (fun _ ↦ lateTracks) 0).all
        (fun p ↦ decide (p.nextCursor ≠ [])) = true := by decide
    have hsecond : ((Endpoint.memTracks id {}).listing.walk 1 (fun _ ↦ lateTracks) 1).isNone =
        true := by decide
    obtain ⟨p, hp, hend⟩ := hread.ends
    have hnone (n : ℕ) : (Endpoint.memTracks id {}).listing.walk 1 (fun _ ↦ lateTracks) (n + 1) =
        none := by
      induction n with
      | zero => exact Option.isNone_iff_eq_none.mp hsecond
      | succ n ih => rw [Listing.walk, ih]; rfl
    cases n with
    | zero => simp [hp, hend] at hfirst
    | succ n => simp [hnone n] at hp

end ClassG.Store
