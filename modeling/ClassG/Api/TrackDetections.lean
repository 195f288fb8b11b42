import ClassG.Store.Agreement

/-!
# The detections of a track

Which detections belong to a track is not recorded; three readers make it out from the identity of
the track and the time it was seen in.  `GET /tracks/{id}/detections` (`httpapi/tracks.go`) and the
field `detections` of a track in GraphQL (`graphqlapi/resolvers.go`) list them, and
`BackfillPeakRSSI` takes the peak of the track from them.

The list of REST and the peak take their bounds from `TrackDetectionWindow`, with a second of grace
after the track was last seen; GraphQL takes the times of the track as they are.  A bound that is the
zero time is none to a list.

* `page_agrees_iff` — when REST and GraphQL return one page.
* `readers_agree_iff` — when all three agree about a track: if no detection of it is at the
  `Edge` of its window.
-/

set_option autoImplicit false

namespace ClassG.Api

open Store

/-! ## Parameters -/

/-- `NormaliseLimit`, of a limit that is given. -/
def normaliseLimit (limit : ℤ) : Except String ℤ :=
  if limit < 1 then .error "limit must be >= 1"
  else if maxLimit < limit then .error "limit must be <= 1000"
  else .ok limit

/-- What a request fails with. -/
inductive Failure
  | notFound (message : GoBytes)
  | invalidParameter (field message : String)
  deriving DecidableEq

/-- The parameters of the query string, without the blanks around them. -/
structure Request where
  limit : GoBytes := []
  cursor : GoBytes := []
  since : GoBytes := []

/-- `limitParam`. -/
def limitParam (raw : GoBytes) : Except Failure ℤ :=
  if raw = [] then .ok defaultLimit
  else
    match raw.toInt with
    | none => .error (.invalidParameter "limit" "limit must be an integer")
    | some n => (normaliseLimit n).mapError (.invalidParameter "limit")

/-- `cursorParam`. -/
def cursorParam (raw : GoBytes) : Except Failure (Option Cursor) :=
  if raw = [] then .ok none
  else
    match decodeCursor raw with
    | none => .error (.invalidParameter "cursor" "cursor is not a cursor returned by this API")
    | some c => .ok (some c)

/-- `timeParam`. -/
def timeParam (raw : GoBytes) (name : String) : Except Failure GoTime :=
  if raw = [] then .ok 0
  else
    match GoTime.parseRFC3339Nano raw with
    | none => .error (.invalidParameter name (name ++ " must be an RFC3339 timestamp"))
    | some t => .ok t

/-! ## REST -/

/-- `detectionsResponse`. -/
structure DetectionsResponse where
  detections : List Detection
  nextCursor : Option GoBytes
  total : ℕ
  deriving DecidableEq

/-- `nullableString`. -/
def nullableString (s : GoBytes) : Option GoBytes := if s = [] then none else some s

/-- The query of `handleTrackDetections`. -/
def restQuery (t : Track) (since : GoTime) (limit : ℤ) (cursor : Option Cursor) :
    TrackDetectionQuery where
  serial := t.identity.serial
  macs := t.identity.macs
  start :=
    if since ≠ 0 ∧ (trackDetectionWindow t).1 < since then since else (trackDetectionWindow t).1
  stop := (trackDetectionWindow t).2
  limit := limit
  cursor := cursor

/-- `handleTrackDetections`.  What redaction takes away is not among the fields of a detection. -/
def handleTrackDetections (s : MemStore) (id : GoBytes) (r : Request) :
    Except Failure DetectionsResponse :=
  match s.tracks.get id with
  | none => .error (.notFound (GoBytes.ofASCII "no track with id " ++ id))
  | some t => do
    let limit ← limitParam r.limit
    let cursor ← cursorParam r.cursor
    let since ← timeParam r.since "since"
    let page := s.listTrackDetections (restQuery t since limit cursor)
    return ⟨page.rows, nullableString page.nextCursor, page.total⟩

/-! ## GraphQL -/

/-- The arguments of the field, after their coercion. -/
structure Args where
  limit : Option ℤ := none
  cursor : Option GoBytes := none

/-- `limitArg`. -/
def limitArg : Option ℤ → Except String ℤ
  | none => .ok defaultLimit
  | some n => normaliseLimit n

/-- The argument `cursor`, as `trackDetections` reads it. -/
def cursorArg : Option GoBytes → Except String (Option Cursor)
  | none => .ok none
  | some raw =>
    if raw = [] then .ok none
    else
      match decodeCursor raw with
      | none => .error "cursor: malformed"
      | some c => .ok (some c)

/-- The query of `trackDetections`. -/
def graphQLQuery (t : Track) (limit : ℤ) (cursor : Option Cursor) (selectsTotal : Bool) :
    TrackDetectionQuery where
  serial := t.identity.serial
  macs := t.identity.macs
  start := t.firstSeen
  stop := t.lastSeen
  skipTotal := !selectsTotal
  limit := limit
  cursor := cursor

/-- `track`: the track that the fields are of. -/
def track (s : MemStore) (id : GoBytes) : Option Track :=
  (s.tracks.get id).map fun t ↦ s.peakRSSI t

/-- `trackDetections`, of a track, and whether the client selects the total. -/
def trackDetections (s : MemStore) (t : Track) (args : Args) (selectsTotal : Bool) :
    Except String (ListPage Detection) := do
  let limit ← limitArg args.limit
  let cursor ← cursorArg args.cursor
  return s.listTrackDetections (graphQLQuery t limit cursor selectsTotal)

/-! ## Windows -/

/-- What a list takes of the time between two bounds. -/
def Between (start stop x : GoTime) : Prop := (start = 0 ∨ start ≤ x) ∧ (stop = 0 ∨ x ≤ stop)

instance (start stop x : GoTime) : Decidable (Between start stop x) :=
  inferInstanceAs (Decidable ((start = 0 ∨ start ≤ x) ∧ (stop = 0 ∨ x ≤ stop)))

/-- What the peak is taken of. -/
def Counted (t : Track) (x : GoTime) : Prop :=
  (trackDetectionWindow t).1 ≤ x ∧ x ≤ (trackDetectionWindow t).2

theorem matchesTrackDetection_iff {q : TrackDetectionQuery} {d : Detection} :
    MemStore.matchesTrackDetection q d = true ↔
      Between q.start q.stop d.ts ∧ MemStore.ofAircraft q.serial q.macs d = true := by
  rw [MemStore.matchesTrackDetection, decide_eq_true_iff, Bool.not_eq_true', decide_eq_false_iff_not,
    not_or, not_and, not_and, not_lt, not_lt, Between, or_iff_not_imp_left, or_iff_not_imp_left]

/-- The detection is one of the track's aircraft. -/
abbrev OfTrack (t : Track) (d : Detection) : Prop :=
  MemStore.ofAircraft t.identity.serial t.identity.macs d = true

/-- REST has it in its list. -/
def RestCovers (t : Track) (d : Detection) : Prop :=
  Between t.firstSeen (t.lastSeen + GoDuration.second) d.ts ∧ OfTrack t d

/-- GraphQL has it in its list. -/
def GraphQLCovers (t : Track) (d : Detection) : Prop :=
  Between t.firstSeen t.lastSeen d.ts ∧ OfTrack t d

theorem matches_restQuery {t : Track} {limit : ℤ} {cursor : Option Cursor} {d : Detection} :
    MemStore.matchesTrackDetection (restQuery t 0 limit cursor) d = true ↔ RestCovers t d := by
  rw [matchesTrackDetection_iff]
  simp [restQuery, RestCovers, trackDetectionWindow]

theorem matches_graphQLQuery {t : Track} {limit : ℤ} {cursor : Option Cursor}
    {selectsTotal : Bool} {d : Detection} :
    MemStore.matchesTrackDetection (graphQLQuery t limit cursor selectsTotal) d = true ↔
      GraphQLCovers t d := matchesTrackDetection_iff

/-- Where the windows of the three readers part. -/
inductive Edge (t : Track) (x : GoTime) : Prop
  /-- In the second after the track was last seen, which GraphQL leaves out. -/
  | grace (hstart : t.firstSeen = 0 ∨ t.firstSeen ≤ x) (hzero : t.lastSeen ≠ 0)
      (hlt : t.lastSeen < x) (hle : x ≤ t.lastSeen + GoDuration.second)
  /-- After that second, if the track was last seen at the zero time: no bound to GraphQL. -/
  | unboundedGraphQL (hstart : t.firstSeen = 0 ∨ t.firstSeen ≤ x) (hzero : t.lastSeen = 0)
      (hlt : GoDuration.second < x)
  /-- After that second, if it ends at the zero time: no bound to REST. -/
  | unboundedRest (hstart : t.firstSeen = 0 ∨ t.firstSeen ≤ x)
      (hzero : t.lastSeen + GoDuration.second = 0) (hlt : 0 < x)
  /-- Before the track was first seen, if that was at the zero time: no bound to either. -/
  | unboundedStart (hzero : t.firstSeen = 0) (hlt : x < 0)
      (hstop : t.lastSeen + GoDuration.second = 0 ∨ x ≤ t.lastSeen + GoDuration.second)

/-- Two windows without a bound at zero, beside the one with both, in integers. -/
theorem windows_part_iff {first last second x : ℤ} (hsecond : 0 < second) :
    ¬((((first = 0 ∨ first ≤ x) ∧ (last + second = 0 ∨ x ≤ last + second)) ↔
        first ≤ x ∧ x ≤ last + second) ∧
      (((first = 0 ∨ first ≤ x) ∧ (last = 0 ∨ x ≤ last)) ↔ first ≤ x ∧ x ≤ last + second)) ↔
      ((first = 0 ∨ first ≤ x) ∧ last ≠ 0 ∧ last < x ∧ x ≤ last + second) ∨
      ((first = 0 ∨ first ≤ x) ∧ last = 0 ∧ second < x) ∨
      ((first = 0 ∨ first ≤ x) ∧ last + second = 0 ∧ 0 < x) ∨
      (first = 0 ∧ x < 0 ∧ (last + second = 0 ∨ x ≤ last + second)) := by
  omega

/-- Away from the edge the three windows are one, and at the edge they are not. -/
theorem edge_iff {t : Track} {x : GoTime} : Edge t x ↔
    ¬((Between t.firstSeen (t.lastSeen + GoDuration.second) x ↔ Counted t x) ∧
      (Between t.firstSeen t.lastSeen x ↔ Counted t x)) := by
  have hsecond : (0 : ℤ) < GoDuration.second := by decide
  refine Iff.trans ?_ (windows_part_iff hsecond).symm
  constructor
  · rintro (⟨hstart, hzero, hlt, hle⟩ | ⟨hstart, hzero, hlt⟩ | ⟨hstart, hzero, hlt⟩ |
      ⟨hzero, hlt, hstop⟩)
    · exact .inl ⟨hstart, hzero, hlt, hle⟩
    · exact .inr (.inl ⟨hstart, hzero, hlt⟩)
    · exact .inr (.inr (.inl ⟨hstart, hzero, hlt⟩))
    · exact .inr (.inr (.inr ⟨hzero, hlt, hstop⟩))
  · rintro (⟨hstart, hzero, hlt, hle⟩ | ⟨hstart, hzero, hlt⟩ | ⟨hstart, hzero, hlt⟩ |
      ⟨hzero, hlt, hstop⟩)
    · exact .grace hstart hzero hlt hle
    · exact .unboundedGraphQL hstart hzero hlt
    · exact .unboundedRest hstart hzero hlt
    · exact .unboundedStart hzero hlt hstop

/-- Where none of the bounds is the zero time, there is but the second of grace. -/
theorem edge_iff_of_ne_zero {t : Track} {x : GoTime} (hfirst : t.firstSeen ≠ 0)
    (hlast : t.lastSeen ≠ 0) (hstop : t.lastSeen + GoDuration.second ≠ 0) :
    Edge t x ↔ t.firstSeen ≤ x ∧ t.lastSeen < x ∧ x ≤ t.lastSeen + GoDuration.second := by
  constructor
  · rintro (⟨hstart, -, hlt, hle⟩ | ⟨-, hzero, -⟩ | ⟨-, hzero, -⟩ | ⟨hzero, -, -⟩)
    · exact ⟨hstart.resolve_left hfirst, hlt, hle⟩
    · exact absurd hzero hlast
    · exact absurd hzero hstop
    · exact absurd hzero hfirst
  · rintro ⟨hstart, hlt, hle⟩
    exact .grace (.inr hstart) hlast hlt hle

/-! ## Pages -/

/-- Two requests for one page, which both APIs accept. -/
structure Same (r : Request) (args : Args) (limit : ℤ) (cursor : Option Cursor) : Prop where
  since : r.since = []
  limitParam : limitParam r.limit = .ok limit
  limitArg : limitArg args.limit = .ok limit
  cursorParam : cursorParam r.cursor = .ok cursor
  cursorArg : cursorArg args.cursor = .ok cursor

/-- Two pages are one, as far as the client asks. -/
def SameList (p q : ListPage Detection) (total : Bool) : Prop :=
  p.rows = q.rows ∧ p.nextCursor = q.nextCursor ∧ (total = true → p.total = q.total)

theorem SameList.symm {p q : ListPage Detection} {total : Bool} (h : SameList p q total) :
    SameList q p total :=
  ⟨h.1.symm, h.2.1.symm, fun htotal ↦ (h.2.2 htotal).symm⟩

/-- REST and GraphQL return one page. -/
def SamePage (s : MemStore) (id : GoBytes) (r : Request) (args : Args) (selectsTotal : Bool) :
    Prop :=
  ∃ p t q, handleTrackDetections s id r = .ok p ∧ track s id = some t ∧
    trackDetections s t args selectsTotal = .ok q ∧
    q.rows = p.detections ∧ nullableString q.nextCursor = p.nextCursor ∧
      (selectsTotal = true → q.total = p.total)

theorem nullableString_inj {a b : GoBytes} : nullableString a = nullableString b ↔ a = b := by
  rw [nullableString, nullableString]
  split <;> split <;> simp_all [eq_comm]

theorem peakRSSI_frame (s : MemStore) (t : Track) : (s.peakRSSI t).identity = t.identity ∧
    (s.peakRSSI t).firstSeen = t.firstSeen ∧ (s.peakRSSI t).lastSeen = t.lastSeen := by
  rw [MemStore.peakRSSI]
  split
  · split <;> exact ⟨rfl, rfl, rfl⟩
  · exact ⟨rfl, rfl, rfl⟩

variable {s : MemStore} {id : GoBytes} {t : Track} {r : Request} {args : Args} {limit : ℤ}
  {cursor : Option Cursor}

/-- What the two run are their queries. -/
theorem samePage_iff (hid : s.tracks.get id = some t) (h : Same r args limit cursor)
    (selectsTotal : Bool) : SamePage s id r args selectsTotal ↔
      SameList (s.listTrackDetections (graphQLQuery t limit cursor selectsTotal))
        (s.listTrackDetections (restQuery t 0 limit cursor)) selectsTotal := by
  have hrest : handleTrackDetections s id r = .ok
      ⟨(s.listTrackDetections (restQuery t 0 limit cursor)).rows,
        nullableString (s.listTrackDetections (restQuery t 0 limit cursor)).nextCursor,
        (s.listTrackDetections (restQuery t 0 limit cursor)).total⟩ := by
    simp only [handleTrackDetections, hid, h.limitParam, h.cursorParam, h.since]
    rfl
  have htrack : track s id = some (s.peakRSSI t) := by rw [track, hid, Option.map_some]
  have hgraphQL : trackDetections s (s.peakRSSI t) args selectsTotal =
      .ok (s.listTrackDetections (graphQLQuery t limit cursor selectsTotal)) := by
    have hquery : graphQLQuery (s.peakRSSI t) limit cursor selectsTotal =
        graphQLQuery t limit cursor selectsTotal := by
      obtain ⟨hidentity, hfirst, hlast⟩ := peakRSSI_frame s t
      rw [graphQLQuery, hidentity, hfirst, hlast, graphQLQuery]
    simp only [trackDetections, h.limitArg, h.cursorArg]
    exact congrArg (fun q ↦ Except.ok (s.listTrackDetections q)) hquery
  simp only [SamePage, hrest, htrack, hgraphQL, Except.ok.injEq, Option.some_inj, SameList,
    exists_eq_left', exists_and_left, nullableString_inj]


/-- The lists of two filters, of which one keeps what the other does and more, all of it later. -/
theorem sameList_iff (q q' : TrackDetectionQuery) {total : Bool} (hlimit : q.limit = q'.limit)
    (hcursor : q.cursor = q'.cursor)
    (hskip : q.skipTotal = true → total = false) (hskip' : q'.skipTotal = true → total = false)
    (hsub : ∀ d ∈ s.detections.rows, MemStore.matchesTrackDetection q d →
      MemStore.matchesTrackDetection q' d)
    (hmore : ∀ d d', MemStore.matchesTrackDetection q' d →
      MemStore.matchesTrackDetection q d = false → d.ts ≤ d'.ts →
        MemStore.matchesTrackDetection q d' = false) :
    SameList (s.listTrackDetections q) (s.listTrackDetections q') total ↔
      ∀ d ∈ s.detections.rows, MemStore.matchesTrackDetection q' d →
        MemStore.matchesTrackDetection q d = false →
          total = false ∧ ∃ c ∈ q'.cursor, c.key ≤ keyOf Detection.ts Detection.detectionID d := by
  have hnodup : (s.detections.rows.map (keyOf Detection.ts Detection.detectionID)).Nodup :=
    nodup_keyOf s.detections.nodup_keys
  have hmore : ∀ d ∈ s.detections.rows, ∀ d' ∈ s.detections.rows,
      MemStore.matchesTrackDetection q' d → MemStore.matchesTrackDetection q d = false →
        MemStore.matchesTrackDetection q' d' →
          keyOf Detection.ts Detection.detectionID d < keyOf Detection.ts Detection.detectionID d' →
            MemStore.matchesTrackDetection q d' = false := by
    intro d _ d' _ hd hnot _ hlt
    refine hmore d d' hd hnot ?_
    rw [keyOf, keyOf, Prod.Lex.toLex_lt_toLex] at hlt
    rcases hlt with hlt | ⟨heq, -⟩
    · exact hlt.le
    · exact heq.le
  rw [SameList, MemStore.listTrackDetections_eq, MemStore.listTrackDetections_eq, ← hlimit,
    ← hcursor]
  constructor
  · rintro ⟨hrows, -, htotal⟩ d hd hq' hq
    constructor
    · by_contra htrue
      have htrue : total = true := eq_true_of_ne_false htrue
      have hlen := htotal htrue
      have hkeep : q.skipTotal = false := by
        by_contra h
        simp [hskip (eq_true_of_ne_false h)] at htrue
      have hkeep' : q'.skipTotal = false := by
        by_contra h
        simp [hskip' (eq_true_of_ne_false h)] at htrue
      simp only [listPage, hkeep, hkeep'] at hlen
      have hfilter : s.detections.rows.filter (MemStore.matchesTrackDetection q) =
          (s.detections.rows.filter (MemStore.matchesTrackDetection q')).filter
            (MemStore.matchesTrackDetection q) := by
        rw [List.filter_filter]
        refine List.filter_congr fun d hd ↦ ?_
        rw [Bool.eq_iff_iff, Bool.and_eq_true]
        exact ⟨fun h ↦ ⟨h, hsub d hd h⟩, And.left⟩
      have hsublist : (s.detections.rows.filter (MemStore.matchesTrackDetection q)).Sublist
          (s.detections.rows.filter (MemStore.matchesTrackDetection q')) := by
        rw [hfilter]
        exact List.filter_sublist
      have hsame := hsublist.eq_of_length hlen
      have hmem : d ∈ s.detections.rows.filter (MemStore.matchesTrackDetection q') :=
        List.mem_filter.mpr ⟨hd, hq'⟩
      rw [← hsame, List.mem_filter, hq] at hmem
      exact absurd hmem.2 (by decide)
    · by_contra hnone
      have hfrom : ∀ k ∈ q.cursor.map Cursor.key,
          keyOf Detection.ts Detection.detectionID d < k := by
        intro k hk
        obtain ⟨c, hc, rfl⟩ := Option.mem_map.mp hk
        exact not_le.mp fun hle ↦ hnone ⟨c, hc, hle⟩
      have hmatch := Paging.of_page_filter_rows_eq hnodup (limitOf_pos q.limit) hmore hrows hd hq'
        hfrom
      simp [hq] at hmatch
  · intro hall
    have hpage : Paging.page (keyOf Detection.ts Detection.detectionID) (limitOf q.limit)
        (q.cursor.map Cursor.key)
        (s.detections.rows.filter (MemStore.matchesTrackDetection q)) =
        Paging.page (keyOf Detection.ts Detection.detectionID) (limitOf q.limit)
          (q.cursor.map Cursor.key)
          (s.detections.rows.filter (MemStore.matchesTrackDetection q')) := by
      refine Paging.page_filter_congr hnodup fun d hd hfrom ↦ ?_
      refine Bool.eq_iff_iff.mpr ⟨hsub d hd, fun hq' ↦ ?_⟩
      by_contra hq
      obtain ⟨-, c, hc, hle⟩ := hall d hd hq' (eq_false_of_ne_true hq)
      exact absurd (hfrom c.key (Option.mem_map.mpr ⟨c, hc, rfl⟩)) hle.not_gt
    rw [hpage]
    refine ⟨rfl, rfl, fun htrue ↦ ?_⟩
    have hfilter : s.detections.rows.filter (MemStore.matchesTrackDetection q) =
        s.detections.rows.filter (MemStore.matchesTrackDetection q') := by
      refine List.filter_congr fun d hd ↦ Bool.eq_iff_iff.mpr ⟨hsub d hd, fun hq' ↦ ?_⟩
      by_contra hq
      simp [(hall d hd hq' (eq_false_of_ne_true hq)).1] at htrue
    have hkeep : q.skipTotal = false := by
      by_contra h
      simp [hskip (eq_true_of_ne_false h)] at htrue
    have hkeep' : q'.skipTotal = false := by
      by_contra h
      simp [hskip' (eq_true_of_ne_false h)] at htrue
    simp only [listPage, hkeep, hkeep', hfilter]

/-- The windows of REST and GraphQL part. -/
def Parted (t : Track) (x : GoTime) : Prop :=
  ¬(Between t.firstSeen t.lastSeen x ↔ Between t.firstSeen (t.lastSeen + GoDuration.second) x)

/-- What is too late for a window stays too late. -/
theorem not_between_of_le {start stop stop' x y : GoTime} (h : Between start stop x)
    (hnot : ¬Between start stop' x) (hle : x ≤ y) : ¬Between start stop' y := by
  intro hy
  rcases hy.2 with hzero | hstop
  · exact hnot ⟨h.1, .inl hzero⟩
  · exact hnot ⟨h.1, .inr (hle.trans hstop)⟩

theorem between_grace {start last x : GoTime} (hzero : last ≠ 0) (h : Between start last x) :
    Between start (last + GoDuration.second) x := by
  have hsecond : (0 : ℤ) ≤ GoDuration.second := by decide
  have hlast : x ≤ last := h.2.resolve_left hzero
  exact ⟨h.1, .inr (hlast.trans (Int.le_add_of_nonneg_right hsecond))⟩

/-- The same of two windows, of which one is longer than the other. -/
theorem sameList_iff_of_windows (q q' : TrackDetectionQuery) {start stop stop' : GoTime}
    {total : Bool} (hlimit : q.limit = q'.limit) (hcursor : q.cursor = q'.cursor)
    (hskip : q.skipTotal = true → total = false) (hskip' : q'.skipTotal = true → total = false)
    (hq : ∀ d, MemStore.matchesTrackDetection q d = true ↔ Between start stop d.ts ∧ OfTrack t d)
    (hq' : ∀ d, MemStore.matchesTrackDetection q' d = true ↔ Between start stop' d.ts ∧ OfTrack t d)
    (hsub : ∀ x, Between start stop x → Between start stop' x) :
    SameList (s.listTrackDetections q) (s.listTrackDetections q') total ↔
      ∀ d ∈ s.detections.rows, OfTrack t d →
        ¬(Between start stop d.ts ↔ Between start stop' d.ts) →
          total = false ∧ ∃ c ∈ q'.cursor, c.key ≤ keyOf Detection.ts Detection.detectionID d := by
  rw [sameList_iff q q' hlimit hcursor hskip hskip']
  · refine forall₂_congr fun d _ ↦ ?_
    rw [← Bool.not_eq_true, hq, hq']
    constructor
    · intro hlist htrack hparted
      refine hlist ⟨?_, htrack⟩ fun hd ↦ hparted ⟨hsub _, fun _ ↦ hd.1⟩
      by_contra hno
      exact hparted ⟨hsub _, fun hyes ↦ absurd hyes hno⟩
    · intro hlist hd' hd
      exact hlist hd'.2 fun hiff ↦ hd ⟨hiff.mpr hd'.1, hd'.2⟩
  · intro d _ hd
    rw [hq] at hd
    exact (hq' d).mpr ⟨hsub _ hd.1, hd.2⟩
  · intro d d' hd hnot hle
    rw [hq'] at hd
    rw [← Bool.not_eq_true, hq] at hnot ⊢
    exact fun hd' ↦ not_between_of_le hd.1 (fun hb ↦ hnot ⟨hb, hd.2⟩) hle hd'.1

/-- **When REST and GraphQL return one page**: if what only one of them covers is not asked for, as
the total is not selected and the page begins behind it. -/
theorem page_agrees_iff (hid : s.tracks.get id = some t) (h : Same r args limit cursor)
    (selectsTotal : Bool) : SamePage s id r args selectsTotal ↔
      ∀ d ∈ s.detections.rows, OfTrack t d → Parted t d.ts →
        selectsTotal = false ∧ ∃ c ∈ cursor, c.key ≤ keyOf Detection.ts Detection.detectionID d := by
  have hskip : (graphQLQuery t limit cursor selectsTotal).skipTotal = true → selectsTotal = false :=
    fun h ↦ by simpa [graphQLQuery] using h
  have hskip' : (restQuery t 0 limit cursor).skipTotal = true → selectsTotal = false :=
    fun h ↦ Bool.noConfusion h
  rw [samePage_iff hid h]
  by_cases hzero : t.lastSeen = 0
  · -- to GraphQL there is no end
    have hsymm : SameList (s.listTrackDetections (graphQLQuery t limit cursor selectsTotal))
        (s.listTrackDetections (restQuery t 0 limit cursor)) selectsTotal ↔
      SameList (s.listTrackDetections (restQuery t 0 limit cursor))
        (s.listTrackDetections (graphQLQuery t limit cursor selectsTotal)) selectsTotal :=
      ⟨.symm, .symm⟩
    rw [hsymm, sameList_iff_of_windows (restQuery t 0 limit cursor)
      (graphQLQuery t limit cursor selectsTotal) rfl rfl hskip' hskip
      (fun _ ↦ matches_restQuery) (fun _ ↦ matches_graphQLQuery)
      fun x hx ↦ ⟨hx.1, .inl hzero⟩]
    exact forall₂_congr fun d _ ↦ imp_congr_right fun _ ↦ imp_congr_left (not_congr iff_comm)
  · exact sameList_iff_of_windows (graphQLQuery t limit cursor selectsTotal)
      (restQuery t 0 limit cursor) rfl rfl hskip hskip' (fun _ ↦ matches_graphQLQuery)
      (fun _ ↦ matches_restQuery) fun x hx ↦ between_grace hzero hx

/-! ## The three readers -/

/-- The detection counts for the peak of the track, if it has a reading. -/
def CountsForPeak (t : Track) (d : Detection) : Prop := Counted t d.ts ∧ OfTrack t d

/-- The peak is the reading of a detection that counts. -/
theorem exists_of_peak {peak : ℚ} (hnone : t.rssiDBm = none)
    (hpeak : (s.peakRSSI t).rssiDBm = some peak) :
    ∃ d ∈ s.detections.rows, d.rf.bind (·.rssiDBm) = some peak ∧ CountsForPeak t d := by
  rw [MemStore.peakRSSI] at hpeak
  split at hpeak
  · split at hpeak
    · simp [hnone] at hpeak
    · next found hfound =>
      obtain rfl := Option.some_inj.mp hpeak
      rw [MemStore.foldl_peakStep, Option.toList_none, List.nil_append,
        List.max?_eq_some_iff] at hfound
      obtain ⟨d, hd, hreading⟩ := List.mem_filterMap.mp hfound.1
      rw [MemStore.reading] at hreading
      split at hreading
      · next hcounts =>
        rw [not_or, not_lt, not_lt] at hcounts
        exact ⟨d, hd, hreading, hcounts⟩
      · simp at hreading
  · simp [hnone] at hpeak

/-- The three readers agree about a track: REST and GraphQL return the same pages, they cover the
detections that count for the peak, and the peak is the reading of one that both cover. -/
structure Agrees (s : MemStore) (id : GoBytes) (t : Track) : Prop where
  pages (r : Request) (args : Args) (limit : ℤ) (cursor : Option Cursor) (selectsTotal : Bool) :
    Same r args limit cursor → SamePage s id r args selectsTotal
  window (limit : ℤ) (cursor : Option Cursor) (selectsTotal : Bool) : ∀ d ∈ s.detections.rows,
    (MemStore.matchesTrackDetection (restQuery t 0 limit cursor) d = true ↔ CountsForPeak t d) ∧
      (MemStore.matchesTrackDetection (graphQLQuery t limit cursor selectsTotal) d = true ↔
        CountsForPeak t d)
  peak (limit : ℤ) (cursor : Option Cursor) (selectsTotal : Bool) (peak : ℚ) :
    t.rssiDBm = none → (s.peakRSSI t).rssiDBm = some peak →
      ∃ d ∈ s.detections.rows, d.rf.bind (·.rssiDBm) = some peak ∧
        MemStore.matchesTrackDetection (restQuery t 0 limit cursor) d = true ∧
        MemStore.matchesTrackDetection (graphQLQuery t limit cursor selectsTotal) d = true

/-- At the edge or not, the windows decide which of the track's detections are covered. -/
theorem covers_iff_of_not_edge {d : Detection} (h : OfTrack t d → ¬Edge t d.ts) :
    (RestCovers t d ↔ CountsForPeak t d) ∧ (GraphQLCovers t d ↔ CountsForPeak t d) := by
  rw [RestCovers, GraphQLCovers, CountsForPeak]
  by_cases htrack : OfTrack t d
  · have hwindows := not_not.mp (mt edge_iff.mpr (h htrack))
    exact ⟨and_congr_left' hwindows.1, and_congr_left' hwindows.2⟩
  · have hno (P : Prop) : ¬(P ∧ OfTrack t d) := fun h ↦ htrack h.2
    exact ⟨iff_of_false (hno _) (hno _), iff_of_false (hno _) (hno _)⟩

/-- **When the three readers agree**: a page of REST is one of GraphQL if what only one of them
covers is not asked for; and they agree about a track, peak included, if none of its detections is
at the edge of its window. -/
theorem readers_agree_iff (s : MemStore) (id : GoBytes) (t : Track)
    (hid : s.tracks.get id = some t) :
    (∀ (r : Request) (args : Args) (limit : ℤ) (cursor : Option Cursor) (selectsTotal : Bool),
      Same r args limit cursor → (SamePage s id r args selectsTotal ↔
        ∀ d ∈ s.detections.rows, OfTrack t d → Parted t d.ts →
          selectsTotal = false ∧
            ∃ c ∈ cursor, c.key ≤ keyOf Detection.ts Detection.detectionID d)) ∧
    (Agrees s id t ↔ ∀ d ∈ s.detections.rows, OfTrack t d → ¬Edge t d.ts) := by
  refine ⟨fun r args limit cursor selectsTotal h ↦ page_agrees_iff hid h selectsTotal, ?_⟩
  constructor
  · intro h d hd htrack hedge
    have hwindow := h.window 1 none true d hd
    rw [matches_restQuery, matches_graphQLQuery, RestCovers, GraphQLCovers, CountsForPeak,
      and_congr_left_iff, and_congr_left_iff] at hwindow
    exact edge_iff.mp hedge ⟨hwindow.1 htrack, hwindow.2 htrack⟩
  · intro h
    have hcovers (d : Detection) (hd : d ∈ s.detections.rows) := covers_iff_of_not_edge (h d hd)
    constructor
    · intro r args limit cursor selectsTotal hsame
      refine (page_agrees_iff hid hsame selectsTotal).mpr fun d hd htrack hparted ↦ ?_
      have hwindows := not_not.mp (mt edge_iff.mpr (h d hd htrack))
      exact absurd (hwindows.2.trans hwindows.1.symm) hparted
    · intro limit cursor selectsTotal d hd
      rw [matches_restQuery, matches_graphQLQuery]
      exact hcovers d hd
    · intro limit cursor selectsTotal peak hnone hpeak
      obtain ⟨d, hd, hreading, hcounts⟩ := exists_of_peak hnone hpeak
      exact ⟨d, hd, hreading, matches_restQuery.mpr ((hcovers d hd).1.mpr hcounts),
        matches_graphQLQuery.mpr ((hcovers d hd).2.mpr hcounts)⟩

/-! ### Fixed stores -/

/-- A track of ten seconds. -/
def shortTrack : Track where
  trackID := GoBytes.ofASCII "t"
  firstSeen := noon2024
  lastSeen := noon2024 + 10 * GoDuration.second
  identity := { serial := "S" }

/-- A detection of its aircraft, so long after it was first seen. -/
def detectionAfter (after : GoTime) : Detection where
  detectionID := GoBytes.ofASCII "d"
  ts := noon2024 + after
  rf := some ⟨some (-60)⟩
  identity := { serial := "S" }

/-- The two of them. -/
def storeWith (after : GoTime) : MemStore :=
  .run [.upsertTrack shortTrack, .insertDetection (detectionAfter after)]

theorem readers_agree_last : Agrees (storeWith (10 * GoDuration.second)) (GoBytes.ofASCII "t")
    shortTrack := by
  refine (readers_agree_iff _ _ _ (by decide)).2.mpr fun d hd _ hedge ↦ ?_
  have hrows : (storeWith (10 * GoDuration.second)).detections.rows =
      [detectionAfter (10 * GoDuration.second)] := by decide
  rw [hrows, List.mem_singleton] at hd
  rw [hd, edge_iff_of_ne_zero (by decide) (by decide) (by decide)] at hedge
  exact absurd hedge.2.1 (by decide)

/-- A detection half a second after the track was last seen: the peak is its reading, REST lists it,
and GraphQL does not. -/
theorem readers_disagree :
    ¬ ∀ (s : MemStore) (id : GoBytes) (t : Track), s.tracks.get id = some t → Agrees s id t := by
  intro h
  have hagrees := h (storeWith (21 * GoDuration.second / 2)) (GoBytes.ofASCII "t") shortTrack
    (by decide)
  have hpeak := hagrees.peak 100 none true (-60) rfl (by decide)
  exact absurd hpeak (by decide)

end ClassG.Api
