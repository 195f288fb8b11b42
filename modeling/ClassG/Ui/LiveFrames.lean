import ClassG.ForGo.TextOrder
import ClassG.Machine
import ClassG.Store.Mem

/-!
# Pushed frames

The console keeps the answers to its list queries, and applies to each of them the frames that the
server pushes: `matchesQuery` says again, over the texts of a document, what `ListTracks` says over
the fields of a track, and `applyFrame` adds, replaces and removes one track at a time.

* `docOf`, `serverQuery` — a track and a query on their way between the two.
* `applyUpdate`, `applyClosed` — what a frame does to one cache entry.
* `ListCache` — an entry beside the store it was read from.

`normalizeTrack` changes no field that is looked at here.
-/

set_option autoImplicit false

namespace ClassG.Ui

open Store

/-! ## Documents -/

/-- `TrackIdentity` of the console. -/
structure IdentityDoc where
  serial : Option String
  macs : List String
  vendor : Option String
  deriving DecidableEq, Repr

/-- `Track` of the console. -/
structure TrackDoc where
  trackID : GoBytes
  state : String
  firstSeen : GoBytes
  lastSeen : GoBytes
  identity : Option IdentityDoc
  confidence : ℚ
  rssiDBm : Option ℚ
  deriving DecidableEq, Repr

/-- A field with `omitempty`. -/
def omitEmpty (s : String) : Option String := if s = "" then none else some s

/-- The document of a track. -/
def docOf (t : Track) : TrackDoc where
  trackID := t.trackID
  state := t.state
  firstSeen := GoTime.formatRFC3339Nano t.firstSeen
  lastSeen := GoTime.formatRFC3339Nano t.lastSeen
  identity := some ⟨omitEmpty t.identity.serial, t.identity.macs, omitEmpty t.identity.vendor⟩
  confidence := t.confidence
  rssiDBm := t.rssiDBm

/-! ## Queries -/

/-- `TracksQuery`, without a cursor. -/
structure TracksQuery where
  state : List String := []
  since : Option GoBytes := none
  until' : Option GoBytes := none
  serial : Option String := none
  vendor : Option String := none
  minConfidence : Option ℚ := none
  limit : Option ℤ := none
  deriving DecidableEq, Repr

/-- `timeParam`, with `none` for its error. -/
def timeParam : Option GoBytes → Option GoTime
  | none | some [] => some 0
  | some s => GoTime.parseRFC3339Nano s

/-- `floatParam` of a confidence. -/
def confidenceParam : Option ℚ → Option ℚ
  | none => some 0
  | some c => if c < 0 ∨ 1 < c then none else some c

/-- `limitParam`. -/
def limitParam : Option ℤ → Option ℤ
  | none => some defaultLimit
  | some n => if n < 1 ∨ maxLimit < n then none else some n

/-- The query that `handleListTracks` makes of what the console asks for, with `none` for its
errors. -/
def serverQuery (q : TracksQuery) : Option TrackQuery :=
  if q.state.all (· ∈ trackStates) then do
    let since ← timeParam q.since
    let until' ← timeParam q.until'
    if since ≠ 0 ∧ until' ≠ 0 ∧ until' < since then none
    else do
      let minConfidence ← confidenceParam q.minConfidence
      let limit ← limitParam q.limit
      some {
        states := q.state
        since := since
        until' := until'
        minConfidence := minConfidence
        serial := GoString.trimSpace (q.serial.getD "")
        vendor := GoString.trimSpace (q.vendor.getD "")
        limit := limit }
  else none

/-! ## The reducer -/

/-- `TracksResponse`. -/
structure TracksResponse where
  tracks : List TrackDoc := []
  total : ℕ := 0
  deriving DecidableEq, Repr

/-- `matchesQuery`.  How `toLowerCase` treats a text is given. -/
def matchesQuery (toLowerCase : String → String) (d : TrackDoc) (q : TracksQuery) : Bool :=
  if q.state ≠ [] ∧ d.state ∉ q.state then false
  else if q.since.any fun since ↦ since ≠ [] ∧ d.lastSeen < since then false
  else if q.until'.any fun until' ↦ until' ≠ [] ∧ until' < d.lastSeen then false
  else if q.serial.any fun serial ↦ d.identity.bind (·.serial) ≠ some serial then false
  else if q.vendor.any fun vendor ↦
    toLowerCase ((d.identity.bind (·.vendor)).getD "") ≠ toLowerCase vendor then false
  else if q.minConfidence.any fun c ↦ d.confidence < c then false
  else true

/-- `MAX_CLOSED_PER_LIST`. -/
def maxClosedPerList : ℕ := 500

/-- The closed ones of a list. -/
def closedOf (tracks : List TrackDoc) : List TrackDoc := tracks.filter (·.state = "CLOSED")

/-- The `doomed` ids of `evictExcessClosed`: of the closed tracks beyond the limit, those that were
seen last the longest ago. -/
def doomed (tracks : List TrackDoc) : List GoBytes :=
  let closed := closedOf tracks
  let oldestFirst := closed.insertionSort fun a b ↦ ¬b.lastSeen < a.lastSeen
  (oldestFirst.take (closed.length - maxClosedPerList)).map (·.trackID)

/-- `evictExcessClosed`. -/
def evictExcessClosed (tracks : List TrackDoc) : List TrackDoc :=
  if (closedOf tracks).length ≤ maxClosedPerList then tracks
  else tracks.filter fun d ↦ !(doomed tracks).contains d.trackID

section reducer

variable (toLowerCase : String → String) (q : TracksQuery) (old : TracksResponse)

/-- Where the list has the track. -/
def indexOf (id : GoBytes) : Option ℕ := old.tracks.findIdx? (·.trackID = id)

/-- The list without the track. -/
def without (id : GoBytes) : TracksResponse where
  tracks := old.tracks.filter (·.trackID ≠ id)
  total := old.total - 1

/-- What a `track.update` does to the answer of a query. -/
def applyUpdate (track : TrackDoc) : TracksResponse :=
  let fits := matchesQuery toLowerCase track q
  match indexOf old track.trackID with
  | none =>
    if !fits then old
    else { tracks := evictExcessClosed (old.tracks ++ [track]), total := old.total + 1 }
  | some index =>
    if !fits then without old track.trackID
    else { old with tracks := old.tracks.set index track }

/-- What a `track.closed` does to it. -/
def applyClosed (id : GoBytes) : TracksResponse :=
  match indexOf old id with
  | none => old
  | some index =>
    match old.tracks[index]? with
    | none => old
    | some existing =>
      if existing.state = "CLOSED" then old
      else
        let closed := { existing with state := "CLOSED" }
        if !matchesQuery toLowerCase closed q then without old id
        else { old with tracks := old.tracks.set index closed }

/-- The ids that an update evicts. -/
def evictedBy (track : TrackDoc) : List GoBytes :=
  if indexOf old track.trackID = none ∧ matchesQuery toLowerCase track q = true then
    doomed (old.tracks ++ [track])
  else []

end reducer

/-! ## A cache entry and its store -/

/-- A frame, with the track that its document is of. -/
inductive TrackFrame
  | update (t : Track)
  | closed (id : GoBytes)
  deriving DecidableEq, Repr

/-- A cache entry, and the store that it was read from. -/
structure ListCache where
  store : MemStore
  entry : TracksResponse
  /-- The ids that were evicted. -/
  evicted : List GoBytes := []

/-- What `Ingestor.Track` does to the store before it sends the frame: a closing changes only the
state. -/
def ingested (s : MemStore) : TrackFrame → MemStore
  | .update t => (s.upsertTrack t).getD s
  | .closed id =>
    match s.tracks.get id with
    | none => s
    | some t => (s.upsertTrack { t with state := "CLOSED" }).getD s

/-- A track that a frame can carry: it has an id, and RFC 3339 can write when it was last seen. -/
def Sendable (t : Track) : Prop := t.trackID ≠ [] ∧ GoTime.InRange t.lastSeen

instance (t : Track) : Decidable (Sendable t) := inferInstanceAs (Decidable (_ ∧ _))

/-- The answer of `ListTracks`, as the console keeps it. -/
def answer (fold : Char → Char) (s : MemStore) (asked : TrackQuery) : TracksResponse where
  tracks := (s.listTracks fold asked).rows.map docOf
  total := (s.listTracks fold asked).total

namespace ListCache

/-- The frame is applied on both sides. -/
def step (toLowerCase : String → String) (q : TracksQuery) (w : ListCache) :
    TrackFrame → ListCache
  | .update t => {
      store := ingested w.store (.update t)
      entry := applyUpdate toLowerCase q w.entry (docOf t)
      evicted := w.evicted ++ evictedBy toLowerCase q w.entry (docOf t) }
  | .closed id => {
      store := ingested w.store (.closed id)
      entry := applyClosed toLowerCase q w.entry id
      evicted := w.evicted }

end ListCache

/-- A cache entry under pushed frames: it starts with the server's answer, which its limit does not
cut off. -/
def listCache (toLowerCase : String → String) (fold : Char → Char) (q : TracksQuery)
    (asked : TrackQuery) : Machine ListCache TrackFrame where
  init w := w.entry = answer fold w.store asked ∧ w.evicted = [] ∧
    w.entry.total ≤ limitOf asked.limit ∧ ∀ t ∈ w.store.tracks.rows, Sendable t
  next w f w' := (∀ t, f = .update t → Sendable t) ∧ w' = w.step toLowerCase q f

end ClassG.Ui
