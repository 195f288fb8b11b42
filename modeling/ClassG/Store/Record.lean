import ClassG.ForGo.Base64
import ClassG.ForGo.Strings
import ClassG.ForGo.Timestamp
import ClassG.Paging
import Mathlib.Data.Prod.Lex
import Mathlib.Data.Rat.Defs

/-!
# What the API keeps

The tracks and detections of the API (`api/internal/model`), with the fields that its stores look
at, and the queries and cursors of `api/internal/store`.

Both stores order a list by an instant and then an id, both descending, and a cursor is such a pair.
Its text is what a client sends back to get the next page: `decodeCursor_encode`.
-/

set_option autoImplicit false

namespace ClassG.Store

/-! ## Documents -/

structure TrackIdentity where
  serial : String := ""
  macs : List String := []
  vendor : String := ""
  deriving DecidableEq, Repr

structure Track where
  trackID : GoBytes
  state : String := "CONFIRMED"
  firstSeen : GoTime
  lastSeen : GoTime
  identity : TrackIdentity := {}
  confidence : ℚ := 1
  rssiDBm : Option ℚ := none
  deriving DecidableEq, Repr

structure RF where
  rssiDBm : Option ℚ
  deriving DecidableEq, Repr

structure DetectionIdentity where
  serial : String := ""
  mac : String := ""
  deriving DecidableEq, Repr

structure Detection where
  detectionID : GoBytes
  ts : GoTime
  sensorID : String := ""
  detectionClass : String := "A"
  rf : Option RF := none
  identity : DetectionIdentity := {}
  deriving DecidableEq, Repr

/-- `TrackStates`. -/
def trackStates : List String := ["TENTATIVE", "CONFIRMED", "COASTING", "CLOSED"]

/-- `DetectionClasses`. -/
def detectionClasses : List String := ["A", "B", "C", "D", "E", "F", "G", "H"]

/-! ## Cursors -/

/-- A position in a list. -/
structure Cursor where
  ts : GoTime
  id : GoBytes
  deriving DecidableEq, Repr

/-- The order of the lists: by the instant, then by the id. -/
abbrev Key := GoTime ×ₗ GoBytes

namespace Cursor

/-- The place in the order. -/
def key (c : Cursor) : Key := toLex (c.ts, c.id)

/-- `Encode`. -/
def encode (c : Cursor) : GoBytes := Base64.encode (GoTime.formatRFC3339Nano c.ts ++ 0 :: c.id)

/-- `Before`. -/
def before (c : Cursor) (ts : GoTime) (id : GoBytes) : Bool :=
  if c.ts < ts then false else if ts < c.ts then true else id < c.id

theorem before_iff {c : Cursor} {ts : GoTime} {id : GoBytes} :
    c.before ts id ↔ toLex (ts, id) < c.key := by
  rw [before, key, Prod.Lex.toLex_lt_toLex]
  rcases lt_trichotomy c.ts ts with h | h | h
  · simp [h, h.le.not_gt, h.ne']
  · simp [h]
  · simp [h, h.le.not_gt]

end Cursor

/-- `strings.Cut(s, "\x00")`. -/
def cut (s : GoBytes) : Option (GoBytes × GoBytes) :=
  match s.dropWhile (· ≠ 0) with
  | [] => none
  | _ :: rest => some (s.takeWhile (· ≠ 0), rest)

/-- `DecodeCursor`; every error is `ErrBadCursor`. -/
def decodeCursor (s : GoBytes) : Option Cursor := do
  let b ← Base64.decode s
  let (ts, id) ← cut b
  let t ← GoTime.parseRFC3339Nano ts
  return ⟨t, id⟩

theorem cut_append {s : GoBytes} (h : (0 : Byte) ∉ s) (t : GoBytes) :
    cut (s ++ 0 :: t) = some (s, t) := by
  have hall : ∀ b ∈ s, decide (b ≠ 0) = true := by
    intro b hb
    simpa using fun h0 : b = 0 ↦ h (h0 ▸ hb)
  rw [cut, List.dropWhile_append_of_pos hall, List.takeWhile_append_of_pos hall]
  simp

/-- **Decoding a cursor undoes encoding it.** -/
theorem decodeCursor_encode {c : Cursor} (h : GoTime.InRange c.ts) :
    decodeCursor c.encode = some c := by
  rw [decodeCursor, Cursor.encode, Base64.decode_encode]
  simp only [Option.bind_eq_bind, Option.bind_some]
  rw [cut_append (GoTime.zero_notMem_formatRFC3339Nano c.ts)]
  simp only [Option.bind_some]
  rw [GoTime.parseRFC3339Nano_formatRFC3339Nano h]
  rfl

/-! ## Queries -/

/-- `DefaultLimit`. -/
def defaultLimit : ℕ := 100

/-- `MaxLimit`. -/
def maxLimit : ℤ := 1000

/-- The limit of a query that need not have one. -/
def limitOf (limit : ℤ) : ℕ := if limit ≤ 0 then defaultLimit else limit.toNat

theorem limitOf_pos (limit : ℤ) : 0 < limitOf limit := by
  unfold limitOf defaultLimit
  split <;> omega

structure TrackQuery where
  states : List String := []
  since : GoTime := 0
  until' : GoTime := 0
  minConfidence : ℚ := 0
  serial : String := ""
  vendor : String := ""
  lastSeenBefore : GoTime := 0
  skipTotal : Bool := false
  limit : ℤ := 0
  cursor : Option Cursor := none
  deriving DecidableEq, Repr

structure DetectionQuery where
  classes : List String := []
  sensorID : String := ""
  since : GoTime := 0
  limit : ℤ := 0
  cursor : Option Cursor := none
  deriving DecidableEq, Repr

structure TrackDetectionQuery where
  serial : String := ""
  macs : List String := []
  start : GoTime := 0
  stop : GoTime := 0
  skipTotal : Bool := false
  limit : ℤ := 0
  cursor : Option Cursor := none
  deriving DecidableEq, Repr

/-- A `TrackPage` or a `DetectionPage`. -/
structure ListPage (ρ : Type) where
  rows : List ρ := []
  nextCursor : GoBytes := []
  total : ℕ := 0
  deriving DecidableEq, Repr

/-- `TrackDetectionWindow`. -/
def trackDetectionWindow (t : Track) : GoTime × GoTime :=
  (t.firstSeen, t.lastSeen + GoDuration.second)

/-- `NeedsPeakRSSI`. -/
def needsPeakRSSI (t : Track) : Bool :=
  t.rssiDBm = none ∧ (t.identity.serial ≠ "" ∨ t.identity.macs ≠ [])

end ClassG.Store
