import ClassG.Fusion.Track

/-!
# The track store

`TrackStore` of `services/fusion/track.go`: five maps over a heap of track documents.  `bySerial`
and `byMAC` find the live tracks, `all` holds them, and `closedBySerial` and `closedByMAC` find
the flights that closed recently enough for an aircraft coming back into range to rejoin them.

The maps hold pointers.  A pointer is a `Ref`, the number of the `newID` call that made the
track, and `heap` is what it points at; two indexes pointing at one track see each other's
changes, as in Go.  `all` is keyed by track id, and ids are never reused (`Config.newID_injective`),
so it is the list of the live refs.

Go ranges over `all` in no fixed order, and the order shows: `remember` lets the flight that
closes last keep a shared key.  `reap` takes the order as an argument.  The two pruning loops
range over the remembered flights, where the order does not show: forgetting one flight never
touches the entries of another.
-/

set_option autoImplicit false

namespace ClassG.Fusion

/-- What a `TrackStore` is made with. -/
structure Config where
  lifecycle : Lifecycle
  /-- `weights[class]`, which reads 0 for a class that is not listed. -/
  weights : String → ℚ
  /-- The id the `n`-th call of `newID` returns. -/
  newID : ℕ → String
  /-- Ids are unique. -/
  newID_injective : Function.Injective newID
  horizontalDistanceM : DistanceFn

/-- A pointer to a track. -/
abbrev Ref := ℕ

/-- The store: the indexes, the live tracks and the documents they point at. -/
structure TrackStore where
  bySerial : GoMap String Ref := .empty
  byMAC : GoMap String Ref := .empty
  all : List Ref := []
  closedBySerial : GoMap String Ref := .empty
  closedByMAC : GoMap String Ref := .empty
  /-- The document behind a pointer. -/
  heap : Ref → Track := fun _ ↦ default
  /-- How many tracks have been made. -/
  next : ℕ := 0

instance : Inhabited TrackStore := ⟨{}⟩

/-- Well above the 25 m vertical accuracy of a fix. -/
def resumeMinClimbM : ℚ := 40

/-- Farther than a pilot walks the launch point around a field. -/
def resumeMinRangeM : ℚ := 200

/-- Lifecycle time: the detection's own, clamped to our clock. -/
def Detection.seen (d : Detection) (now : GoTime) : GoTime := if now < d.ts then now else d.ts

variable (cfg : Config)

/-- Whether a detection belongs to a later flight rather than the one this track is recording. -/
def flightIsOver (t : Track) (seen : GoTime) : Prop :=
  t.state = .closed ∨ cfg.lifecycle.closeAfter < GoTime.sub seen t.lastSeen

instance (t : Track) (seen : GoTime) : Decidable (flightIsOver cfg t seen) :=
  inferInstanceAs (Decidable (_ ∨ _))

/-- Whether a detection arriving after a track's flight would otherwise be over is that flight
coming back into range: airborne, or far from where it took off. -/
def resumes (t : Track) (d : Detection) (seen : GoTime) : Bool :=
  if cfg.lifecycle.resumeWithin ≤ 0 ∨ cfg.lifecycle.resumeWithin < GoTime.sub seen t.lastSeen then
    false
  else match d.position, t.history with
    | some p, takeoff :: _ =>
      if resumeMinRangeM ≤ cfg.horizontalDistanceM takeoff.lat takeoff.lon p.lat p.lon then true
      else match takeoff.altGeodeticM, p.altGeodeticM with
        | some ground, some alt => decide (resumeMinClimbM ≤ alt - ground)
        | _, _ => false
    | _, _ => false

namespace TrackStore

/-- Change the document behind a pointer. -/
def modify (σ : TrackStore) (r : Ref) (f : Track → Track) : TrackStore :=
  { σ with heap := Function.update σ.heap r (f (σ.heap r)) }

/-! ## Looking a flight up -/

/-- `m[key]`, unless the key is missing from the detection. -/
def find (m : GoMap String Ref) (key : String) : Option Ref :=
  if key ≠ "" then m.get key else none

/-- Serial number beats MAC beats nothing.  A track first seen by MAC adopts the serial when a
Basic ID finally arrives, in place. -/
def resolve (σ : TrackStore) (serial mac : String) : TrackStore × Option Ref :=
  if serial ≠ "" then
    match σ.bySerial.get serial with
    | some t => (if mac ≠ "" then { σ with byMAC := σ.byMAC.put mac t } else σ, some t)
    | none =>
      match find σ.byMAC mac with
      | some t =>
        if (σ.heap t).identity.serial = "" then
          let σ := σ.modify t fun t ↦ t.withSerial serial
          ({ σ with bySerial := σ.bySerial.put serial t }, some t)
        else (σ, some t)
      | none => (σ, none)
  else (σ, find σ.byMAC mac)

/-- `resolve` over the recently closed flights. -/
def resolveClosed (σ : TrackStore) (serial mac : String) : Option Ref :=
  (find σ.closedBySerial serial).or (find σ.closedByMAC mac)

/-- Drop a track from the identity indexes without disturbing it. -/
def unindex (σ : TrackStore) (t : Ref) : TrackStore :=
  let i := (σ.heap t).identity
  { σ with
    bySerial := if i.serial ≠ "" then σ.bySerial.delete i.serial else σ.bySerial
    byMAC := σ.byMAC.deleteAll i.macs }

/-- Keep a closed flight findable.  One with no fix has no take-off point to judge a return
against. -/
def remember (σ : TrackStore) (t : Ref) : TrackStore :=
  let i := (σ.heap t).identity
  if (σ.heap t).history = [] then σ
  else
    { σ with
      closedBySerial :=
        if i.serial ≠ "" then σ.closedBySerial.put i.serial t else σ.closedBySerial
      closedByMAC := σ.closedByMAC.putAll i.macs t }

/-- Drop the entries that still point at this closed flight. -/
def forget (σ : TrackStore) (t : Ref) : TrackStore :=
  let i := (σ.heap t).identity
  { σ with
    closedBySerial :=
      if i.serial ≠ "" then σ.closedBySerial.deleteIf i.serial t else σ.closedBySerial
    closedByMAC := σ.closedByMAC.deleteAllIf i.macs t }

/-- Put a closed flight back among the live tracks, as `COASTING`. -/
def reopen (σ : TrackStore) (t : Ref) : TrackStore :=
  let i := (σ.heap t).identity
  let σ := σ.forget t
  let σ := σ.modify t fun t ↦ { t with state := .coasting }
  { σ with
    all := σ.all.insert t
    bySerial := if i.serial ≠ "" then σ.bySerial.put i.serial t else σ.bySerial
    byMAC := σ.byMAC.putAll i.macs t }

/-! ## Ingest -/

/-- The same aircraft flying again is not the same flight: a track whose flight is over, and which
the detection does not resume, is taken out of the indexes and not offered. -/
def dropFinished (σ : TrackStore) (t : Option Ref) (d : Detection) (seen : GoTime) :
    TrackStore × Option Ref :=
  match t with
  | some t =>
    if flightIsOver cfg (σ.heap t) seen ∧ ¬ resumes cfg (σ.heap t) d seen then
      (σ.unindex t, none)
    else (σ, some t)
  | none => (σ, none)

/-- An aircraft that went out of range and came back never stopped flying: with no live track to
go to, the detection may reopen a closed one. -/
def rejoin (σ : TrackStore) (t : Option Ref) (d : Detection) (seen : GoTime) :
    TrackStore × Option Ref :=
  match t with
  | some t => (σ, some t)
  | none =>
    match σ.resolveClosed d.identity.serial d.identity.mac with
    | some c => if resumes cfg (σ.heap c) d seen then (σ.reopen c, some c) else (σ, none)
    | none => (σ, none)

/-- Make a new track for a detection. -/
def mint (σ : TrackStore) (d : Detection) (seen : GoTime) : TrackStore :=
  let t : Track :=
    { trackID := cfg.newID σ.next
      firstSeen := seen
      identity := { serial := d.identity.serial, vendor := d.identity.vendorHint } }
  { σ with
    heap := Function.update σ.heap σ.next t
    next := σ.next + 1
    all := σ.all.insert σ.next
    bySerial :=
      if d.identity.serial ≠ "" then σ.bySerial.put d.identity.serial σ.next else σ.bySerial }

/-- With no track to go to, the detection starts one, unless it carries no identity to find it by
again. -/
def start (σ : TrackStore) (t : Option Ref) (d : Detection) (seen : GoTime) :
    TrackStore × Option Ref :=
  match t with
  | some t => (σ, some t)
  | none =>
    if d.identity.serial = "" ∧ d.identity.mac = "" then (σ, none)
    else (σ.mint cfg d seen, some σ.next)

/-- Attribute the detection to its track: index the track under the detection's identity and
fold the detection into the document. -/
def foldIn (σ : TrackStore) (t : Ref) (d : Detection) (seen now : GoTime)
    (terrain : TerrainResolver) : TrackStore :=
  let σ := { σ with
    byMAC := if d.identity.mac ≠ "" then σ.byMAC.put d.identity.mac t else σ.byMAC
    bySerial :=
      if d.identity.serial ≠ "" ∧ (σ.heap t).identity.serial = "" then
        σ.bySerial.put d.identity.serial t
      else σ.bySerial }
  σ.modify t fun t ↦
    t.absorb cfg.horizontalDistanceM d seen now (cfg.weights d.detectionClass) cfg.lifecycle terrain

/-- Fold a detection into the track it belongs to, creating one if needed.  Returns no track for
a detection that must not become one. -/
def ingest (σ : TrackStore) (d : Detection) (now : GoTime) (terrain : TerrainResolver) :
    TrackStore × Option Ref :=
  if d.detectionClass = classADSB then (σ, none)
  else
    let seen := d.seen now
    let (σ, t) := σ.resolve d.identity.serial d.identity.mac
    let (σ, t) := σ.dropFinished cfg t d seen
    let (σ, t) := σ.rejoin cfg t d seen
    let (σ, t) := σ.start cfg t d seen
    match t with
    | some t => (σ.foldIn cfg t d seen now terrain, some t)
    | none => (σ, none)

/-! ## Reap -/

/-- What `Reap` does to one live track; `changed` collects the tracks it reports. -/
def reapOne (now : GoTime) (acc : TrackStore × List Ref) (t : Ref) : TrackStore × List Ref :=
  let (σ, changed) := acc
  let prev := (σ.heap t).state
  let σ := σ.modify t fun t ↦ t.updateState now cfg.lifecycle
  let changed := if (σ.heap t).state ≠ prev then changed ++ [t] else changed
  if (σ.heap t).state = .closed then
    let i := (σ.heap t).identity
    let σ := { σ with
      all := σ.all.erase t
      bySerial := if i.serial ≠ "" then σ.bySerial.delete i.serial else σ.bySerial
      byMAC := σ.byMAC.deleteAll i.macs }
    -- only a flight that was confirmed has anything to resume
    (if prev = .coasting ∨ prev = .confirmed then σ.remember t else σ, changed)
  else (σ, changed)

/-- Forget a closed flight once it is past `ResumeWithin`. -/
def expire (now : GoTime) (σ : TrackStore) (t : Ref) : TrackStore :=
  if cfg.lifecycle.resumeWithin < GoTime.sub now (σ.heap t).lastSeen then σ.forget t else σ

/-- The two pruning loops: past `ResumeWithin` a closed flight is over for good. -/
def prune (σ : TrackStore) (now : GoTime) : TrackStore :=
  let σ := σ.closedBySerial.values.foldl (expire cfg now) σ
  σ.closedByMAC.values.foldl (expire cfg now) σ

/-- Advance the lifecycle of the tracks that stopped being seen and remove the closed ones,
visiting the live tracks in the given order.  Returns the tracks whose state changed. -/
def reap (σ : TrackStore) (now : GoTime) (order : List Ref) : TrackStore × List Ref :=
  let (σ, changed) := order.foldl (reapOne cfg now) (σ, [])
  (σ.prune cfg now, changed)

end TrackStore

end ClassG.Fusion
