import ClassG.ForGo.Strings
import ClassG.Fusion.Track

/-!
# ADS-B contacts

`ContactStore` of `services/fusion/contact.go`: one contact for each manned aircraft, keyed by its
ICAO 24-bit address.  A contact is deliberately not a track.  It exists to explain detections
away, so it is forgotten after `expireAfter` with no further message: a stale contact suppresses a
real aircraft by attributing it to an airliner that left the area minutes ago.

The registry of airframes is a file read at startup and is taken as a function.
-/

set_option autoImplicit false

namespace ClassG.Fusion

/-- What the aircraft database knows about one airframe. -/
structure AircraftInfo where
  registration : String := ""
  typeCode : String := ""
  model : String := ""
  operator : String := ""
  deriving DecidableEq, Repr

/-- One manned aircraft. -/
structure ADSBContact where
  icao : String
  callsign : String := ""
  firstSeen : GoTime
  lastSeen : GoTime := 0
  messages : ℕ := 0
  current : Option Position := none
  altFt : Option ℤ := none
  aircraft : Option AircraftInfo := none
  deriving DecidableEq, Repr

/-- What a `ContactStore` is made with. -/
structure ContactConfig where
  expireAfter : GoDuration := 60 * GoDuration.second
  /-- The aircraft database; with none attached, it knows nothing. -/
  lookup : String → Option AircraftInfo := fun _ ↦ none
  /-- The upper case of a letter outside ASCII. -/
  upper : Char → Char := id

/-- The store: the contacts by normalised ICAO address. -/
structure ContactStore where
  byICAO : GoMap String ADSBContact := .empty

namespace ContactStore

variable (cc : ContactConfig)

/-- Fold one Class D detection into the contact for its ICAO address.  Returns that contact and
whether it is new; a detection that cannot be keyed returns none. -/
def observe (s : ContactStore) (d : Detection) : ContactStore × Option (ADSBContact × Bool) :=
  match d.adsb with
  | none => (s, none)
  | some a =>
    let icao := GoString.toUpper cc.upper (GoString.trimSpace a.icao)
    if d.detectionClass ≠ classADSB ∨ icao = "" then (s, none)
    else
      let isNew := (s.byICAO.get icao).isNone
      let c := (s.byICAO.get icao).getD
        { icao := icao, firstSeen := d.ts, aircraft := cc.lookup icao }
      let callsign := GoString.trimSpace a.callsign
      let c : ADSBContact :=
        { c with
          messages := c.messages + 1
          -- ADS-B messages arrive out of order, and an older one must not move the clocks
          lastSeen := if c.lastSeen < d.ts then d.ts else c.lastSeen
          firstSeen := if d.ts < c.firstSeen then d.ts else c.firstSeen
          callsign := if callsign ≠ "" then callsign else c.callsign
          altFt := a.altFt.or c.altFt
          -- most messages carry no position; the last known fix is kept
          current := match d.position with
            | some p => some { lat := p.lat, lon := p.lon, atTime := d.ts }
            | none => c.current }
      ({ s with byICAO := s.byICAO.put icao c }, some (c, isNew))

/-- Drop the contacts that have gone quiet, returning their addresses. -/
def reap (s : ContactStore) (now : GoTime) : ContactStore × List String :=
  let expired := s.byICAO.keys.filter fun icao ↦
    ((s.byICAO.get icao).map fun c ↦ decide (cc.expireAfter < GoTime.sub now c.lastSeen)).getD false
  ({ s with byICAO := s.byICAO.deleteAll expired }, expired)

/-- `Active`: the contacts. -/
def active (s : ContactStore) : List ADSBContact := s.byICAO.values

end ContactStore

end ClassG.Fusion
