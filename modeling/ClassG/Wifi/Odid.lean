import ClassG.Binary64
import ClassG.ForPython.Buffer

/-!
# Open Drone ID

`classg_wifi/parsers/odid.py`: the messages of ASTM F3411, of 25 bytes each, alone or in a pack, and
the pack in a vendor element of a beacon.  Fields that are scaled by a power of two are exact; for
the others `Double.nearest` is what the division or the product is rounded to.
-/

set_option autoImplicit false

namespace ClassG.Wifi.Odid

open PyBytes

/-- `ODID_OUI`. -/
def oui : List Byte := [0xFA, 0x0B, 0xBC]

/-- `ODID_VENDOR_TYPE`. -/
def vendorType : Byte := 0x0D

/-- `MESSAGE_SIZE`. -/
def messageSize : ℕ := 25

/-- `MAX_PACK_MESSAGES`. -/
def maxPackMessages : ℕ := 10

/-- `SUPPORTED_VERSIONS`. -/
def supportedVersions : List ℕ := [0, 1, 2]

/-- `MessageType`. -/
def MessageType.basicID : ℕ := 0x0

/-- `MessageType.MESSAGE_PACK`. -/
def MessageType.messagePack : ℕ := 0xF

/-! ## Tables -/

/-- `ID_TYPES`. -/
def idTypes : ℕ → Option String
  | 0 => some "none"
  | 1 => some "serial_ansi_cta_2063"
  | 2 => some "caa_registration"
  | 3 => some "utm_uuid"
  | 4 => some "specific_session"
  | _ => none

/-- `UA_TYPES`. -/
def uaTypes : ℕ → Option String
  | 0 => some "undeclared"
  | 1 => some "aeroplane"
  | 2 => some "multirotor"
  | 3 => some "gyroplane"
  | 4 => some "hybrid_vtol"
  | 5 => some "ornithopter"
  | 6 => some "glider"
  | 7 => some "kite"
  | 8 => some "free_balloon"
  | 9 => some "captive_balloon"
  | 10 => some "airship"
  | 11 => some "parachute"
  | 12 => some "rocket"
  | 13 => some "tethered_powered"
  | 14 => some "ground_obstacle"
  | _ => none

/-- `OPERATIONAL_STATUS`. -/
def operationalStatus : ℕ → Option String
  | 0 => some "undeclared"
  | 1 => some "ground"
  | 2 => some "airborne"
  | 3 => some "emergency"
  | 4 => some "rid_system_failure"
  | _ => none

/-- `_H_ACCURACY_M`. -/
def hAccuracyM : ℕ → Option ℚ
  | 1 => some 18520
  | 2 => some 7408
  | 3 => some 3704
  | 4 => some 1852
  | 5 => some 926
  | 6 => some (Double.nearest 555.6)
  | 7 => some (Double.nearest 185.2)
  | 8 => some (Double.nearest 92.6)
  | 9 => some 30
  | 10 => some 10
  | 11 => some 3
  | 12 => some 1
  | _ => none

/-- `_V_ACCURACY_M`. -/
def vAccuracyM : ℕ → Option ℚ
  | 1 => some 150
  | 2 => some 45
  | 3 => some 25
  | 4 => some 10
  | 5 => some 3
  | 6 => some 1
  | _ => none

/-! ## Messages -/

/-- `BasicId`. -/
structure BasicId where
  idType : String
  uaType : String
  uasID : Option String
  deriving DecidableEq

/-- `Location`. -/
structure Location where
  status : String
  lat : Option ℚ
  lon : Option ℚ
  altPressureM : Option ℚ
  altGeodeticM : Option ℚ
  heightM : Option ℚ
  heightIsAGL : Bool
  speedMPS : Option ℚ
  trackDeg : Option ℚ
  verticalSpeedMPS : Option ℚ
  hAccuracyM : Option ℚ
  vAccuracyM : Option ℚ
  timestampSIntoHour : Option ℚ
  deriving DecidableEq

/-- `SelfId`. -/
structure SelfId where
  descriptionType : ℕ
  description : Option String
  deriving DecidableEq

/-- `SystemMsg`. -/
structure SystemMsg where
  operatorLat : Option ℚ
  operatorLon : Option ℚ
  operatorAltM : Option ℚ
  operatorLocationType : ℕ
  classificationType : ℕ
  categoryEU : ℕ
  classEU : ℕ
  areaCount : ℕ
  areaRadiusM : ℕ
  timestamp : ℕ
  deriving DecidableEq

/-- `OperatorId`. -/
structure OperatorId where
  operatorIDType : ℕ
  operatorID : Option String
  deriving DecidableEq

/-- `OdidPayload`. -/
structure OdidPayload where
  protocolVersion : ℕ
  basicIDs : List BasicId := []
  location : Option Location := none
  selfID : Option SelfId := none
  system : Option SystemMsg := none
  operatorID : Option OperatorId := none
  unknownTypes : List ℕ := []
  deriving DecidableEq

/-- `CTA2063_MANUFACTURERS`. -/
def cta2063Manufacturers (code : String) : Option String :=
  if code = "1581" then some "dji" else none

/-- `manufacturer_code`. -/
def BasicId.manufacturerCode (b : BasicId) : Option String :=
  let uid := (b.uasID.getD "").toList
  if b.idType ≠ "serial_ansi_cta_2063" ∨ uid.length < 6 then none
  else
    match hexDigit (uid.getD 4 ' ') with
    | none => none
    | some declared =>
      if declared = 0 ∨ uid.length ≠ 5 + declared then none else some (.ofList (uid.take 4))

/-- `vendor`. -/
def BasicId.vendor (b : BasicId) : Option String := b.manufacturerCode.bind cta2063Manufacturers

/-- `basic_id`: a serial number that is there, or any identity that is, or any. -/
def OdidPayload.basicID (p : OdidPayload) : Option BasicId :=
  (p.basicIDs.find? fun b ↦ b.uasID.getD "" ≠ "" ∧ b.idType = "serial_ansi_cta_2063") <|>
    (p.basicIDs.find? fun b ↦ b.uasID.getD "" ≠ "" ∧ b.idType ≠ "none") <|> p.basicIDs.head?

/-! ## Fields -/

/-- `_decode_altitude`. -/
def decodeAltitude (raw : ℕ) : Option ℚ := if raw = 0 then none else some (raw * 0.5 - 1000)

/-- `_decode_latlon`. -/
def decodeLatLon (rawLat rawLon : ℤ) : Option ℚ × Option ℚ :=
  if rawLat = 0 ∧ rawLon = 0 then (none, none)
  else
    let lat := Double.nearest (rawLat / 10 ^ 7)
    let lon := Double.nearest (rawLon / 10 ^ 7)
    if ¬(-90 ≤ lat ∧ lat ≤ 90) ∨ ¬(-180 ≤ lon ∧ lon ≤ 180) then (none, none)
    else (some lat, some lon)

/-- `_decode_speed`, with `INVALID_SPEED_H`. -/
def decodeSpeed (raw multiplierBit : ℕ) : Option ℚ :=
  if raw = 255 then none
  else if multiplierBit = 0 then some (raw * 0.25)
  else some (raw * 0.75 + 255 * 0.25)

/-- `_decode_vertical_speed`, with `INVALID_SPEED_V`. -/
def decodeVerticalSpeed (rawSigned : ℤ) : Option ℚ :=
  if rawSigned = 63 then none else some (rawSigned * 0.5)

/-- `_decode_direction`, with `INVALID_DIRECTION`. -/
def decodeDirection (raw ewSegment : ℕ) : Option ℚ :=
  if 180 ≤ raw then none else if ewSegment ≠ 0 then some (raw + 180) else some raw

/-- The tenths of a second in `_parse_location`, with `INVALID_TIMESTAMP`. -/
def decodeTimestamp (raw : ℕ) : Option ℚ :=
  if raw = 0xFFFF then none else some (Double.nearest (raw * Double.nearest 0.1))

/-! ## Parsers of the payloads -/

/-- `_parse_basic_id`. -/
def parseBasicID (p : List Byte) : Except Raised BasicId := do
  let b0 ← item p 0
  return {
    idType := (idTypes (b0 / 16)).getD "unknown"
    uaType := (uaTypes (b0 % 16)).getD "other"
    uasID := decodeString (slice p 1 21) }

/-- `_parse_location`. -/
def parseLocation (p : List Byte) : Except Raised Location := do
  let b0 ← item p 0
  let speedMult := b0 % 2
  let ewSegment := b0 / 2 % 2
  let heightType := b0 / 4 % 2
  let status := (operationalStatus (b0 / 16)).getD "undeclared"
  let rawDir ← item p 1
  let rawSpeed ← item p 2
  let rawVSpeed ← unpackSignedB p 3
  let rawLat ← unpackSignedI p 4
  let rawLon ← unpackSignedI p 8
  let altBaro ← unpackH p 12
  let altGeo ← unpackH p 14
  let height ← unpackH p 16
  let accByte ← item p 18
  let rawTS ← unpackH p 20
  let (lat, lon) := decodeLatLon rawLat rawLon
  return {
    status, lat, lon
    altPressureM := decodeAltitude altBaro
    altGeodeticM := decodeAltitude altGeo
    heightM := decodeAltitude height
    heightIsAGL := heightType ≠ 0
    speedMPS := decodeSpeed rawSpeed speedMult
    trackDeg := decodeDirection rawDir ewSegment
    verticalSpeedMPS := decodeVerticalSpeed rawVSpeed
    hAccuracyM := hAccuracyM (accByte % 16)
    vAccuracyM := vAccuracyM (accByte / 16)
    timestampSIntoHour := decodeTimestamp rawTS }

/-- `_parse_self_id`. -/
def parseSelfID (p : List Byte) : Except Raised SelfId := do
  let b0 ← item p 0
  return { descriptionType := b0, description := decodeString (slice p 1 24) }

/-- `_parse_system`. -/
def parseSystem (p : List Byte) : Except Raised SystemMsg := do
  let b0 ← item p 0
  let rawLat ← unpackSignedI p 1
  let rawLon ← unpackSignedI p 5
  let areaCount ← unpackH p 9
  let areaRadius ← item p 11
  let classByte ← item p 16
  let opAltRaw ← unpackH p 17
  let timestamp ← unpackI p 19
  let (lat, lon) := decodeLatLon rawLat rawLon
  return {
    operatorLat := lat
    operatorLon := lon
    operatorAltM := decodeAltitude opAltRaw
    operatorLocationType := b0 / 8 % 4
    classificationType := b0 % 8
    categoryEU := classByte % 16
    classEU := classByte / 16
    areaCount
    areaRadiusM := areaRadius * 10
    timestamp }

/-- `_parse_operator_id`. -/
def parseOperatorID (p : List Byte) : Except Raised OperatorId := do
  let b0 ← item p 0
  return { operatorIDType := b0, operatorID := decodeString (slice p 1 21) }

/-! ## Entry points -/

/-- What a message of the type does to the payload: `_DISPATCH`, and the types beside it. -/
def dispatch (msgType : ℕ) (body : List Byte) (payload : OdidPayload) :
    Except Raised OdidPayload :=
  match msgType with
  | 0x0 => do
    let basicID ← parseBasicID body
    return { payload with basicIDs := payload.basicIDs ++ [basicID] }
  | 0x1 => do
    let location ← parseLocation body
    return { payload with location := some location }
  | 0x3 => do
    let selfID ← parseSelfID body
    return { payload with selfID := some selfID }
  | 0x4 => do
    let system ← parseSystem body
    return { payload with system := some system }
  | 0x5 => do
    let operatorID ← parseOperatorID body
    return { payload with operatorID := some operatorID }
  | _ => .ok { payload with unknownTypes := payload.unknownTypes ++ [msgType] }

/-- `parse_message`: the payload after one message. -/
def parseMessage (msg : List Byte) (payload : OdidPayload) : Except Raised OdidPayload := do
  if msg.length ≠ messageSize then
    throw (.parse s!"message must be {messageSize} bytes, got {msg.length}")
  let header ← item msg 0
  let msgType := header / 16
  let version := header % 16
  if version ∉ supportedVersions then
    throw (.parse s!"unsupported ODID protocol version {version}")
  dispatch msgType (msg.drop 1) { payload with protocolVersion := version }

/-- The loop of `parse_message_pack`. -/
def parseMessages (msgs : List (List Byte)) (payload : OdidPayload) : Except Raised OdidPayload :=
  msgs.foldlM (fun payload msg ↦ parseMessage msg payload) payload

/-- The messages of a pack. -/
def packMessages (data : List Byte) (count : ℕ) : List (List Byte) :=
  (List.range count).map fun i ↦
    slice data (3 + i * messageSize) (3 + i * messageSize + messageSize)

/-- `parse_message_pack`. -/
def parseMessagePack (data : List Byte) : Except Raised OdidPayload := do
  if data.length < 1 then throw (.parse "empty ODID payload")
  let header ← item data 0
  let payload : OdidPayload := { protocolVersion := header % 16 }
  if header / 16 ≠ MessageType.messagePack then
    parseMessage (data.take messageSize) payload
  else
    if data.length < 3 then throw (.parse "truncated message pack header")
    let singleSize ← item data 1
    let count ← item data 2
    if singleSize ≠ messageSize then
      throw (.parse s!"unexpected message size {singleSize} in pack")
    if ¬(1 ≤ count ∧ count ≤ maxPackMessages) then
      throw (.parse s!"implausible message count {count} in pack")
    let needed := 3 + count * messageSize
    if data.length < needed then
      throw (.parse
        s!"pack claims {count} messages ({needed} bytes) but only {data.length} present")
    parseMessages (packMessages data count) payload

/-- `parse_vendor_ie`: none, if it is not an element of Open Drone ID. -/
def parseVendorIE (ieBody : List Byte) : Except Raised (Option OdidPayload) :=
  if ieBody.length < 5 then .ok none
  else if slice ieBody 0 3 ≠ oui ∨ ieBody[3]? ≠ some vendorType then .ok none
  else some <$> parseMessagePack (ieBody.drop 5)

end ClassG.Wifi.Odid
