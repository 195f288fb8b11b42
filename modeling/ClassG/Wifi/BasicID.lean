import ClassG.Wifi.Detection
import ClassG.Wifi.MessagePack

/-!
# The identity of an aircraft

A pack of Open Drone ID may hold several Basic IDs, of any type, and some of them empty.  They are
all kept, and `basic_id` chooses among them: a serial number first.  So no message takes a serial
number away that another one carries, in whatever order they come.

* `basicIDs_of_parse` — the Basic IDs that are kept are those of the messages.
* `populatedSerial_eq` — the choice among them is the first serial number that a message carries.
* `serial_reported` — and that is what a detection reports.
-/

set_option autoImplicit false

namespace ClassG.Wifi.Odid

open PyBytes

/-- `id_type` of a serial number. -/
def serialType : String := "serial_ansi_cta_2063"

/-- The Basic ID of a message, if it is one. -/
def basicIDOf (msg : List Byte) : Option BasicId :=
  if byteAt msg 0 / 16 = MessageType.basicID then
    some {
      idType := (idTypes (byteAt msg 1 / 16)).getD "unknown"
      uaType := (uaTypes (byteAt msg 1 % 16)).getD "other"
      uasID := decodeString (slice msg 2 22) }
  else none

/-- The serial number that a message carries: a Basic ID of that type, which is not empty. -/
def serialOf (msg : List Byte) : Option String :=
  if byteAt msg 0 / 16 = MessageType.basicID ∧ byteAt msg 1 / 16 = 1 then
    decodeString (slice msg 2 22)
  else none

/-- A serial number that is there. -/
def BasicId.isPopulatedSerial (b : BasicId) : Bool := b.uasID.getD "" ≠ "" ∧ b.idType = serialType

/-! ## The Basic IDs of a pack -/

theorem dispatch_basicIDs (msgType : ℕ) (body : List Byte) (payload : OdidPayload) :
    Returns (dispatch msgType body payload) fun payload' ↦ msgType ≠ MessageType.basicID →
      payload'.basicIDs = payload.basicIDs := by
  match msgType with
  | 0x0 => exact fun _ _ h ↦ absurd rfl h
  | 0x1 => exact (Returns.true _).bind fun _ _ ↦ Returns.pure fun _ ↦ rfl
  | 0x3 => exact (Returns.true _).bind fun _ _ ↦ Returns.pure fun _ ↦ rfl
  | 0x4 => exact (Returns.true _).bind fun _ _ ↦ Returns.pure fun _ ↦ rfl
  | 0x5 => exact (Returns.true _).bind fun _ _ ↦ Returns.pure fun _ ↦ rfl
  | 0x2 | _ + 6 => exact Returns.pure fun _ ↦ rfl

theorem slice_drop_one (msg : List Byte) : slice (msg.drop 1) 1 21 = slice msg 2 22 := by
  rw [slice, slice, List.take_drop, List.drop_drop]

/-- **A message adds its Basic ID, if it is one**, and leaves those that are there. -/
theorem parseMessage_basicIDs (msg : List Byte) (payload : OdidPayload) :
    Returns (parseMessage msg payload) fun payload' ↦
      payload'.basicIDs = payload.basicIDs ++ (basicIDOf msg).toList := by
  intro payload' hok
  by_cases hsup : Supported msg
  swap
  · obtain ⟨text, herr⟩ := parseMessage_of_not hsup payload
    rw [herr] at hok
    cases hok
  have hlen : msg.length = 25 := hsup.length
  have hzero : item (msg.drop 1) 0 = .ok (byteAt msg 1) := by
    rw [item_eq (by rw [List.length_drop]; omega), byteAt, byteAt, List.getD_eq_getElem?_getD,
      List.getElem?_drop, ← List.getD_eq_getElem?_getD]
  rw [parseMessage, if_neg (not_not.mpr hsup.length), item_eq (by omega)] at hok
  dsimp only [Except.bind, bind, pure, Except.pure] at hok
  rw [if_neg (not_not.mpr hsup.version)] at hok
  by_cases hbasic : byteAt msg 0 / 16 = MessageType.basicID
  · rw [hbasic, MessageType.basicID, dispatch, parseBasicID, hzero] at hok
    obtain rfl := Except.ok.inj hok
    rw [basicIDOf, if_pos hbasic, ← slice_drop_one]
    rfl
  · rw [basicIDOf, if_neg hbasic, Option.toList_none, List.append_nil]
    exact dispatch_basicIDs _ _ { payload with protocolVersion := byteAt msg 0 % 16 } payload' hok
      hbasic

theorem parseMessages_basicIDs (msgs : List (List Byte)) (payload : OdidPayload) :
    Returns (parseMessages msgs payload) fun payload' ↦
      payload'.basicIDs = payload.basicIDs ++ msgs.filterMap basicIDOf := by
  induction msgs generalizing payload with
  | nil => exact Returns.pure (List.append_nil _).symm
  | cons msg msgs ih =>
    rw [parseMessages, List.foldlM_cons]
    refine (parseMessage_basicIDs msg payload).bind fun next hnext payload' hok ↦ ?_
    rw [ih next payload' hok, hnext, List.append_assoc, List.filterMap_cons]
    cases basicIDOf msg <;> rfl

/-- **The Basic IDs that are kept** are those of the messages, in their order. -/
theorem basicIDs_of_parse {data : List Byte} {payload : OdidPayload}
    (h : parseMessagePack data = .ok payload) :
    payload.basicIDs = (messages data).filterMap basicIDOf := by
  by_cases haccepted : IsPack data ∨ IsMessage data
  · rw [(parseMessagePack_of_accepted haccepted).1] at h
    exact parseMessages_basicIDs _ _ payload h
  · rw [not_or] at haccepted
    obtain ⟨text, herr⟩ := parseMessagePack_of_not haccepted.1 haccepted.2
    rw [herr] at h
    cases h

/-! ## The choice -/

theorem ne_of_decodeString {raw : List Byte} {s : String} (h : decodeString raw = some s) :
    s ≠ "" := by
  rw [decodeString] at h
  split at h
  · cases h
  · rename_i hne
    obtain rfl := Option.some.inj h
    exact fun hempty ↦ hne (by simpa using congrArg String.toList hempty)

theorem idTypes_eq_serial (n : ℕ) : (idTypes n).getD "unknown" = serialType ↔ n = 1 := by
  match n with
  | 0 | 2 | 3 | 4 => decide
  | 1 => decide
  | _ + 5 => simp [idTypes, serialType]

/-- A message carries the serial number that its Basic ID is populated with. -/
theorem serialOf_eq (msg : List Byte) :
    serialOf msg = (basicIDOf msg).bind fun b ↦ if b.isPopulatedSerial then b.uasID else none := by
  rw [serialOf, basicIDOf]
  by_cases hbasic : byteAt msg 0 / 16 = MessageType.basicID
  swap
  · rw [if_neg hbasic, if_neg fun h ↦ hbasic h.1]
    rfl
  rw [if_pos hbasic, Option.bind_some, BasicId.isPopulatedSerial]
  simp only [idTypes_eq_serial, hbasic, true_and]
  cases hdecode : decodeString (slice msg 2 22) with
  | none => simp
  | some s => simp [ne_of_decodeString hdecode]

/-- **The choice is the first serial number that a message carries.** -/
theorem populatedSerial_eq (msgs : List (List Byte)) :
    ((msgs.filterMap basicIDOf).find? BasicId.isPopulatedSerial).bind BasicId.uasID =
      msgs.findSome? serialOf := by
  induction msgs with
  | nil => rfl
  | cons msg msgs ih =>
    rw [List.filterMap_cons, List.findSome?_cons, serialOf_eq]
    cases hbasic : basicIDOf msg with
    | none => exact ih
    | some b =>
      rw [Option.bind_some]
      by_cases hserial : b.isPopulatedSerial
      · rw [if_pos hserial, List.find?_cons_of_pos hserial, Option.bind_some]
        cases huas : b.uasID with
        | none => simp [BasicId.isPopulatedSerial, huas] at hserial
        | some s => rfl
      · rw [if_neg hserial, List.find?_cons_of_neg hserial]
        exact ih

/-- A serial number that a message carries is what `basic_id` is. -/
theorem basicID_of_serial {data : List Byte} {payload : OdidPayload} {s : String}
    (h : parseMessagePack data = .ok payload) (hs : (messages data).findSome? serialOf = some s) :
    ∃ b, payload.basicID = some b ∧ b.uasID = some s ∧ b.idType = serialType := by
  rw [← populatedSerial_eq, ← basicIDs_of_parse h, Option.bind_eq_some_iff] at hs
  obtain ⟨b, hb, huas⟩ := hs
  have hserial := List.find?_some hb
  rw [BasicId.isPopulatedSerial, decide_eq_true_eq] at hserial
  refine ⟨b, ?_, huas, hserial.2⟩
  rw [OdidPayload.basicID]
  exact congrArg (fun found ↦ found <|> _) hb

/-- A pack carries a serial number. -/
def CarriesSerial (data : List Byte) : Prop := ∃ msg ∈ messages data, ∃ s, serialOf msg = some s

/-- The serial number of an identity, and its type. -/
def Reports (fields : List (String × Json)) (s : String) : Prop :=
  fields.lookup "serial" = some (.str s) ∧ fields.lookup "id_type" = some (.str serialType)

theorem exists_found {data : List Byte} (h : CarriesSerial data) :
    ∃ s, (messages data).findSome? serialOf = some s := by
  obtain ⟨msg, hmsg, s, hs⟩ := h
  rw [← Option.isSome_iff_exists, List.findSome?_isSome_iff]
  exact ⟨msg, hmsg, by rw [hs]; rfl⟩

theorem reports_of_serial {data : List Byte} {payload : OdidPayload} {s : String} (beacon : Beacon)
    (h : parseMessagePack data = .ok payload) (hs : (messages data).findSome? serialOf = some s) :
    Reports (odidIdentity beacon payload) s := by
  obtain ⟨b, hb, huas, htype⟩ := basicID_of_serial h hs
  have hwire : serialType ∈ wireIDTypes := by decide
  constructor <;> simp [odidIdentity, hb, huas, htype, hwire, Json.strOrNull, List.lookup_cons]

/-- **Whenever a message carries a serial number, one is reported.**  It is the first that there is:
no Basic ID of another type and no empty one, before it or after it, takes its place.  Where all the
messages that carry one carry the same, it is reported in whatever order they come. -/
theorem serial_reported :
    (∀ (data : List Byte) (payload : OdidPayload) (beacon : Beacon),
      parseMessagePack data = .ok payload → CarriesSerial data →
        ∃ before msg after s, messages data = before ++ msg :: after ∧
          (∀ m ∈ before, serialOf m = none) ∧ serialOf msg = some s ∧
            Reports (odidIdentity beacon payload) s) ∧
    ∀ (data data' : List Byte) (payload' : OdidPayload) (s : String) (beacon : Beacon),
      parseMessagePack data' = .ok payload' → (messages data).Perm (messages data') →
        (∀ msg ∈ messages data, ∀ t ∈ serialOf msg, t = s) → CarriesSerial data →
          Reports (odidIdentity beacon payload') s := by
  constructor
  · intro data payload beacon h hcarries
    obtain ⟨s, hs⟩ := exists_found hcarries
    obtain ⟨before, msg, after, hsplit, hmsg, hbefore⟩ := List.findSome?_eq_some_iff.mp hs
    exact ⟨before, msg, after, s, hsplit, hbefore, hmsg, reports_of_serial beacon h hs⟩
  · intro data data' payload' s beacon h hperm hone hcarries
    obtain ⟨msg, hmsg, t, ht⟩ := hcarries
    obtain ⟨s', hs'⟩ := exists_found ⟨msg, hperm.subset hmsg, t, ht⟩
    obtain ⟨found, hfound, hserial⟩ := List.exists_of_findSome?_eq_some hs'
    rw [← hone found (hperm.symm.subset hfound) s' hserial]
    exact reports_of_serial beacon h hs'

/-- A Basic ID of a type, with a text. -/
def basicIDMessage (idType : Byte) (text : List Byte) : List Byte :=
  [0x02, idType] ++ text ++ List.replicate (23 - text.length) 0

/-- A pack of two messages. -/
def packOfTwo (first second : List Byte) : List Byte := [0xF2, 25, 2] ++ first ++ second

/-- The beacon that the packs are in. -/
def packBeacon : Beacon := ⟨"60:60:1f:00:00:01", "60:60:1f:00:00:01", none, [], none, none⟩

/-- A session comes first, and the serial number is reported. -/
theorem session_first_reported : ∀ payload, parseMessagePack
    (packOfTwo (basicIDMessage 0x40 [0x53, 0x37]) (basicIDMessage 0x10 [0x41, 0x31])) = .ok payload →
      ∃ before msg after s, messages (packOfTwo (basicIDMessage 0x40 [0x53, 0x37])
        (basicIDMessage 0x10 [0x41, 0x31])) = before ++ msg :: after ∧
          (∀ m ∈ before, serialOf m = none) ∧ serialOf msg = some s ∧
            Reports (odidIdentity packBeacon payload) s := fun payload h ↦
  serial_reported.1 _ payload packBeacon h
    ⟨basicIDMessage 0x10 [0x41, 0x31], by decide, "A1", by decide⟩

/-- A serial number is announced and left empty: the session is reported in its place. -/
theorem empty_serial_replaced :
    ∃ payload, parseMessagePack
      (packOfTwo (basicIDMessage 0x10 []) (basicIDMessage 0x40 [0x53, 0x37])) = .ok payload ∧
        (∃ b ∈ payload.basicIDs, b.idType = serialType) ∧
        (odidIdentity packBeacon payload).lookup "serial" = some (.str "S7") ∧
        (odidIdentity packBeacon payload).lookup "id_type" = some (.str "specific_session") := by
  refine ⟨{ protocolVersion := 2, basicIDs := [⟨serialType, "undeclared", none⟩,
    ⟨"specific_session", "undeclared", some "S7"⟩] }, by decide, by decide, by rfl,
    by rfl⟩

end ClassG.Wifi.Odid
