import ClassG.Wifi.MessagePack
import ClassG.Wifi.Pipeline
import ClassG.Wifi.Radiotap
import ClassG.Wifi.Tags

/-!
# Frames that differ in the operator's bytes

A System message of Open Drone ID says in ten of its bytes where the operator is.  `PayloadTwins`
are payloads that differ in nothing but these, and `PayloadTwins.parse` says what becomes of them:
the parser takes both or neither, and what it makes of them is the same but for the operator's
position.

`FrameTwins` differ in nothing but where their System messages say that the operator is.  Their
beacons are the same but for the elements that these messages are in (`FrameTwins.parseBeacon`), and
the detections of both frames pair up: each two are the same detection, or are made of two elements
of Open Drone ID that were parsed alike (`sent_twins`).
-/

set_option autoImplicit false

namespace ClassG.Wifi.Odid

open PyBytes

/-! ## Payloads that are twins -/

/-- `MessageType.SYSTEM`. -/
def MessageType.system : ℕ := 0x4

/-- The bytes of a System message for the operator's latitude, longitude and altitude. -/
def operatorBytes : List ℕ := [2, 3, 4, 5, 6, 7, 8, 9, 18, 19]

/-- A message starts here, in a payload of Open Drone ID. -/
def StartsAt (data : List Byte) (start : ℕ) : Prop :=
  if byteAt data 0 / 16 = MessageType.messagePack then
    ∃ k < byteAt data 2, start = 3 + k * messageSize
  else start = 0

/-- The byte is one of the operator's. -/
def IsOperatorByte (data : List Byte) (i : ℕ) : Prop :=
  ∃ start, StartsAt data start ∧ byteAt data start / 16 = MessageType.system ∧
    ∃ j ∈ operatorBytes, i = start + j

/-- Payloads that differ in the operator's bytes only. -/
structure PayloadTwins (data data' : List Byte) : Prop where
  length : data.length = data'.length
  agree : ∀ i, data[i]? = data'[i]? ∨ IsOperatorByte data i

/-- Messages that do. -/
structure MessageTwins (msg msg' : List Byte) : Prop where
  length : msg.length = msg'.length
  agree : ∀ i, msg[i]? = msg'[i]? ∨ byteAt msg 0 / 16 = MessageType.system ∧ i ∈ operatorBytes

/-- Without the operator's position. -/
def SystemMsg.blind (m : SystemMsg) : SystemMsg :=
  { m with operatorLat := none, operatorLon := none, operatorAltM := none }

/-- Without the operator's position. -/
def OdidPayload.blind (p : OdidPayload) : OdidPayload :=
  { p with system := p.system.map SystemMsg.blind }

/-- Both are parsed, to the same but for the operator's position, or neither is. -/
def ParsedAlike (x x' : Except Raised OdidPayload) : Prop :=
  (∃ p p', x = .ok p ∧ x' = .ok p' ∧ p.blind = p'.blind) ∨ (∃ e, x = .error e) ∧ ∃ e, x' = .error e

/-! ## Bytes and slices -/

theorem byteAt_congr {data data' : List Byte} {i : ℕ} (h : data[i]? = data'[i]?) :
    byteAt data i = byteAt data' i := by
  rw [byteAt, byteAt, List.getD_eq_getElem?_getD, List.getD_eq_getElem?_getD, h]

theorem getElem?_slice {data : List Byte} {i j k : ℕ} :
    (slice data i j)[k]? = if i + k < j then data[i + k]? else none := by
  rw [slice, List.getElem?_drop, List.getElem?_take]

theorem slice_congr_of_agree {data data' : List Byte} {i j : ℕ}
    (h : ∀ k, i ≤ k → k < j → data[k]? = data'[k]?) : slice data i j = slice data' i j := by
  refine List.ext_getElem? fun k ↦ ?_
  rw [getElem?_slice, getElem?_slice]
  split
  · rename_i hlt
    exact h _ (Nat.le_add_right i k) hlt
  · rfl

/-! ## One message -/

section message

variable {msg msg' : List Byte}

theorem MessageTwins.byteAt_zero (h : MessageTwins msg msg') : byteAt msg 0 = byteAt msg' 0 := by
  refine byteAt_congr ((h.agree 0).resolve_right ?_)
  rintro ⟨-, hmem⟩
  simp [operatorBytes] at hmem

theorem MessageTwins.eq_of_ne (h : MessageTwins msg msg')
    (hne : byteAt msg 0 / 16 ≠ MessageType.system) : msg = msg' :=
  List.ext_getElem? fun i ↦ (h.agree i).resolve_right fun hop ↦ hne hop.1

theorem MessageTwins.supported_iff (h : MessageTwins msg msg') : Supported msg ↔ Supported msg' := by
  constructor <;> rintro ⟨hlen, hversion⟩
  · exact ⟨h.length ▸ hlen, h.byteAt_zero ▸ hversion⟩
  · exact ⟨h.length.trans hlen, h.byteAt_zero.symm ▸ hversion⟩

/-- The body of a System message, which is what comes after the header. -/
theorem MessageTwins.parseSystem (h : MessageTwins msg msg') (hlen : msg.length = messageSize) :
    ∃ m m', Odid.parseSystem (msg.drop 1) = .ok m ∧ Odid.parseSystem (msg'.drop 1) = .ok m' ∧
      m.blind = m'.blind := by
  have hbody : (msg.drop 1).length = 24 := by rw [List.length_drop, hlen]; rfl
  have hbody' : (msg'.drop 1).length = 24 := by rw [List.length_drop, ← h.length, hlen]; rfl
  have hagree {k : ℕ} (hk : k + 1 ∉ operatorBytes) : (msg.drop 1)[k]? = (msg'.drop 1)[k]? := by
    rw [List.getElem?_drop, List.getElem?_drop, Nat.add_comm]
    exact (h.agree _).resolve_right fun hop ↦ hk hop.2
  have hfield {n offset : ℕ} (hle : offset + n ≤ 24)
      (hout : ∀ k, offset ≤ k → k < offset + n → k + 1 ∉ operatorBytes) :
      field n (msg.drop 1) offset = field n (msg'.drop 1) offset := by
    rw [field_of_le (by omega), field_of_le (by omega),
      slice_congr_of_agree fun k hk hlt ↦ hagree (hout k hk hlt)]
  have hitem {k : ℕ} (hk : k < 24) (hout : k + 1 ∉ operatorBytes) :
      item (msg'.drop 1) k = .ok (byteAt (msg.drop 1) k) := by
    rw [item_eq (by omega), byteAt_congr (hagree hout)]
  have hout {a b : ℕ} (ha : 9 ≤ a) (hb : b ≤ 17 ∨ 19 ≤ a) :
      ∀ k, a ≤ k → k < b → k + 1 ∉ operatorBytes := by
    intro k hak hkb hmem
    simp only [operatorBytes, List.mem_cons, List.not_mem_nil, or_false] at hmem
    omega
  have hcount : unpackH (msg'.drop 1) 9 = unpackH (msg.drop 1) 9 := by
    rw [unpackH, unpackH, hfield (by norm_num) (hout (by norm_num) (.inl (by norm_num)))]
  have htime : unpackI (msg'.drop 1) 19 = unpackI (msg.drop 1) 19 := by
    rw [unpackI, unpackI, hfield (by norm_num) (hout (by norm_num) (.inr (by norm_num)))]
  obtain ⟨lat, -, hlat⟩ := unpackSignedI_of_le (show 1 + 4 ≤ (msg.drop 1).length by omega)
  obtain ⟨lon, -, hlon⟩ := unpackSignedI_of_le (show 5 + 4 ≤ (msg.drop 1).length by omega)
  obtain ⟨alt, -, halt⟩ := unpackH_of_le (show 17 + 2 ≤ (msg.drop 1).length by omega)
  obtain ⟨lat', -, hlat'⟩ := unpackSignedI_of_le (show 1 + 4 ≤ (msg'.drop 1).length by omega)
  obtain ⟨lon', -, hlon'⟩ := unpackSignedI_of_le (show 5 + 4 ≤ (msg'.drop 1).length by omega)
  obtain ⟨alt', -, halt'⟩ := unpackH_of_le (show 17 + 2 ≤ (msg'.drop 1).length by omega)
  obtain ⟨count, -, hcountok⟩ := unpackH_of_le (show 9 + 2 ≤ (msg.drop 1).length by omega)
  obtain ⟨time, -, htimeok⟩ := unpackI_of_le (show 19 + 4 ≤ (msg.drop 1).length by omega)
  have hitem' {k : ℕ} (hk : k < 24) : item (msg.drop 1) k = .ok (byteAt (msg.drop 1) k) :=
    item_eq (by omega)
  rw [Odid.parseSystem, Odid.parseSystem, hitem (by norm_num) (by decide),
    hitem (by norm_num) (by decide), hitem (by norm_num) (by decide), hitem' (by norm_num),
    hitem' (by norm_num), hitem' (by norm_num), hcount, htime, hlat, hlon, halt, hlat', hlon', halt',
    hcountok, htimeok]
  exact ⟨_, _, rfl, rfl, rfl⟩

theorem OdidPayload.eq_of_blind {p p' : OdidPayload} (h : p.blind = p'.blind) :
    p' = { p with system := p'.system } ∧ p.system.map SystemMsg.blind =
      p'.system.map SystemMsg.blind := by
  cases p
  cases p'
  injection h with hversion hbasic hlocation hself hsystem hoperator hunknown
  subst hversion hbasic hlocation hself hoperator hunknown
  exact ⟨rfl, hsystem⟩

/-- What does the same to the rest of a payload. -/
theorem ParsedAlike.of_ok {α : Type} {p p' : OdidPayload} (h : p.blind = p'.blind)
    {f : OdidPayload → α → OdidPayload} (hf : ∀ p a, (f p a).blind = f p.blind a)
    (x : Except Raised α) :
    ParsedAlike (x >>= fun a ↦ pure (f p a)) (x >>= fun a ↦ pure (f p' a)) := by
  rcases x with e | a
  · exact .inr ⟨⟨e, rfl⟩, e, rfl⟩
  · exact .inl ⟨_, _, rfl, rfl, by rw [hf, hf, h]⟩

/-- A message that says nothing of the operator does the same to both payloads. -/
theorem dispatch_alike {msgType : ℕ} (hne : msgType ≠ MessageType.system) (body : List Byte)
    {p p' : OdidPayload} (h : p.blind = p'.blind) :
    ParsedAlike (dispatch msgType body p) (dispatch msgType body p') := by
  rw [dispatch.eq_def, dispatch.eq_def]
  split
  · exact .of_ok h (f := fun p b ↦ { p with basicIDs := p.basicIDs ++ [b] }) (fun _ _ ↦ rfl) _
  · exact .of_ok h (f := fun p l ↦ { p with location := some l }) (fun _ _ ↦ rfl) _
  · exact .of_ok h (f := fun p m ↦ { p with selfID := some m }) (fun _ _ ↦ rfl) _
  · exact absurd rfl hne
  · exact .of_ok h (f := fun p m ↦ { p with operatorID := some m }) (fun _ _ ↦ rfl) _
  · exact .of_ok h (f := fun p n ↦ { p with unknownTypes := p.unknownTypes ++ [n] })
      (fun _ _ ↦ rfl) (.ok msgType)

theorem parseMessage_of_version (hmsg : Supported msg) (p : OdidPayload) :
    parseMessage msg p = dispatch (byteAt msg 0 / 16) (msg.drop 1)
      { p with protocolVersion := byteAt msg 0 % 16 } := by
  have hlen : msg.length = 25 := hmsg.length
  rw [parseMessage, if_neg (not_not.mpr hmsg.length), item_eq (by omega)]
  show (if byteAt msg 0 % 16 ∉ supportedVersions then _ else _) = _
  rw [if_neg (not_not.mpr hmsg.version)]

/-- **Twins do the same to both payloads**, but for the operator's position. -/
theorem MessageTwins.parse (h : MessageTwins msg msg') {p p' : OdidPayload}
    (hp : p.blind = p'.blind) : ParsedAlike (parseMessage msg p) (parseMessage msg' p') := by
  by_cases hmsg : Supported msg
  · have hversion : ({ p with protocolVersion := byteAt msg 0 % 16 } : OdidPayload).blind =
        ({ p' with protocolVersion := byteAt msg 0 % 16 } : OdidPayload).blind :=
      congrArg (fun q : OdidPayload ↦ { q with protocolVersion := byteAt msg 0 % 16 }) hp
    rw [parseMessage_of_version hmsg, parseMessage_of_version (h.supported_iff.mp hmsg),
      ← h.byteAt_zero]
    by_cases htype : byteAt msg 0 / 16 = MessageType.system
    · obtain ⟨m, m', hm, hm', heq⟩ := h.parseSystem hmsg.length
      rw [htype]
      show ParsedAlike (Odid.parseSystem (msg.drop 1) >>= _) (Odid.parseSystem (msg'.drop 1) >>= _)
      rw [hm, hm']
      refine .inl ⟨_, _, rfl, rfl, ?_⟩
      rw [(OdidPayload.eq_of_blind hversion).1, OdidPayload.blind, OdidPayload.blind,
        Option.map_some, Option.map_some, heq]
    · rw [← h.eq_of_ne htype]
      exact dispatch_alike htype _ hversion
  · obtain ⟨text, herr⟩ := parseMessage_of_not hmsg p
    obtain ⟨text', herr'⟩ := parseMessage_of_not (mt h.supported_iff.mpr hmsg) p'
    exact .inr ⟨⟨_, herr⟩, _, herr'⟩

/-- All messages, one after the other. -/
theorem parseMessages_alike {msgs msgs' : List (List Byte)}
    (h : List.Forall₂ MessageTwins msgs msgs') {p p' : OdidPayload} (hp : p.blind = p'.blind) :
    ParsedAlike (parseMessages msgs p) (parseMessages msgs' p') := by
  induction h generalizing p p' with
  | nil => exact .inl ⟨p, p', rfl, rfl, hp⟩
  | cons hmsg _ ih =>
    rw [parseMessages, parseMessages, List.foldlM_cons, List.foldlM_cons]
    rcases hmsg.parse hp with ⟨q, q', hq, hq', heq⟩ | ⟨⟨e, he⟩, e', he'⟩
    · rw [hq, hq']
      exact ih heq
    · rw [he, he']
      exact .inr ⟨⟨e, rfl⟩, e', rfl⟩

end message

/-! ## A payload -/

section payload

variable {data data' : List Byte}

/-- The operator's bytes come after the header of a message. -/
theorem IsOperatorByte.two_le {i : ℕ} (h : IsOperatorByte data i) :
    2 ≤ i ∧ (byteAt data 0 / 16 = MessageType.messagePack → 3 ≤ i) := by
  obtain ⟨start, hstart, -, j, hj, rfl⟩ := h
  have hj' : 2 ≤ j := by
    simp only [operatorBytes, List.mem_cons, List.not_mem_nil, or_false] at hj
    omega
  refine ⟨by omega, fun hpack ↦ ?_⟩
  rw [StartsAt, if_pos hpack] at hstart
  obtain ⟨k, -, rfl⟩ := hstart
  omega

variable (h : PayloadTwins data data')
include h

theorem PayloadTwins.byteAt_of_lt {i : ℕ} (hi : i < 2) : byteAt data i = byteAt data' i :=
  byteAt_congr ((h.agree i).resolve_right fun hop ↦ by have := hop.two_le.1; omega)

theorem PayloadTwins.byteAt_two (hpack : byteAt data 0 / 16 = MessageType.messagePack) :
    byteAt data 2 = byteAt data' 2 :=
  byteAt_congr ((h.agree 2).resolve_right fun hop ↦ by have := hop.two_le.2 hpack; omega)

theorem PayloadTwins.length_slice_eq (i j : ℕ) : (slice data i j).length = (slice data' i j).length := by
  rw [slice, slice, List.length_drop, List.length_drop, List.length_take, List.length_take, h.length]

/-- The message in a payload of one message. -/
theorem PayloadTwins.take (hone : byteAt data 0 / 16 ≠ MessageType.messagePack) :
    MessageTwins (data.take messageSize) (data'.take messageSize) where
  length := by rw [List.length_take, List.length_take, h.length]
  agree i := by
    rw [List.getElem?_take, List.getElem?_take]
    split
    · refine (h.agree i).imp id fun ⟨start, hstart, hsystem, j, hj, hi⟩ ↦ ?_
      rw [StartsAt, if_neg hone] at hstart
      subst hstart
      rw [Nat.zero_add] at hi
      exact ⟨by rwa [byteAt_take (by decide)], hi ▸ hj⟩
    · exact .inl rfl

/-- The messages of a pack. -/
theorem PayloadTwins.packMessages (hpack : byteAt data 0 / 16 = MessageType.messagePack) (n : ℕ) :
    List.Forall₂ MessageTwins (packMessages data n) (packMessages data' n) := by
  rw [Odid.packMessages, Odid.packMessages, List.forall₂_map_left_iff, List.forall₂_map_right_iff]
  refine List.forall₂_same.mpr fun k _ ↦ ⟨h.length_slice_eq _ _, fun i ↦ ?_⟩
  rw [getElem?_slice, getElem?_slice]
  split
  · rename_i hi
    refine (h.agree _).imp id fun ⟨start, hstart, hsystem, j, hj, heq⟩ ↦ ?_
    rw [StartsAt, if_pos hpack] at hstart
    obtain ⟨k', -, rfl⟩ := hstart
    have hj' : j < 25 := by
      simp only [operatorBytes, List.mem_cons, List.not_mem_nil, or_false] at hj
      omega
    simp only [messageSize] at hi heq
    obtain rfl : k = k' := by omega
    obtain rfl : i = j := by omega
    have hzero : byteAt (slice data (3 + k * 25) (3 + k * 25 + 25)) 0 = byteAt data (3 + k * 25) := by
      rw [byteAt, byteAt, List.getD_eq_getElem?_getD, List.getD_eq_getElem?_getD, getElem?_slice,
        if_pos (by omega), Nat.add_zero]
    exact ⟨(congrArg (· / 16) hzero).trans hsystem, hj⟩
  · exact .inl rfl

/-- **The payloads of twins** are parsed alike. -/
theorem PayloadTwins.parse : ParsedAlike (parseMessagePack data) (parseMessagePack data') := by
  have herror (x x' : Raised) : ParsedAlike (.error x) (.error x') := .inr ⟨⟨x, rfl⟩, x', rfl⟩
  have hitem {i : ℕ} (hi : i < data.length) : item data i = .ok (byteAt data i) := item_eq hi
  have hitem' {i : ℕ} (hi : i < data.length) : item data' i = .ok (byteAt data' i) :=
    item_eq (h.length ▸ hi)
  rw [parseMessagePack, parseMessagePack, ← h.length]
  by_cases hempty : data.length < 1
  · rw [if_pos hempty, if_pos hempty]
    exact herror _ _
  rw [if_neg hempty, if_neg hempty, hitem (by omega), hitem' (by omega),
    ← h.byteAt_of_lt (show 0 < 2 by norm_num)]
  show ParsedAlike (if byteAt data 0 / 16 ≠ MessageType.messagePack then _ else _)
    (if byteAt data 0 / 16 ≠ MessageType.messagePack then _ else _)
  by_cases hheader : byteAt data 0 / 16 = MessageType.messagePack
  swap
  · rw [if_pos hheader, if_pos hheader]
    exact (h.take hheader).parse rfl
  rw [if_neg (not_not.mpr hheader), if_neg (not_not.mpr hheader)]
  by_cases hshort : data.length < 3
  · rw [if_pos hshort, if_pos hshort]
    exact herror _ _
  rw [if_neg hshort, if_neg hshort, hitem (by omega), hitem (by omega), hitem' (by omega),
    hitem' (by omega), ← h.byteAt_of_lt (show 1 < 2 by norm_num), ← h.byteAt_two hheader]
  show ParsedAlike (if byteAt data 1 ≠ messageSize then _ else _)
    (if byteAt data 1 ≠ messageSize then _ else _)
  by_cases hsize : byteAt data 1 = messageSize
  swap
  · rw [if_pos hsize, if_pos hsize]
    exact herror _ _
  rw [if_neg (not_not.mpr hsize), if_neg (not_not.mpr hsize)]
  by_cases hcount : 1 ≤ byteAt data 2 ∧ byteAt data 2 ≤ maxPackMessages
  swap
  · rw [if_pos hcount, if_pos hcount]
    exact herror _ _
  rw [if_neg (not_not.mpr hcount), if_neg (not_not.mpr hcount)]
  by_cases hlen : data.length < 3 + byteAt data 2 * messageSize
  · rw [if_pos hlen, if_pos hlen]
    exact herror _ _
  rw [if_neg hlen, if_neg hlen]
  exact parseMessages_alike (h.packMessages hheader _) rfl

end payload

end ClassG.Wifi.Odid

namespace ClassG.Wifi

open PyBytes Odid

/-! ## Frames that are twins -/

/-- Elements of Open Drone ID that differ in the operator's bytes only. -/
inductive ElementTwins : List Byte → List Byte → Prop
  | intro {head data data' : List Byte} (hlen : head.length = 5) (houi : slice head 0 3 = oui)
      (htype : head[3]? = some vendorType) (h : PayloadTwins data data') :
      ElementTwins (head ++ data) (head ++ data')

/-- Tagged parameters that differ in such elements only. -/
inductive TagTwins : List Byte → List Byte → Prop
  | refl (tags : List Byte) : TagTwins tags tags
  | cons (tag length : Byte) {value rest rest' : List Byte} (hlen : value.length = length.val)
      (hrest : TagTwins rest rest') :
      TagTwins (tag :: length :: (value ++ rest)) (tag :: length :: (value ++ rest'))
  | element (length : Byte) {ie ie' rest rest' : List Byte} (hlen : ie.length = length.val)
      (h : ElementTwins ie ie') (hrest : TagTwins rest rest') :
      TagTwins (tagVendorSpecific :: length :: (ie ++ rest))
        (tagVendorSpecific :: length :: (ie' ++ rest'))

/-- Frames that differ in such parameters only, which come after 36 bytes of the beacon. -/
inductive FrameTwins : List Byte → List Byte → Prop
  | intro {header tags tags' : List Byte} {rt : RadiotapInfo}
      (hrt : parseRadiotap (header ++ tags) = .ok rt) (hlen : header.length = rt.length + 36)
      (h : TagTwins tags tags') : FrameTwins (header ++ tags) (header ++ tags')

theorem ElementTwins.length {ie ie' : List Byte} (h : ElementTwins ie ie') :
    ie.length = ie'.length := by
  obtain ⟨-, -, -, h⟩ := h
  rw [List.length_append, List.length_append, h.length]

/-! ## Detections, element by element -/

/-- What an element of a beacon is decoded to: a payload of Open Drone ID, or of DroneID. -/
def made (ie : List Byte) : Option (OdidPayload ⊕ Dji.DjiPayload) :=
  match Odid.parseVendorIE ie with
  | .ok (some payload) => some (.inl payload)
  | _ =>
    match Dji.parseVendorIE ie with
    | .ok (some payload) => some (.inr payload)
    | _ => none

/-- A detection on its way, with the element that it was made of, if it was made of one. -/
structure Sent where
  document : Json
  element : Option (List Byte)

namespace Pipeline

variable (p : Pipeline) (draw : ℕ → Draw) (b : Beacon)

/-- The detection that is made of an element. -/
def document (ie : List Byte) (draw : Draw) : OdidPayload ⊕ Dji.DjiPayload → Json
  | .inl payload => fromOdid p.sensorID b payload ie draw
  | .inr payload => fromDji p.libm p.sensorID b payload ie draw

/-- The detections that are made of elements, where there have been `n` before. -/
def sentFrom (n : ℕ) : List (List Byte) → List Sent
  | [] => []
  | ie :: ies =>
    match made ie with
    | some payload => ⟨p.document b ie (draw n) payload, some ie⟩ :: sentFrom (n + 1) ies
    | none => sentFrom n ies

/-- The detection of a beacon that is recognised by its name or its address. -/
def recognised : List Sent :=
  match p.matcher.matchVendor p.texts b.transmitter b.ssid with
  | some (vendor, reason) => [⟨fromFingerprint p.sensorID b vendor reason (draw 0), none⟩]
  | none => []

/-- The detections of a beacon. -/
def sentOf : List Sent :=
  if p.sentFrom draw b 0 b.vendorIEs = [] then p.recognised draw b
  else p.sentFrom draw b 0 b.vendorIEs

/-- The detections of a frame. -/
def sent (frame : List Byte) : List Sent :=
  match parseBeacon frame with
  | .ok (some b) => p.sentOf draw b
  | _ => []

variable {p draw b}

/-- One element. -/
theorem processIE_made (s : Emitted) (ie : List Byte) :
    ∃ s', p.processIE draw b s ie = .ok s' ∧
      match made ie with
      | some payload => s'.detections =
          s.detections ++ [p.document b ie (draw s.detections.length) payload] ∧
            s'.droneEvidence = true
      | none => s'.detections = s.detections ∧ s'.droneEvidence = s.droneEvidence := by
  -- What is not an element of Open Drone ID goes to the other parser.
  have hdji {x : Except Raised (Option OdidPayload)} {n : ℕ} (hx : caught x = .ok (none, n))
      (hodid : Odid.parseVendorIE ie = x) (hmade : made ie =
        match Dji.parseVendorIE ie with
        | .ok (some payload) => some (.inr payload)
        | _ => none) :
      ∃ s', p.processIE draw b s ie = .ok s' ∧
        match made ie with
        | some payload => s'.detections =
            s.detections ++ [p.document b ie (draw s.detections.length) payload] ∧
              s'.droneEvidence = true
        | none => s'.detections = s.detections ∧ s'.droneEvidence = s.droneEvidence := by
    rw [hmade, processIE, hodid, hx]
    rcases Dji.parseVendorIE_cases ie with hnone | ⟨payload, hok, -⟩ | ⟨text, herr⟩
    · rw [hnone]
      exact ⟨_, rfl, rfl, rfl⟩
    · rw [hok]
      exact ⟨_, rfl, rfl, rfl⟩
    · rw [herr]
      exact ⟨_, rfl, rfl, rfl⟩
  rcases Odid.parseVendorIE_cases ie with hnone | ⟨payload, hok, -⟩ | ⟨text, herr⟩
  · exact hdji rfl hnone (by rw [made, hnone])
  · rw [processIE, made, hok]
    exact ⟨_, rfl, rfl, rfl⟩
  · exact hdji rfl herr (by rw [made, herr])

/-- All elements, one after the other. -/
theorem processIEs_made (s : Emitted) (ies : List (List Byte)) :
    ∃ s', ies.foldlM (p.processIE draw b) s = .ok s' ∧
      s'.detections = s.detections ++ (p.sentFrom draw b s.detections.length ies).map (·.document) ∧
        (s'.droneEvidence = true ↔
          s.droneEvidence = true ∨ p.sentFrom draw b s.detections.length ies ≠ []) := by
  induction ies generalizing s with
  | nil => exact ⟨s, rfl, by simp [sentFrom], by simp [sentFrom]⟩
  | cons ie ies ih =>
    obtain ⟨next, hnext, hie⟩ := p.processIE_made s ie
    obtain ⟨s', hs', hdetections, hevidence⟩ := ih next
    refine ⟨s', ?_, ?_, ?_⟩
    · rw [List.foldlM_cons, hnext]
      exact hs'
    · rw [hdetections, sentFrom]
      cases hmade : made ie with
      | none =>
        rw [hmade] at hie
        rw [hie.1]
      | some payload =>
        rw [hmade] at hie
        rw [hie.1, List.length_append, List.append_assoc]
        rfl
    · rw [hevidence, sentFrom]
      cases hmade : made ie with
      | none =>
        rw [hmade] at hie
        rw [hie.1, hie.2]
      | some payload =>
        rw [hmade] at hie
        simp [hie.2]

theorem processBeacon_sent (stats : PipelineStats) (draw : ℕ → Draw) (b : Beacon) :
    ∃ s, p.processBeacon stats draw b = .ok s ∧
      s.detections = (p.sentOf draw b).map (·.document) := by
  obtain ⟨s, hs, hdetections, hevidence⟩ := p.processIEs_made { stats } b.vendorIEs
  rw [List.nil_append] at hdetections
  rw [processBeacon, hs, sentOf, recognised]
  dsimp only [Except.bind, bind, pure, Except.pure]
  by_cases hnil : p.sentFrom draw b 0 b.vendorIEs = []
  · have hno : ¬s.droneEvidence = true := fun h ↦ by simpa [hnil] using hevidence.mp h
    have hempty : s.detections = [] := hdetections.trans (by rw [List.length_nil, hnil]; rfl)
    rw [if_neg hno, if_pos hnil]
    cases p.matcher.matchVendor p.texts b.transmitter b.ssid with
    | none => exact ⟨s, rfl, hempty⟩
    | some found =>
      refine ⟨_, rfl, ?_⟩
      rw [hempty]
      rfl
  · rw [if_pos (hevidence.mpr (.inr hnil)), if_neg hnil]
    exact ⟨s, rfl, hdetections⟩

/-- **The detections of a frame** are made of its elements. -/
theorem processFrame_sent (stats : PipelineStats) (draw : ℕ → Draw) (frame : List Byte) :
    ∃ s, p.processFrame stats draw frame = .ok s ∧
      s.detections = (p.sent draw frame).map (·.document) := by
  rw [processFrame, sent]
  rcases parseBeacon_cases frame with ⟨b, rt, hb, -⟩ | hnone | ⟨text, herr⟩
  · rw [hb]
    dsimp only [caught, Except.bind, bind, pure, Except.pure]
    exact p.processBeacon_sent _ draw b
  · rw [hnone]
    exact ⟨_, rfl, rfl⟩
  · rw [herr]
    exact ⟨_, rfl, rfl⟩

end Pipeline

/-! ## What twins are decoded to -/

/-- The same detection, or two that are made of elements that differ in the operator's bytes. -/
inductive SentTwins (sensorID : String) : Sent → Sent → Prop
  | refl (m : Sent) : SentTwins sensorID m m
  | odid (b : Beacon) (draw : Draw) {payload payload' : OdidPayload} {ie ie' : List Byte}
      (hmade : made ie = some (.inl payload)) (hmade' : made ie' = some (.inl payload'))
      (h : payload.blind = payload'.blind) :
      SentTwins sensorID ⟨fromOdid sensorID b payload ie draw, some ie⟩
        ⟨fromOdid sensorID b payload' ie' draw, some ie'⟩

/-- Elements that are decoded to the same, or to two payloads that differ in the operator's
position, or are not decoded. -/
def MadeAlike (ie ie' : List Byte) : Prop :=
  ie = ie' ∨ (made ie = none ∧ made ie' = none) ∨
    ∃ payload payload', made ie = some (.inl payload) ∧ made ie' = some (.inl payload') ∧
      payload.blind = payload'.blind

/-- An element of Open Drone ID is none of DroneID. -/
theorem made_odid {head data : List Byte} (hlen : head.length = 5) (houi : slice head 0 3 = oui)
    (htype : head[3]? = some vendorType) :
    made (head ++ data) = match parseMessagePack data with
      | .ok payload => some (.inl payload)
      | .error _ => none := by
  have hslice : slice (head ++ data) 0 3 = oui := by rw [slice_append (by omega), houi]
  have hodid : Odid.parseVendorIE (head ++ data) = some <$> parseMessagePack data := by
    rw [Odid.parseVendorIE, if_neg (by rw [List.length_append]; omega), if_neg, List.drop_left' hlen]
    rw [not_or, not_not, not_not, List.getElem?_append_left (by omega)]
    exact ⟨hslice, htype⟩
  have hdji : Dji.parseVendorIE (head ++ data) = .ok none := by
    rw [Dji.parseVendorIE, if_pos (.inr (by rw [hslice]; decide))]
    rfl
  rw [made, hodid, hdji]
  cases parseMessagePack data <;> rfl

theorem ElementTwins.made {ie ie' : List Byte} (h : ElementTwins ie ie') : MadeAlike ie ie' := by
  obtain ⟨hlen, houi, htype, hdata⟩ := h
  rcases hdata.parse with ⟨p, p', hp, hp', hblind⟩ | ⟨⟨e, he⟩, e', he'⟩
  · refine .inr (.inr ⟨p, p', ?_, ?_, hblind⟩)
    · rw [made_odid hlen houi htype, hp]
    · rw [made_odid hlen houi htype, hp']
  · refine .inr (.inl ⟨?_, ?_⟩)
    · rw [made_odid hlen houi htype, he]
    · rw [made_odid hlen houi htype, he']

/-- Elements that are decoded alike give detections that pair up. -/
theorem sentFrom_twins (p : Pipeline) (draw : ℕ → Draw) (b : Beacon) {ies ies' : List (List Byte)}
    (h : List.Forall₂ MadeAlike ies ies') (ts : List (Byte × List Byte)) (n : ℕ) :
    List.Forall₂ (SentTwins p.sensorID) (p.sentFrom draw b n ies)
      (p.sentFrom draw { b with tags := ts } n ies') := by
  induction h generalizing n with
  | nil => exact .nil
  | @cons ie ie' ies ies' hie _ ih =>
    rw [Pipeline.sentFrom, Pipeline.sentFrom]
    rcases hie with rfl | ⟨hnone, hnone'⟩ | ⟨payload, payload', hsome, hsome', hblind⟩
    · cases made ie with
      | none => exact ih n
      | some payload => cases payload <;> exact .cons (.refl _) (ih (n + 1))
    · rw [hnone, hnone']
      exact ih n
    · rw [hsome, hsome']
      exact .cons (.odid b (draw n) hsome hsome' hblind) (ih (n + 1))

/-- The elements that vendors have put into parameters. -/
def vendorElements (tags : List (Byte × List Byte)) : List (List Byte) :=
  (tags.filter fun t ↦ t.1 = tagVendorSpecific).map Prod.snd

theorem TagTwins.vendorElements {tags tags' : List Byte} (h : TagTwins tags tags') :
    List.Forall₂ MadeAlike (vendorElements (Wifi.parseTags tags))
      (vendorElements (Wifi.parseTags tags')) := by
  induction h with
  | refl tags => exact List.forall₂_same.mpr fun _ _ ↦ .inl rfl
  | @cons tag length value rest rest' hlen hrest ih =>
    rw [parseTags_cons hlen, parseTags_cons hlen, Wifi.vendorElements, Wifi.vendorElements]
    by_cases htag : tag = tagVendorSpecific
    · rw [List.filter_cons_of_pos (by simp [htag]), List.filter_cons_of_pos (by simp [htag])]
      exact .cons (.inl rfl) ih
    · rw [List.filter_cons_of_neg (by simp [htag]), List.filter_cons_of_neg (by simp [htag])]
      exact ih
  | element length hlen h hrest ih =>
    rw [parseTags_cons hlen, parseTags_cons (h.length ▸ hlen)]
    exact .cons h.made ih

/-! ## The beacons of twins -/

variable {buf buf' frame frame' tags tags' : List Byte} {n : ℕ}

/-- A header is read from what comes up to the end of its fields, which is not far behind it. -/
theorem parseRadiotap_congr (h : buf.take n = buf'.take n) (hn : n ≤ buf.length)
    (husable : Usable buf) (hle : declared buf + 32 ≤ n) :
    parseRadiotap buf = parseRadiotap buf' := by
  have hlens := congrArg List.length h
  rw [List.length_take, List.length_take] at hlens
  have hdeclared : declared buf = declared buf' :=
    congrArg unsigned (slice_congr h (show 2 + 2 ≤ n by omega))
  have husable' : Usable buf' := by
    rw [Usable, ← hdeclared]
    rw [Usable] at husable
    omega
  by_cases hends : ∃ m, 4 + 4 * (m + 1) ≤ declared buf ∧ Chain buf 4 m
  · obtain ⟨m, hm, hchain⟩ := hends
    obtain ⟨rest, hrest⟩ := presentWords_of_chain
      (show 4 + 4 * ((declared buf - 4) / 4) ≤ buf.length by omega) (by omega) hchain
    obtain ⟨rest', hrest'⟩ := presentWords_of_chain
      (show 4 + 4 * ((declared buf - 4) / 4) ≤ buf'.length by omega) (by omega)
      (hchain.congr h (by omega))
    have hfit : FieldsFit n (wordAt buf 4) (4 + 4 * (m + 1)) := by
      obtain ⟨hchannel, hsignal⟩ := signalOffset_le (wordAt buf 4) (4 + 4 * (m + 1))
      exact ⟨fun _ ↦ by omega, fun _ ↦ by omega⟩
    rw [parseRadiotap_of_usable husable, parseRadiotap_of_usable husable', ← hdeclared, hrest,
      hrest', ← wordAt_congr h (by omega)]
    exact congrArg Except.ok (congrArg (fun fields : Option ℕ × Option ℤ ↦
      (⟨declared buf, fields.1, fields.2⟩ : RadiotapInfo)) (radiotapFields_congr h hn hfit))
  · have hnone := presentWords_of_no_chain
      (show 4 + 4 * ((declared buf - 4) / 4) ≤ buf.length by omega) fun m hm hchain ↦
        hends ⟨m, by omega, hchain⟩
    have hnone' := presentWords_of_no_chain
      (show 4 + 4 * ((declared buf - 4) / 4) ≤ buf'.length by omega) fun m hm hchain ↦
        hends ⟨m, by omega, hchain.congr h.symm (by omega)⟩
    rw [parseRadiotap_of_usable husable, parseRadiotap_of_usable husable', ← hdeclared, hnone,
      hnone']
    rfl

theorem usable_of_parseRadiotap {rt : RadiotapInfo} (h : parseRadiotap buf = .ok rt) :
    Usable buf ∧ rt.length = declared buf := by
  by_cases husable : Usable buf
  · refine ⟨husable, ?_⟩
    rw [parseRadiotap_of_usable husable] at h
    cases hwords : presentWords buf ((declared buf - 4) / 4) 4 with
    | error e =>
      rw [hwords] at h
      cases h
    | ok words =>
      rw [hwords] at h
      obtain rfl := Except.ok.inj h
      rcases words with _ | ⟨_ | ⟨present, words⟩, offset⟩ <;> rfl
  · obtain ⟨text, herr⟩ := parseRadiotap_of_not_usable husable
    rw [herr] at h
    cases h

/-- Parameters that are the same, or are both of vendors. -/
def TagAlike (t t' : Byte × List Byte) : Prop :=
  t = t' ∨ t.1 = tagVendorSpecific ∧ t'.1 = tagVendorSpecific

theorem TagTwins.parseTags (h : TagTwins tags tags') :
    List.Forall₂ TagAlike (parseTags tags) (parseTags tags') := by
  induction h with
  | refl tags => exact List.forall₂_same.mpr fun _ _ ↦ .inl rfl
  | cons tag length hlen hrest ih =>
    rw [parseTags_cons hlen, parseTags_cons hlen]
    exact .cons (.inl rfl) ih
  | element length hlen h hrest ih =>
    rw [parseTags_cons hlen, parseTags_cons (h.length ▸ hlen)]
    exact .cons (.inr ⟨rfl, rfl⟩) ih

theorem ssidOf_congr {ts ts' : List (Byte × List Byte)} (h : List.Forall₂ TagAlike ts ts') :
    ssidOf ts = ssidOf ts' := by
  have hfind : ts.find? (fun t ↦ t.1 = tagSSID) = ts'.find? fun t ↦ t.1 = tagSSID := by
    induction h with
    | nil => rfl
    | @cons t t' ts ts' halike _ ih =>
      rw [List.find?_cons, List.find?_cons, ih]
      rcases halike with rfl | ⟨h, h'⟩
      · rfl
      · rw [h, h']
        rfl
  rw [ssidOf, ssidOf, hfind]

/-- **The beacons of twins** are the same but for their parameters, or both frames give none. -/
theorem FrameTwins.parseBeacon (h : FrameTwins frame frame') :
    (∃ b ts, parseBeacon frame = .ok (some b) ∧
      parseBeacon frame' = .ok (some { b with tags := ts }) ∧
        List.Forall₂ MadeAlike b.vendorIEs (vendorElements ts)) ∨
      parseBeacon frame = .ok none ∧ parseBeacon frame' = .ok none := by
  obtain @⟨header, tags, tags', rt, hrt, hlen, htags⟩ := h
  obtain ⟨husable, hdeclared⟩ := usable_of_parseRadiotap hrt
  have htake : (header ++ tags).take header.length = (header ++ tags').take header.length := by
    rw [List.take_left, List.take_left]
  have hrt' : parseRadiotap (header ++ tags') = .ok rt :=
    (parseRadiotap_congr htake (by simp) husable (by omega)).symm.trans hrt
  obtain ⟨body, hbody, hbodylen⟩ : ∃ body, header.drop rt.length = body ∧ body.length = 36 :=
    ⟨_, rfl, by rw [List.length_drop]; omega⟩
  have hdrop (tags : List Byte) : (header ++ tags).drop rt.length = body ++ tags := by
    rw [List.drop_append_of_le_length (by omega), hbody]
  have hitem (tags : List Byte) : item (body ++ tags) 0 = .ok (byteAt body 0) := by
    rw [item_eq (by rw [List.length_append]; omega), byteAt, byteAt,
      List.getD_eq_getElem?_getD, List.getD_eq_getElem?_getD,
      List.getElem?_append_left (by omega)]
  have hslice (tags : List Byte) {i j : ℕ} (hj : j ≤ 36) :
      slice (body ++ tags) i j = slice body i j := by
    rw [slice, slice, List.take_append_of_le_length (by omega)]
  have hmac (tags : List Byte) {i : ℕ} (hi : i + 6 ≤ 36) :
      mac (body ++ tags) i = mac body i := by
    rw [mac, mac, hslice tags hi]
  have hparse (tags : List Byte) (hrt : parseRadiotap (header ++ tags) = .ok rt) :
      Wifi.parseBeacon (header ++ tags) =
        if byteAt body 0 / 4 % 4 ≠ fcTypeManagement ∨ byteAt body 0 / 16 % 16 ≠ fcSubtypeBeacon then
          .ok none
        else .ok (some ⟨mac body 10, mac body 16, ssidOf (Wifi.parseTags tags),
          Wifi.parseTags tags, rt.freqMHz, rt.rssiDBM⟩) := by
    rw [Wifi.parseBeacon, if_pos rfl, hrt]
    dsimp only [Except.bind, bind, pure, Except.pure]
    rw [hdrop, if_neg (by rw [List.length_append]; omega), hitem]
    dsimp only
    rw [hmac tags (by norm_num), hmac tags (by norm_num), List.drop_left' hbodylen]
  rw [hparse tags hrt, hparse tags' hrt', ← ssidOf_congr htags.parseTags]
  split
  · exact .inr ⟨rfl, rfl⟩
  · exact .inl ⟨_, _, rfl, rfl, htags.vendorElements⟩

/-! ## The detections of twins -/

/-- **The detections of twins** pair up. -/
theorem FrameTwins.sent {frame frame' : List Byte} (h : FrameTwins frame frame') (p : Pipeline)
    (draw : ℕ → Draw) :
    List.Forall₂ (SentTwins p.sensorID) (p.sent draw frame) (p.sent draw frame') := by
  rw [Pipeline.sent, Pipeline.sent]
  rcases h.parseBeacon with ⟨b, ts, hb, hb', hts⟩ | ⟨hnone, hnone'⟩
  · rw [hb, hb']
    obtain ⟨b', hb', hies⟩ : ∃ b' : Beacon, b' = { b with tags := ts } ∧
        b'.vendorIEs = vendorElements ts := ⟨_, rfl, rfl⟩
    have hpair := sentFrom_twins p draw b hts ts 0
    rw [← hb', ← hies] at hpair
    have hrecognised : p.recognised draw b' = p.recognised draw b := by rw [hb']; rfl
    show List.Forall₂ _ (p.sentOf draw b) (p.sentOf draw { b with tags := ts })
    rw [← hb', Pipeline.sentOf, Pipeline.sentOf, hrecognised]
    have hnil : p.sentFrom draw b 0 b.vendorIEs = [] ↔ p.sentFrom draw b' 0 b'.vendorIEs = [] := by
      rw [← List.length_eq_zero_iff, ← List.length_eq_zero_iff, hpair.length_eq]
    by_cases h : p.sentFrom draw b 0 b.vendorIEs = []
    · rw [if_pos h, if_pos (hnil.mp h)]
      exact List.forall₂_same.mpr fun m _ ↦ .refl m
    · rw [if_neg h, if_neg (mt hnil.mpr h)]
      exact hpair
  · rw [hnone, hnone']
    exact .nil

end ClassG.Wifi
