import ClassG.Wifi.Odid

/-!
# What the Open Drone ID parser accepts

Every byte that the payload parsers look at is there in a message of 25 bytes, so all that can go
wrong is what the parser checks for itself: `parseMessage_cases`.  From that, message by message,
`parseMessagePack_of_pack` and `parseMessagePack_of_message` say what is accepted and
`parseMessagePack_of_not` that everything else is refused with an error of the parser's own.
-/

set_option autoImplicit false

namespace ClassG.Wifi.Odid

open PyBytes

/-- The value of a byte, where there is one. -/
def byteAt (data : List Byte) (i : ℕ) : ℕ := (data.getD i 0).val

theorem item_eq {data : List Byte} {i : ℕ} (h : i < data.length) :
    item data i = .ok (byteAt data i) := by
  rw [item_of_lt h, byteAt, List.getD_eq_getElem?_getD, List.getElem?_eq_getElem h]
  rfl

/-! ## One message -/

/-- A payload of 24 bytes is long enough for every parser. -/
theorem dispatch_ok (msgType : ℕ) {body : List Byte} (h : body.length = 24) (payload : OdidPayload) :
    ∃ payload', dispatch msgType body payload = .ok payload' := by
  have hitem {i : ℕ} (hi : i < 24) : item body i = .ok (byteAt body i) := item_eq (by omega)
  have hlocation : ∃ location, parseLocation body = .ok location := by
    obtain ⟨vspeed, -, hvspeed⟩ := unpackSignedB_of_le (show 3 + 1 ≤ body.length by omega)
    obtain ⟨lat, -, hlat⟩ := unpackSignedI_of_le (show 4 + 4 ≤ body.length by omega)
    obtain ⟨lon, -, hlon⟩ := unpackSignedI_of_le (show 8 + 4 ≤ body.length by omega)
    obtain ⟨baro, -, hbaro⟩ := unpackH_of_le (show 12 + 2 ≤ body.length by omega)
    obtain ⟨geo, -, hgeo⟩ := unpackH_of_le (show 14 + 2 ≤ body.length by omega)
    obtain ⟨height, -, hheight⟩ := unpackH_of_le (show 16 + 2 ≤ body.length by omega)
    obtain ⟨ts, -, hts⟩ := unpackH_of_le (show 20 + 2 ≤ body.length by omega)
    rw [parseLocation, hitem (by norm_num), hitem (by norm_num), hitem (by norm_num), hvspeed, hlat,
      hlon, hbaro, hgeo, hheight, hitem (by norm_num), hts]
    exact ⟨_, rfl⟩
  have hsystem : ∃ system, parseSystem body = .ok system := by
    obtain ⟨lat, -, hlat⟩ := unpackSignedI_of_le (show 1 + 4 ≤ body.length by omega)
    obtain ⟨lon, -, hlon⟩ := unpackSignedI_of_le (show 5 + 4 ≤ body.length by omega)
    obtain ⟨count, -, hcount⟩ := unpackH_of_le (show 9 + 2 ≤ body.length by omega)
    obtain ⟨alt, -, halt⟩ := unpackH_of_le (show 17 + 2 ≤ body.length by omega)
    obtain ⟨ts, -, hts⟩ := unpackI_of_le (show 19 + 4 ≤ body.length by omega)
    rw [parseSystem, hitem (by norm_num), hlat, hlon, hcount, hitem (by norm_num),
      hitem (by norm_num), halt, hts]
    exact ⟨_, rfl⟩
  obtain ⟨location, hlocation⟩ := hlocation
  obtain ⟨system, hsystem⟩ := hsystem
  have hzero : item body 0 = .ok (byteAt body 0) := hitem (by norm_num)
  match msgType with
  | 0x0 =>
    rw [dispatch, parseBasicID, hzero]
    exact ⟨_, rfl⟩
  | 0x1 =>
    rw [dispatch, hlocation]
    exact ⟨_, rfl⟩
  | 0x3 =>
    rw [dispatch, parseSelfID, hzero]
    exact ⟨_, rfl⟩
  | 0x4 =>
    rw [dispatch, hsystem]
    exact ⟨_, rfl⟩
  | 0x5 =>
    rw [dispatch, parseOperatorID, hzero]
    exact ⟨_, rfl⟩
  | 0x2 | _ + 6 => exact ⟨_, rfl⟩

/-- A message of the right size and of a version that is supported. -/
structure Supported (msg : List Byte) : Prop where
  length : msg.length = messageSize
  version : byteAt msg 0 % 16 ∈ supportedVersions

instance (msg : List Byte) : Decidable (Supported msg) :=
  decidable_of_iff (msg.length = messageSize ∧ byteAt msg 0 % 16 ∈ supportedVersions)
    ⟨fun h ↦ ⟨h.1, h.2⟩, fun h ↦ ⟨h.length, h.version⟩⟩

theorem parseMessage_of_supported {msg : List Byte} (h : Supported msg) (payload : OdidPayload) :
    ∃ payload', parseMessage msg payload = .ok payload' := by
  have hlen : msg.length = 25 := h.length
  have hitem : item msg 0 = .ok (byteAt msg 0) := item_eq (by omega)
  have hbody : (msg.drop 1).length = 24 := by rw [List.length_drop, hlen]
  obtain ⟨payload', hpayload⟩ := dispatch_ok (byteAt msg 0 / 16) hbody
    { payload with protocolVersion := byteAt msg 0 % 16 }
  refine ⟨payload', ?_⟩
  rw [parseMessage, if_neg (not_not.mpr h.length), hitem]
  show (if byteAt msg 0 % 16 ∉ supportedVersions then _ else _) = _
  rw [if_neg (not_not.mpr h.version)]
  exact hpayload

theorem parseMessage_of_not {msg : List Byte} (h : ¬Supported msg) (payload : OdidPayload) :
    ∃ text, parseMessage msg payload = .error (.parse text) := by
  rw [parseMessage]
  by_cases hlen : msg.length = messageSize
  · have hitem : item msg 0 = .ok (byteAt msg 0) := item_eq (by rw [hlen]; decide)
    have hversion : byteAt msg 0 % 16 ∉ supportedVersions := fun hv ↦ h ⟨hlen, hv⟩
    rw [if_neg (not_not.mpr hlen), hitem]
    show ∃ text, (if byteAt msg 0 % 16 ∉ supportedVersions then _ else _) = _
    rw [if_pos hversion]
    exact ⟨_, rfl⟩
  · rw [if_pos hlen]
    exact ⟨_, rfl⟩

/-! ## Several messages -/

theorem parseMessages_of_supported {msgs : List (List Byte)} (h : ∀ msg ∈ msgs, Supported msg)
    (payload : OdidPayload) : ∃ payload', parseMessages msgs payload = .ok payload' := by
  induction msgs generalizing payload with
  | nil => exact ⟨payload, rfl⟩
  | cons msg msgs ih =>
    rw [List.forall_mem_cons] at h
    obtain ⟨next, hnext⟩ := parseMessage_of_supported h.1 payload
    obtain ⟨payload', hpayload⟩ := ih h.2 next
    refine ⟨payload', ?_⟩
    rw [parseMessages, List.foldlM_cons, hnext]
    exact hpayload

theorem parseMessages_of_not {msgs : List (List Byte)} (h : ¬∀ msg ∈ msgs, Supported msg)
    (payload : OdidPayload) : ∃ text, parseMessages msgs payload = .error (.parse text) := by
  induction msgs generalizing payload with
  | nil => exact absurd (by simp) h
  | cons msg msgs ih =>
    rw [parseMessages, List.foldlM_cons]
    by_cases hmsg : Supported msg
    · obtain ⟨next, hnext⟩ := parseMessage_of_supported hmsg payload
      rw [hnext]
      exact ih (fun hall ↦ h (List.forall_mem_cons.mpr ⟨hmsg, hall⟩)) next
    · obtain ⟨text, htext⟩ := parseMessage_of_not hmsg payload
      rw [htext]
      exact ⟨text, rfl⟩

/-! ## Packs -/

/-- A pack: its header, and the messages it claims. -/
structure IsPack (data : List Byte) : Prop where
  header : byteAt data 0 / 16 = MessageType.messagePack
  size : byteAt data 1 = messageSize
  count : 1 ≤ byteAt data 2 ∧ byteAt data 2 ≤ maxPackMessages
  length : 3 + byteAt data 2 * messageSize ≤ data.length
  messages : ∀ msg ∈ packMessages data (byteAt data 2), byteAt msg 0 % 16 ∈ supportedVersions

/-- A message without a pack around it. -/
structure IsMessage (data : List Byte) : Prop where
  header : byteAt data 0 / 16 ≠ MessageType.messagePack
  length : messageSize ≤ data.length
  version : byteAt data 0 % 16 ∈ supportedVersions

theorem length_of_mem_packMessages {data : List Byte} {n : ℕ}
    (h : 3 + n * messageSize ≤ data.length) {msg : List Byte} (hmsg : msg ∈ packMessages data n) :
    msg.length = messageSize := by
  obtain ⟨i, hi, rfl⟩ := List.mem_map.mp hmsg
  rw [List.mem_range] at hi
  refine length_slice ?_
  have hmul : (i + 1) * messageSize ≤ n * messageSize := Nat.mul_le_mul_right _ hi
  rw [Nat.add_mul, Nat.one_mul] at hmul
  omega

/-- The record before any message is read. -/
def initial (data : List Byte) : OdidPayload := { protocolVersion := byteAt data 0 % 16 }

theorem parseMessagePack_of_pack {data : List Byte} (h : IsPack data) :
    parseMessagePack data = parseMessages (packMessages data (byteAt data 2)) (initial data) := by
  have hlen : 3 + byteAt data 2 * 25 ≤ data.length := h.length
  have hitem {i : ℕ} (hi : i < 3) : item data i = .ok (byteAt data i) := item_eq (by omega)
  rw [parseMessagePack, if_neg (by omega), hitem (by norm_num)]
  show (if byteAt data 0 / 16 ≠ MessageType.messagePack then _ else _) = _
  rw [if_neg (not_not.mpr h.header), if_neg (by omega), hitem (by norm_num), hitem (by norm_num)]
  show (if byteAt data 1 ≠ messageSize then _ else _) = _
  rw [if_neg (not_not.mpr h.size), if_neg (not_not.mpr h.count), if_neg (not_lt.mpr h.length)]
  rfl

theorem parseMessagePack_of_message {data : List Byte} (h : IsMessage data) :
    parseMessagePack data = parseMessages [data.take messageSize] (initial data) := by
  have hlen : 25 ≤ data.length := h.length
  rw [parseMessagePack, if_neg (by omega), item_eq (by omega)]
  show (if byteAt data 0 / 16 ≠ MessageType.messagePack then _ else _) = _
  rw [if_pos h.header, parseMessages, List.foldlM_cons]
  show parseMessage (data.take messageSize) (initial data) = _
  cases parseMessage (data.take messageSize) (initial data) with
  | error e => rfl
  | ok payload => rfl

theorem byteAt_take {data : List Byte} {n i : ℕ} (h : i < n) :
    byteAt (data.take n) i = byteAt data i := by
  rw [byteAt, byteAt, List.getD_eq_getElem?_getD, List.getD_eq_getElem?_getD,
    List.getElem?_take_of_lt h]

theorem supported_of_message {data : List Byte} (h : IsMessage data) :
    Supported (data.take messageSize) where
  length := by rw [List.length_take, min_eq_left h.length]
  version := by rw [byteAt_take (by decide)]; exact h.version

theorem supported_of_pack {data : List Byte} (h : IsPack data) :
    ∀ msg ∈ packMessages data (byteAt data 2), Supported msg := fun msg hmsg ↦
  ⟨length_of_mem_packMessages h.length hmsg, h.messages msg hmsg⟩

/-- **What is no pack and no message is refused** with an error of the parser's own. -/
theorem parseMessagePack_of_not {data : List Byte} (hpack : ¬IsPack data)
    (hmessage : ¬IsMessage data) : ∃ text, parseMessagePack data = .error (.parse text) := by
  rw [parseMessagePack]
  by_cases hempty : data.length < 1
  · rw [if_pos hempty]
    exact ⟨_, rfl⟩
  rw [if_neg hempty, item_eq (by omega)]
  show ∃ text, (if byteAt data 0 / 16 ≠ MessageType.messagePack then _ else _) = _
  by_cases hheader : byteAt data 0 / 16 = MessageType.messagePack
  swap
  · rw [if_pos hheader]
    refine parseMessage_of_not (fun hsup ↦ hmessage ⟨hheader, ?_, ?_⟩) _
    · have hlen := hsup.length
      rw [List.length_take] at hlen
      omega
    · rw [← byteAt_take (n := messageSize) (by decide)]
      exact hsup.version
  rw [if_neg (not_not.mpr hheader)]
  by_cases hshort : data.length < 3
  · rw [if_pos hshort]
    exact ⟨_, rfl⟩
  rw [if_neg hshort, item_eq (by omega), item_eq (by omega)]
  show ∃ text, (if byteAt data 1 ≠ messageSize then _ else _) = _
  by_cases hsize : byteAt data 1 = messageSize
  swap
  · rw [if_pos hsize]
    exact ⟨_, rfl⟩
  rw [if_neg (not_not.mpr hsize)]
  by_cases hcount : 1 ≤ byteAt data 2 ∧ byteAt data 2 ≤ maxPackMessages
  swap
  · rw [if_pos hcount]
    exact ⟨_, rfl⟩
  rw [if_neg (not_not.mpr hcount)]
  by_cases hlen : data.length < 3 + byteAt data 2 * messageSize
  · rw [if_pos hlen]
    exact ⟨_, rfl⟩
  rw [if_neg hlen]
  refine parseMessages_of_not (fun hall ↦ hpack ?_) _
  exact ⟨hheader, hsize, hcount, not_lt.mp hlen, fun msg hmsg ↦ (hall msg hmsg).version⟩

/-! ## What comes after -/

theorem byteAt_append {data : List Byte} {i : ℕ} (h : i < data.length) (extra : List Byte) :
    byteAt (data ++ extra) i = byteAt data i := by
  rw [byteAt, byteAt, List.getD_eq_getElem?_getD, List.getD_eq_getElem?_getD,
    List.getElem?_append_left h]

theorem slice_append {data : List Byte} {i j : ℕ} (h : j ≤ data.length) (extra : List Byte) :
    slice (data ++ extra) i j = slice data i j := by
  rw [slice, slice, List.take_append_of_le_length h]

theorem packMessages_append {data : List Byte} {n : ℕ} (h : 3 + n * messageSize ≤ data.length)
    (extra : List Byte) : packMessages (data ++ extra) n = packMessages data n := by
  refine List.map_congr_left fun i hi ↦ slice_append ?_ extra
  rw [List.mem_range] at hi
  have hmul : (i + 1) * messageSize ≤ n * messageSize := Nat.mul_le_mul_right _ hi
  rw [Nat.add_mul, Nat.one_mul] at hmul
  omega

theorem IsPack.append {data : List Byte} (h : IsPack data) (extra : List Byte) :
    IsPack (data ++ extra) ∧ packMessages (data ++ extra) (byteAt (data ++ extra) 2) =
      packMessages data (byteAt data 2) ∧ initial (data ++ extra) = initial data := by
  have hlen : 3 + byteAt data 2 * 25 ≤ data.length := h.length
  have hbyte {i : ℕ} (hi : i < 3) : byteAt (data ++ extra) i = byteAt data i :=
    byteAt_append (by omega) extra
  have hmsgs := packMessages_append h.length extra
  refine ⟨⟨?_, ?_, ?_, ?_, ?_⟩, ?_, ?_⟩
  · rw [hbyte (by norm_num)]
    exact h.header
  · rw [hbyte (by norm_num)]
    exact h.size
  · rw [hbyte (by norm_num)]
    exact h.count
  · rw [hbyte (by norm_num), List.length_append]
    exact h.length.trans (Nat.le_add_right _ _)
  · rw [hbyte (by norm_num), hmsgs]
    exact h.messages
  · rw [hbyte (by norm_num), hmsgs]
  · rw [initial, initial, hbyte (by norm_num)]

theorem IsMessage.append {data : List Byte} (h : IsMessage data) (extra : List Byte) :
    IsMessage (data ++ extra) ∧ (data ++ extra).take messageSize = data.take messageSize ∧
      initial (data ++ extra) = initial data := by
  have hlen : 25 ≤ data.length := h.length
  have hbyte : byteAt (data ++ extra) 0 = byteAt data 0 := byteAt_append (by omega) extra
  refine ⟨⟨?_, ?_, ?_⟩, List.take_append_of_le_length h.length, ?_⟩
  · rw [hbyte]
    exact h.header
  · rw [List.length_append]
    exact h.length.trans (Nat.le_add_right _ _)
  · rw [hbyte]
    exact h.version
  · rw [initial, initial, hbyte]

/-! ## The grammar -/

/-- The messages of the input, one after the other. -/
def messages (data : List Byte) : List (List Byte) :=
  if byteAt data 0 / 16 = MessageType.messagePack then packMessages data (byteAt data 2)
  else [data.take messageSize]

theorem parseMessagePack_of_accepted {data : List Byte} (h : IsPack data ∨ IsMessage data) :
    parseMessagePack data = parseMessages (messages data) (initial data) ∧
      ∃ payload, parseMessagePack data = .ok payload := by
  rcases h with h | h
  · rw [messages, if_pos h.header, parseMessagePack_of_pack h]
    exact ⟨rfl, parseMessages_of_supported (supported_of_pack h) _⟩
  · rw [messages, if_neg h.header, parseMessagePack_of_message h]
    exact ⟨rfl, parseMessages_of_supported
      (List.forall_mem_singleton.mpr (supported_of_message h)) _⟩

/-- **What the parser of packs accepts, and what it makes of it.**  On every input it returns a
record or raises its own error; it returns a record exactly of packs and of single messages, and the
record is what the messages leave behind one after the other, whatever bytes come after them.  The
parser of elements looks at the first four bytes of an element, and passes the rest on without the
fifth. -/
theorem parse_message_pack_iff (data : List Byte) :
    ((∃ payload, parseMessagePack data = .ok payload) ∨
        ∃ text, parseMessagePack data = .error (.parse text)) ∧
      ((∃ payload, parseMessagePack data = .ok payload) ↔ IsPack data ∨ IsMessage data) ∧
      (∀ payload, parseMessagePack data = .ok payload →
        parseMessages (messages data) (initial data) = .ok payload ∧
          ∀ extra, parseMessagePack (data ++ extra) = .ok payload) ∧
      parseVendorIE data =
        if 5 ≤ data.length ∧ slice data 0 3 = oui ∧ data[3]? = some vendorType
        then some <$> parseMessagePack (data.drop 5) else .ok none := by
  have hiff : (∃ payload, parseMessagePack data = .ok payload) ↔ IsPack data ∨ IsMessage data := by
    refine ⟨fun ⟨payload, hok⟩ ↦ ?_, fun h ↦ (parseMessagePack_of_accepted h).2⟩
    by_contra hnot
    rw [not_or] at hnot
    obtain ⟨text, herr⟩ := parseMessagePack_of_not hnot.1 hnot.2
    rw [herr] at hok
    cases hok
  refine ⟨?_, hiff, fun payload hok ↦ ?_, ?_⟩
  · by_cases h : IsPack data ∨ IsMessage data
    · exact .inl (hiff.mpr h)
    · rw [not_or] at h
      exact .inr (parseMessagePack_of_not h.1 h.2)
  · have h := hiff.mp ⟨payload, hok⟩
    refine ⟨(parseMessagePack_of_accepted h).1 ▸ hok, fun extra ↦ ?_⟩
    rcases h with h | h
    · obtain ⟨hpack, hmsgs, hinit⟩ := h.append extra
      rw [parseMessagePack_of_pack hpack, hmsgs, hinit, ← parseMessagePack_of_pack h, hok]
    · obtain ⟨hmessage, hmsgs, hinit⟩ := h.append extra
      rw [parseMessagePack_of_message hmessage, hmsgs, hinit, ← parseMessagePack_of_message h, hok]
  · rw [parseVendorIE]
    by_cases hlen : data.length < 5
    · rw [if_pos hlen, if_neg fun h ↦ absurd h.1 (by omega)]
    · rw [if_neg hlen]
      by_cases hodid : slice data 0 3 = oui ∧ data[3]? = some vendorType
      · rw [if_neg (not_or.mpr ⟨not_not.mpr hodid.1, not_not.mpr hodid.2⟩),
          if_pos ⟨not_lt.mp hlen, hodid⟩]
      · rw [if_pos (not_and_or.mp hodid), if_neg fun h ↦ hodid h.2]

/-- A basic identity without anything in it. -/
def bareMessage : List Byte := List.replicate 25 0

/-- A record is returned of an input that is no pack. -/
theorem bareMessage_accepted : ¬∀ data : List Byte, (∃ payload, parseMessagePack data = .ok payload) →
    byteAt data 0 / 16 = MessageType.messagePack := by
  intro h
  have hmessage : IsMessage bareMessage := ⟨by decide, by decide, by decide⟩
  exact absurd (h bareMessage (parseMessagePack_of_accepted (.inr hmessage)).2) (by decide)

end ClassG.Wifi.Odid
