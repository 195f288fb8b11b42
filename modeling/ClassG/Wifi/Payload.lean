import ClassG.Schema.Detection
import ClassG.Wifi.MessagePack

/-!
# What the fields of a payload are

Whatever the bytes of a message, the fields that it leaves in the record are in the ranges that the
schema of detections has for them.  A message overwrites some fields and keeps the others, so the
fields of a record are in range after any number of messages: `parseMessages_inRange`.
-/

set_option autoImplicit false

namespace ClassG.Wifi.Odid

open PyBytes Schema

/-! ## Fields -/

theorem decodeLatLon_mem {rawLat rawLon : ℤ} :
    (∀ q ∈ (decodeLatLon rawLat rawLon).1, latitude q) ∧
      ∀ q ∈ (decodeLatLon rawLat rawLon).2, longitude q := by
  rw [decodeLatLon]
  dsimp only
  split
  · exact ⟨fun _ h ↦ (nomatch h), fun _ h ↦ (nomatch h)⟩
  split
  · exact ⟨fun _ h ↦ (nomatch h), fun _ h ↦ (nomatch h)⟩
  · rename_i h
    rw [not_or, not_not, not_not] at h
    exact ⟨fun _ hq ↦ Option.some.inj hq ▸ h.1, fun _ hq ↦ Option.some.inj hq ▸ h.2⟩

theorem decodeSpeed_nonneg {raw multiplierBit : ℕ} : ∀ q ∈ decodeSpeed raw multiplierBit, nonneg q := by
  intro q hq
  rw [decodeSpeed] at hq
  split at hq
  · cases hq
  split at hq
  · cases hq
    show (0 : ℚ) ≤ raw * 0.25
    positivity
  · cases hq
    show (0 : ℚ) ≤ raw * 0.75 + 255 * 0.25
    positivity

/-- A direction is less than half a turn, and the segment adds half a turn. -/
theorem decodeDirection_mem {raw ewSegment : ℕ} : ∀ q ∈ decodeDirection raw ewSegment, bearing q := by
  intro q hq
  rw [decodeDirection] at hq
  split at hq
  · cases hq
  rename_i hraw
  have hlt : (raw : ℚ) < 180 := by exact_mod_cast not_le.mp hraw
  have h0 : (0 : ℚ) ≤ raw := raw.cast_nonneg
  split at hq
  · cases hq
    constructor <;> linarith
  · cases hq
    constructor <;> linarith

theorem uaTypes_mem : ∀ n < 16, (uaTypes n).getD "other" ∈ Schema.uaTypes := by decide

/-! ## Records -/

/-- An identity as the schema has it. -/
structure BasicId.InRange (b : BasicId) : Prop where
  uasID : ∀ s ∈ b.uasID, short s
  uaType : b.uaType ∈ Schema.uaTypes

/-- A location as the schema has it. -/
structure Location.InRange (l : Location) : Prop where
  lat : ∀ q ∈ l.lat, latitude q
  lon : ∀ q ∈ l.lon, longitude q
  speedMPS : ∀ q ∈ l.speedMPS, nonneg q
  trackDeg : ∀ q ∈ l.trackDeg, bearing q

/-- A system message as the schema has it. -/
structure SystemMsg.InRange (m : SystemMsg) : Prop where
  operatorLat : ∀ q ∈ m.operatorLat, latitude q
  operatorLon : ∀ q ∈ m.operatorLon, longitude q

/-- A record as the schema has it. -/
structure OdidPayload.InRange (p : OdidPayload) : Prop where
  basicIDs : ∀ b ∈ p.basicIDs, b.InRange
  location : ∀ l ∈ p.location, l.InRange
  selfID : ∀ m ∈ p.selfID, ∀ s ∈ m.description, short s
  system : ∀ m ∈ p.system, m.InRange
  operatorID : ∀ m ∈ p.operatorID, ∀ s ∈ m.operatorID, short s

theorem short_of_decodeString {buf : List Byte} {i j : ℕ} (hij : j - i ≤ 64) :
    ∀ s ∈ decodeString (slice buf i j), short s := fun _ hs ↦
  (length_decodeString hs).trans ((length_slice_le buf i j).trans hij)

variable (body : List Byte)

theorem parseBasicID_inRange : Returns (parseBasicID body) BasicId.InRange := by
  refine (Returns.true _).bind fun b0 _ ↦ Returns.pure ?_
  exact ⟨short_of_decodeString (by norm_num), uaTypes_mem _ (Nat.mod_lt _ (by norm_num))⟩

theorem parseLocation_inRange : Returns (parseLocation body) Location.InRange := by
  refine (Returns.true _).bind fun b0 _ ↦ ?_
  refine (Returns.true _).bind fun rawDir _ ↦ ?_
  refine (Returns.true _).bind fun rawSpeed _ ↦ ?_
  refine (Returns.true _).bind fun rawVSpeed _ ↦ ?_
  refine (Returns.true _).bind fun rawLat _ ↦ ?_
  refine (Returns.true _).bind fun rawLon _ ↦ ?_
  refine (Returns.true _).bind fun altBaro _ ↦ ?_
  refine (Returns.true _).bind fun altGeo _ ↦ ?_
  refine (Returns.true _).bind fun height _ ↦ ?_
  refine (Returns.true _).bind fun accByte _ ↦ ?_
  refine (Returns.true _).bind fun rawTS _ ↦ Returns.pure ?_
  exact ⟨decodeLatLon_mem.1, decodeLatLon_mem.2, decodeSpeed_nonneg, decodeDirection_mem⟩

theorem parseSystem_inRange : Returns (parseSystem body) SystemMsg.InRange := by
  refine (Returns.true _).bind fun b0 _ ↦ ?_
  refine (Returns.true _).bind fun rawLat _ ↦ ?_
  refine (Returns.true _).bind fun rawLon _ ↦ ?_
  refine (Returns.true _).bind fun areaCount _ ↦ ?_
  refine (Returns.true _).bind fun areaRadius _ ↦ ?_
  refine (Returns.true _).bind fun classByte _ ↦ ?_
  refine (Returns.true _).bind fun opAltRaw _ ↦ ?_
  refine (Returns.true _).bind fun timestamp _ ↦ Returns.pure ?_
  exact ⟨decodeLatLon_mem.1, decodeLatLon_mem.2⟩

theorem parseSelfID_short :
    Returns (parseSelfID body) fun m ↦ ∀ s ∈ m.description, short s := by
  refine (Returns.true _).bind fun b0 _ ↦ Returns.pure ?_
  exact short_of_decodeString (by norm_num)

theorem parseOperatorID_short :
    Returns (parseOperatorID body) fun m ↦ ∀ s ∈ m.operatorID, short s := by
  refine (Returns.true _).bind fun b0 _ ↦ Returns.pure ?_
  exact short_of_decodeString (by norm_num)

/-! ## Messages -/

/-- **One message** keeps the fields of a record in range. -/
theorem dispatch_inRange (msgType : ℕ) {payload : OdidPayload} (h : payload.InRange) :
    Returns (dispatch msgType body payload) OdidPayload.InRange := by
  match msgType with
  | 0x0 =>
    refine (parseBasicID_inRange body).bind fun basicID hbasic ↦ Returns.pure ?_
    refine { h with basicIDs := fun b hb ↦ ?_ }
    rcases List.mem_append.mp hb with hb | hb
    · exact h.basicIDs b hb
    · rwa [List.mem_singleton.mp hb]
  | 0x1 =>
    refine (parseLocation_inRange body).bind fun location hlocation ↦ Returns.pure ?_
    exact { h with location := fun l hl ↦ Option.some.inj hl ▸ hlocation }
  | 0x3 =>
    refine (parseSelfID_short body).bind fun selfID hself ↦ Returns.pure ?_
    exact { h with selfID := fun m hm ↦ Option.some.inj hm ▸ hself }
  | 0x4 =>
    refine (parseSystem_inRange body).bind fun system hsystem ↦ Returns.pure ?_
    exact { h with system := fun m hm ↦ Option.some.inj hm ▸ hsystem }
  | 0x5 =>
    refine (parseOperatorID_short body).bind fun operatorID hoperator ↦ Returns.pure ?_
    exact { h with operatorID := fun m hm ↦ Option.some.inj hm ▸ hoperator }
  | 0x2 | _ + 6 => exact Returns.pure { h with }

theorem parseMessage_inRange (msg : List Byte) {payload : OdidPayload} (h : payload.InRange) :
    Returns (parseMessage msg payload) OdidPayload.InRange := by
  rw [parseMessage]
  split
  · exact Returns.throw _ _
  refine (Returns.true _).bind fun header _ ↦ ?_
  dsimp only
  split
  · exact Returns.throw _ _
  · exact dispatch_inRange _ _ { h with }

/-- **Several messages**, one after the other. -/
theorem parseMessages_inRange (msgs : List (List Byte)) {payload : OdidPayload}
    (h : payload.InRange) : Returns (parseMessages msgs payload) OdidPayload.InRange := by
  induction msgs generalizing payload with
  | nil => exact Returns.pure h
  | cons msg msgs ih =>
    rw [parseMessages, List.foldlM_cons]
    exact (parseMessage_inRange msg h).bind fun next hnext ↦ ih hnext

theorem initial_inRange (data : List Byte) : (initial data).InRange where
  basicIDs _ h := nomatch h
  location _ h := nomatch h
  selfID _ h := nomatch h
  system _ h := nomatch h
  operatorID _ h := nomatch h

/-- **An element is of another kind, decoded to fields in range, or refused** with an error of the
parser's own. -/
theorem parseVendorIE_cases (ieBody : List Byte) :
    parseVendorIE ieBody = .ok none ∨
      (∃ payload : OdidPayload, parseVendorIE ieBody = .ok (some payload) ∧ payload.InRange) ∨
      ∃ text, parseVendorIE ieBody = .error (.parse text) := by
  rw [parseVendorIE]
  split
  · exact .inl rfl
  split
  · exact .inl rfl
  generalize ieBody.drop 5 = data
  by_cases h : IsPack data ∨ IsMessage data
  · obtain ⟨hmsgs, payload, hok⟩ := parseMessagePack_of_accepted h
    rw [hok]
    exact .inr (.inl ⟨payload, rfl, parseMessages_inRange _ (initial_inRange data) payload
      (hmsgs.symm.trans hok)⟩)
  · rw [not_or] at h
    obtain ⟨text, herr⟩ := parseMessagePack_of_not h.1 h.2
    rw [herr]
    exact .inr (.inr ⟨text, rfl⟩)

end ClassG.Wifi.Odid
