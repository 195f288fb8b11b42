import ClassG.ForPython.Buffer
import ClassG.ForRust.Parse
import ClassG.Schema.Detection

/-!
# Beacons

`classg_wifi/parsers/dot11.py`: the radiotap header that a capture puts in front of a frame, and the
tagged parameters of a beacon.  A header that is cut short keeps what was decoded of it, and the
list of parameters ends at the first one that is cut short, so that all that is refused is a header
whose length cannot be.
-/

set_option autoImplicit false

namespace ClassG.Wifi

open PyBytes Schema

/-! ## The radiotap header -/

/-- The bits of a present word: `RADIOTAP_PRESENT_TSFT` and the others. -/
inductive Present
  | tsft
  | flags
  | rate
  | channel
  | fhss
  | dbmAntSignal
  | ext

/-- The place of the bit. -/
def Present.bit : Present → ℕ
  | tsft => 0
  | flags => 1
  | rate => 2
  | channel => 3
  | fhss => 4
  | dbmAntSignal => 5
  | ext => 31

/-- `word & RADIOTAP_PRESENT_…`. -/
def Present.isIn (p : Present) (word : ℕ) : Bool := word.testBit p.bit

/-- `RadiotapInfo`. -/
structure RadiotapInfo where
  length : ℕ
  freqMHz : Option ℕ
  rssiDBM : Option ℤ
  deriving DecidableEq

/-- `_align`. -/
def align (offset boundary : ℕ) : ℕ :=
  let rem := offset % boundary
  if rem ≠ 0 then offset + (boundary - rem) else offset

/-- The loop over the present words, with as many as the header still has room for: the words and
the offset after them, or nothing where the room runs out first. -/
def presentWords (buf : List Byte) : ℕ → ℕ → Except Raised (Option (List ℕ × ℕ))
  | 0, _ => .ok none
  | room + 1, offset => do
    let word ← unpackI buf offset
    if Present.ext.isIn word then
      let rest ← presentWords buf room (offset + 4)
      return rest.map fun (words, next) ↦ (word :: words, next)
    else
      return some ([word], offset + 4)

/-- The fields from `RADIOTAP_PRESENT_FHSS` on. -/
def antennaSignal (buf : List Byte) (present offset : ℕ) : Option ℤ :=
  let offset := if Present.fhss.isIn present then offset + 2 else offset
  if Present.dbmAntSignal.isIn present then (unpackSignedB buf offset).toOption else none

/-- The fields of the first present word.  A `struct.error` keeps what is decoded so far. -/
def radiotapFields (buf : List Byte) (present offset : ℕ) : Option ℕ × Option ℤ :=
  let offset := if Present.tsft.isIn present then align offset 8 + 8 else offset
  let offset := if Present.flags.isIn present then offset + 1 else offset
  let offset := if Present.rate.isIn present then offset + 1 else offset
  if Present.channel.isIn present then
    let offset := align offset 2
    match unpackH buf offset with
    | .error _ => (none, none)
    | .ok freqMHz => (some freqMHz, antennaSignal buf present (offset + 4))
  else (none, antennaSignal buf present offset)

/-- What is made of the present words. -/
def RadiotapInfo.ofWords (buf : List Byte) (length : ℕ) : Option (List ℕ × ℕ) → RadiotapInfo
  | some (present :: _, offset) =>
    let (freqMHz, rssiDBM) := radiotapFields buf present offset
    { length, freqMHz, rssiDBM }
  | _ => { length, freqMHz := none, rssiDBM := none }

/-- `parse_radiotap`. -/
def parseRadiotap (buf : List Byte) : Except Raised RadiotapInfo := do
  if buf.length < 8 then throw (.parse "radiotap header too short")
  let length ← unpackH buf 2
  if length < 8 ∨ buf.length < length then throw (.parse s!"implausible radiotap length {length}")
  let words ← presentWords buf ((length - 4) / 4) 4
  return .ofWords buf length words

/-! ## Beacons -/

/-- `TAG_SSID`. -/
def tagSSID : Byte := 0

/-- `TAG_VENDOR_SPECIFIC`. -/
def tagVendorSpecific : Byte := 221

/-- `FC_TYPE_MANAGEMENT`. -/
def fcTypeManagement : ℕ := 0

/-- `FC_SUBTYPE_BEACON`. -/
def fcSubtypeBeacon : ℕ := 8

/-- `Beacon`. -/
structure Beacon where
  transmitter : String
  bssid : String
  ssid : Option String
  tags : List (Byte × List Byte)
  freqMHz : Option ℕ
  rssiDBM : Option ℤ
  deriving DecidableEq

/-- `vendor_ies`. -/
def Beacon.vendorIEs (b : Beacon) : List (List Byte) :=
  (b.tags.filter fun t ↦ t.1 = tagVendorSpecific).map Prod.snd

/-- `f"{b:02x}"`. -/
def hexByte (b : ℕ) : List Char := [Nat.digitChar (b / 16), Nat.digitChar (b % 16)]

/-- `_mac`. -/
def mac (buf : List Byte) (offset : ℕ) : String :=
  .ofList ([':'].intercalate ((slice buf offset (offset + 6)).map fun b ↦ hexByte b.val))

/-- `parse_tags`. -/
def parseTags : List Byte → List (Byte × List Byte)
  | tag :: length :: rest =>
    if rest.length < length.val then []
    else (tag, rest.take length.val) :: parseTags (rest.drop length.val)
  | _ => []
termination_by buf => buf.length
decreasing_by
  rw [List.length_drop, List.length_cons, List.length_cons]
  omega

/-- The text of the first parameter that is an SSID, unless it is empty. -/
def ssidOf (tags : List (Byte × List Byte)) : Option String :=
  match tags.find? fun t ↦ t.1 = tagSSID with
  | some (_, value) =>
    let text := RustText.fromUtf8Lossy value
    if text = [] then none else some (.ofList text)
  | none => none

/-- `parse_beacon`. -/
def parseBeacon (frame : List Byte) (withRadiotap : Bool := true) :
    Except Raised (Option Beacon) := do
  let rt ← if withRadiotap then parseRadiotap frame else .ok ⟨0, none, none⟩
  let body := frame.drop rt.length
  if body.length < 24 then return none
  let fc ← item body 0
  if fc / 4 % 4 ≠ fcTypeManagement ∨ fc / 16 % 16 ≠ fcSubtypeBeacon then return none
  let tags := parseTags (body.drop 36)
  return some {
    transmitter := mac body 10
    bssid := mac body 16
    ssid := ssidOf tags
    tags
    freqMHz := rt.freqMHz
    rssiDBM := rt.rssiDBM }

/-! ## What the header gives -/

variable {buf frame : List Byte}

theorem presentWords_ok {room offset : ℕ} (h : offset + 4 * room ≤ buf.length) :
    ∃ words, presentWords buf room offset = .ok words := by
  induction room generalizing offset with
  | zero => exact ⟨none, rfl⟩
  | succ room ih =>
    obtain ⟨word, -, hword⟩ := unpackI_of_le (show offset + 4 ≤ buf.length by omega)
    obtain ⟨rest, hrest⟩ := ih (show offset + 4 + 4 * room ≤ buf.length by omega)
    rw [presentWords, hword]
    show ∃ words, (if Present.ext.isIn word then _ else _) = Except.ok words
    split
    · rw [hrest]
      exact ⟨_, rfl⟩
    · exact ⟨_, rfl⟩

/-- **A header is decoded or refused** with an error of the parser's own. -/
theorem parseRadiotap_cases (buf : List Byte) :
    (∃ length words, length ≤ buf.length ∧
        parseRadiotap buf = .ok (.ofWords buf length words)) ∨
      ∃ text, parseRadiotap buf = .error (.parse text) := by
  rw [parseRadiotap]
  by_cases hlen : buf.length < 8
  · rw [if_pos hlen]
    exact .inr ⟨_, rfl⟩
  obtain ⟨length, -, hlength⟩ := unpackH_of_le (show 2 + 2 ≤ buf.length by omega)
  rw [if_neg hlen, hlength]
  dsimp only [Except.bind, bind, pure, Except.pure]
  by_cases hbad : length < 8 ∨ buf.length < length
  · rw [if_pos hbad]
    exact .inr ⟨_, rfl⟩
  · obtain ⟨words, hwords⟩ :=
      presentWords_ok (show 4 + 4 * ((length - 4) / 4) ≤ buf.length by omega)
    rw [if_neg hbad, hwords]
    exact .inl ⟨length, words, by omega, rfl⟩

theorem antennaSignal_mem {present offset : ℕ} {r : ℤ} (h : r ∈ antennaSignal buf present offset) :
    -128 ≤ r ∧ r ≤ 127 := by
  rw [antennaSignal] at h
  generalize (if Present.fhss.isIn present then offset + 2 else offset) = at' at h
  split at h
  · by_cases hlen : at' + 1 ≤ buf.length
    · obtain ⟨v, hv, heq⟩ := unpackSignedB_of_le hlen
      rw [heq] at h
      cases h
      exact hv
    · rw [unpackSignedB, field, if_neg hlen] at h
      cases h
  · cases h

theorem radiotapFields_mem {present offset : ℕ} {r : ℤ}
    (h : r ∈ (radiotapFields buf present offset).2) : -128 ≤ r ∧ r ≤ 127 := by
  rw [radiotapFields] at h
  dsimp only at h
  split at h
  · split at h
    · cases h
    · exact antennaSignal_mem h
  · exact antennaSignal_mem h

/-- **A signal strength is a byte with a sign.** -/
theorem parseRadiotap_rssi {rt : RadiotapInfo} (h : parseRadiotap buf = .ok rt) :
    ∀ r ∈ rt.rssiDBM, -128 ≤ r ∧ r ≤ 127 := by
  rcases parseRadiotap_cases buf with ⟨length, words, -, hok⟩ | ⟨text, herr⟩
  · obtain rfl := Except.ok.inj (hok.symm.trans h)
    intro r hr
    rcases words with _ | ⟨_ | ⟨present, words⟩, offset⟩
    · cases hr
    · cases hr
    · exact radiotapFields_mem hr
  · rw [herr] at h
    cases h

/-! ## What a beacon gives -/

theorem isHexByte_hexByte (b : Byte) : IsHexByte (hexByte b.val) := by
  have hdigit : ∀ d < 16, ('0' ≤ Nat.digitChar d ∧ Nat.digitChar d ≤ '9') ∨
      ('a' ≤ Nat.digitChar d ∧ Nat.digitChar d ≤ 'f') := by decide
  have hb := b.isLt
  refine ⟨rfl, fun c hc ↦ ?_⟩
  rw [hexByte, List.mem_pair] at hc
  rcases hc with rfl | rfl
  · exact hdigit _ (by omega)
  · exact hdigit _ (by omega)

/-- **An address is six bytes** of two digits each. -/
theorem isMAC_mac {offset : ℕ} (h : offset + 6 ≤ buf.length) : IsMAC (mac buf offset) := by
  refine ⟨(slice buf offset (offset + 6)).map fun b : Byte ↦ hexByte b.val, ?_, ?_,
    String.toList_ofList⟩
  · rw [List.length_map, length_slice h]
  · rw [List.forall_mem_map]
    exact fun b _ ↦ isHexByte_hexByte b

/-- **What is known of a beacon**, and that a frame is a beacon, or none, or refused with an error
of the parser's own. -/
theorem parseBeacon_cases (frame : List Byte) :
    (∃ b rt, parseBeacon frame = .ok (some b) ∧ parseRadiotap frame = .ok rt ∧
        IsMAC b.transmitter ∧ b.rssiDBM = rt.rssiDBM) ∨
      parseBeacon frame = .ok none ∨ ∃ text, parseBeacon frame = .error (.parse text) := by
  rw [parseBeacon, if_pos rfl]
  rcases parseRadiotap_cases frame with ⟨length, words, -, hrt⟩ | ⟨text, herr⟩
  swap
  · rw [herr]
    exact .inr (.inr ⟨text, rfl⟩)
  rw [hrt]
  generalize RadiotapInfo.ofWords frame length words = rt
  dsimp only [Except.bind, bind, pure, Except.pure]
  by_cases hlen : (frame.drop rt.length).length < 24
  · rw [if_pos hlen]
    exact .inr (.inl rfl)
  rw [if_neg hlen, item_of_lt (by omega)]
  dsimp only
  split
  · exact .inr (.inl rfl)
  · exact .inl ⟨_, rt, rfl, rfl, isMAC_mac (by omega), rfl⟩

end ClassG.Wifi
