import ClassG.Wifi.Dot11

/-!
# Where radiotap fields come from

`parse_radiotap` walks the present words within the length that the header declares, and reads the
fields after them within the length of the whole buffer.  So a bitmap that announces more than the
header holds has the bytes of the frame behind it read as a frequency or a signal strength.

* `Present.chain` — where the present words end: `Chain`.
* `parseRadiotap_of_chain`, `parseRadiotap_of_no_chain` — what is made of a header.
* `fields_from_header_iff` — the fields depend on the header alone exactly if it holds them.
-/

set_option autoImplicit false

namespace ClassG.Wifi

open PyBytes

variable {buf buf' : List Byte} {n k offset present room : ℕ}

/-! ## The header -/

/-- The length that the header declares. -/
def declared (buf : List Byte) : ℕ := unsigned (slice buf 2 4)

/-- The word at an offset. -/
def wordAt (buf : List Byte) (offset : ℕ) : ℕ := unsigned (slice buf offset (offset + 4))

/-- The present words from `offset` on end after `n` that say there is another. -/
def Chain (buf : List Byte) (offset n : ℕ) : Prop :=
  (∀ i < n, Present.ext.isIn (wordAt buf (offset + 4 * i))) ∧
    ¬Present.ext.isIn (wordAt buf (offset + 4 * n))

/-- Where the fields from `RADIOTAP_PRESENT_CHANNEL` on begin. -/
def channelStart (present offset : ℕ) : ℕ :=
  let offset := if Present.tsft.isIn present then align offset 8 + 8 else offset
  let offset := if Present.flags.isIn present then offset + 1 else offset
  if Present.rate.isIn present then offset + 1 else offset

/-- Where the frequency is. -/
def channelOffset (present offset : ℕ) : ℕ := align (channelStart present offset) 2

/-- Where the signal strength is. -/
def signalOffset (present offset : ℕ) : ℕ :=
  let offset := if Present.channel.isIn present then channelOffset present offset + 4
    else channelStart present offset
  if Present.fhss.isIn present then offset + 2 else offset

/-- The frequency and the signal strength end within the header, if they are announced. -/
def FieldsFit (length present offset : ℕ) : Prop :=
  (Present.channel.isIn present → channelOffset present offset + 2 ≤ length) ∧
    (Present.dbmAntSignal.isIn present → signalOffset present offset + 1 ≤ length)

/-- **The header holds the fields that it announces**, if it is usable and its present words end
within it. -/
def HoldsFields (buf : List Byte) : Prop :=
  8 ≤ declared buf → declared buf ≤ buf.length → ∀ n, 4 + 4 * (n + 1) ≤ declared buf →
    Chain buf 4 n → FieldsFit (declared buf) (wordAt buf 4) (4 + 4 * (n + 1))

/-- Two buffers have one header. -/
def SameHeader (buf buf' : List Byte) : Prop :=
  declared buf = declared buf' ∧ buf.take (declared buf) = buf'.take (declared buf)

/-- Two results show the same of the fields, or both headers are unusable. -/
def SameFields : Except Raised RadiotapInfo → Except Raised RadiotapInfo → Prop
  | .ok rt, .ok rt' => rt.freqMHz = rt'.freqMHz ∧ rt.rssiDBM = rt'.rssiDBM
  | .error _, .error _ => True
  | _, _ => False

/-! ## Reading within the header -/

theorem slice_congr (h : buf.take n = buf'.take n) (hle : offset + k ≤ n) :
    slice buf offset (offset + k) = slice buf' offset (offset + k) := by
  have htake (b : List Byte) : b.take (offset + k) = (b.take n).take (offset + k) := by
    rw [List.take_take, min_eq_left hle]
  rw [slice, slice, htake buf, htake buf', h]

theorem wordAt_congr (h : buf.take n = buf'.take n) (hle : offset + 4 ≤ n) :
    wordAt buf offset = wordAt buf' offset := by
  rw [wordAt, wordAt, slice_congr h hle]

theorem unpackI_eq (h : offset + 4 ≤ buf.length) : unpackI buf offset = .ok (wordAt buf offset) := by
  rw [unpackI, field_of_le h]
  rfl

theorem field_congr (h : buf.take n = buf'.take n) (hn : n ≤ buf.length) (hle : offset + k ≤ n) :
    field k buf offset = field k buf' offset := by
  have hn' : n ≤ buf'.length := by
    have hlen := congrArg List.length h
    rw [List.length_take, List.length_take] at hlen
    omega
  rw [field_of_le (by omega), field_of_le (by omega), slice_congr h hle]

/-! ## The present words -/

/-- The present words that end are read. -/
theorem presentWords_of_chain (hroom : offset + 4 * room ≤ buf.length) (hn : n < room)
    (h : Chain buf offset n) : ∃ rest, presentWords buf room offset =
      .ok (some (wordAt buf offset :: rest, offset + 4 * (n + 1))) := by
  induction n generalizing offset room with
  | zero =>
    obtain ⟨room, rfl⟩ : ∃ r, room = r + 1 := ⟨room - 1, by omega⟩
    refine ⟨[], ?_⟩
    rw [presentWords, unpackI_eq (by omega)]
    exact if_neg h.2
  | succ n ih =>
    obtain ⟨room, rfl⟩ : ∃ r, room = r + 1 := ⟨room - 1, by omega⟩
    have hchain : Chain buf (offset + 4) n := by
      refine ⟨fun i hi ↦ ?_, ?_⟩
      · have hword := h.1 (i + 1) (by omega)
        rwa [show offset + 4 * (i + 1) = offset + 4 + 4 * i by ring] at hword
      · have hword := h.2
        rwa [show offset + 4 * (n + 1) = offset + 4 + 4 * n by ring] at hword
    obtain ⟨rest, hrest⟩ : ∃ rest, presentWords buf room (offset + 4) =
        .ok (some (wordAt buf (offset + 4) :: rest, offset + 4 + 4 * (n + 1))) :=
      ih (by omega) (by omega) hchain
    refine ⟨wordAt buf (offset + 4) :: rest, ?_⟩
    rw [presentWords, unpackI_eq (by omega)]
    refine (if_pos (h.1 0 (by omega))).trans ?_
    rw [hrest, show offset + 4 + 4 * (n + 1) = offset + 4 * (n + 1 + 1) by ring]
    rfl

/-- Without an end to the present words, nothing is read. -/
theorem presentWords_of_no_chain (hroom : offset + 4 * room ≤ buf.length)
    (h : ∀ n < room, ¬Chain buf offset n) : presentWords buf room offset = .ok none := by
  induction room generalizing offset with
  | zero => rfl
  | succ room ih =>
    have hext : Present.ext.isIn (wordAt buf offset) := by
      by_contra hno
      exact h 0 (by omega) ⟨fun i hi ↦ absurd hi (Nat.not_lt_zero i), hno⟩
    have hrest : presentWords buf room (offset + 4) = .ok none := by
      refine ih (by omega) fun n hn hchain ↦ ?_
      refine h (n + 1) (by omega) ⟨fun i hi ↦ ?_, ?_⟩
      · cases i with
        | zero => exact hext
        | succ i =>
          have hword := hchain.1 i (by omega)
          rwa [show offset + 4 + 4 * i = offset + 4 * (i + 1) by ring] at hword
      · have hword := hchain.2
        rwa [show offset + 4 + 4 * n = offset + 4 * (n + 1) by ring] at hword
    rw [presentWords, unpackI_eq (by omega)]
    refine (if_pos hext).trans ?_
    rw [hrest]
    rfl

/-! ## What is made of a header -/

/-- The header can be used at all. -/
def Usable (buf : List Byte) : Prop := 8 ≤ declared buf ∧ declared buf ≤ buf.length

/-- A header that can be used is decoded from its present words. -/
theorem parseRadiotap_of_usable (h : Usable buf) :
    parseRadiotap buf = (RadiotapInfo.ofWords buf (declared buf)) <$>
      presentWords buf ((declared buf - 4) / 4) 4 := by
  obtain ⟨h8, hlen⟩ := h
  have hlength : unpackH buf 2 = .ok (declared buf) := by
    rw [unpackH, field_of_le (by omega)]
    rfl
  rw [parseRadiotap, if_neg (by omega), hlength]
  refine (if_neg (by omega)).trans ?_
  cases presentWords buf ((declared buf - 4) / 4) 4 <;> rfl

theorem parseRadiotap_of_not_usable (h : ¬Usable buf) :
    ∃ text, parseRadiotap buf = .error (.parse text) := by
  rw [parseRadiotap]
  by_cases hshort : buf.length < 8
  · rw [if_pos hshort]
    exact ⟨_, rfl⟩
  · have hlength : unpackH buf 2 = .ok (declared buf) := by
      rw [unpackH, field_of_le (by omega)]
      rfl
    have hbad : declared buf < 8 ∨ buf.length < declared buf := by
      rw [Usable, not_and_or] at h
      omega
    rw [if_neg hshort, hlength]
    dsimp only [Except.bind, bind, pure, Except.pure]
    rw [if_pos hbad]
    exact ⟨_, rfl⟩

theorem parseRadiotap_of_chain (h : Usable buf) (hn : 4 + 4 * (n + 1) ≤ declared buf)
    (hchain : Chain buf 4 n) : ∃ rt, parseRadiotap buf = .ok rt ∧
      (rt.freqMHz, rt.rssiDBM) = radiotapFields buf (wordAt buf 4) (4 + 4 * (n + 1)) := by
  have hlen := h.2
  obtain ⟨rest, hrest⟩ := presentWords_of_chain
    (show 4 + 4 * ((declared buf - 4) / 4) ≤ buf.length by omega) (by omega) hchain
  refine ⟨_, (parseRadiotap_of_usable h).trans (congrArg _ hrest), ?_⟩
  rfl

theorem parseRadiotap_of_no_chain (h : Usable buf)
    (hno : ∀ n, 4 + 4 * (n + 1) ≤ declared buf → ¬Chain buf 4 n) :
    ∃ rt, parseRadiotap buf = .ok rt ∧ (rt.freqMHz, rt.rssiDBM) = (none, none) := by
  obtain ⟨h8, hlen⟩ := id h
  have hnone := presentWords_of_no_chain
    (show 4 + 4 * ((declared buf - 4) / 4) ≤ buf.length by omega) fun n hn ↦ hno n (by omega)
  exact ⟨_, (parseRadiotap_of_usable h).trans (congrArg _ hnone), rfl⟩

theorem radiotapFields_eq (buf : List Byte) (present offset : ℕ) :
    radiotapFields buf present offset =
      if Present.channel.isIn present then
        match unpackH buf (channelOffset present offset) with
        | .error _ => (none, none)
        | .ok freqMHz => (some freqMHz, if Present.dbmAntSignal.isIn present then
            (unpackSignedB buf (signalOffset present offset)).toOption else none)
      else (none, if Present.dbmAntSignal.isIn present then
        (unpackSignedB buf (signalOffset present offset)).toOption else none) := by
  rw [radiotapFields]
  dsimp only
  rw [← channelStart.eq_def, ← channelOffset.eq_def]
  split
  · rename_i hchannel
    rw [signalOffset, if_pos hchannel]
    rfl
  · rename_i hchannel
    rw [signalOffset, if_neg hchannel]
    rfl

/-! ## Two buffers with one header -/

theorem SameHeader.symm (h : SameHeader buf buf') : SameHeader buf' buf :=
  ⟨h.1.symm, h.1 ▸ h.2.symm⟩

/-- A buffer has the header of each of its prefixes that hold one. -/
theorem sameHeader_of_take (h4 : 4 ≤ declared buf)
    (h : buf.take (declared buf) = buf'.take (declared buf)) : SameHeader buf buf' := by
  refine ⟨?_, h⟩
  exact congrArg unsigned (slice_congr h (show 2 + 2 ≤ declared buf by omega))

theorem SameHeader.usable (h : SameHeader buf buf') (husable : Usable buf) : Usable buf' := by
  obtain ⟨h8, hlen⟩ := husable
  have hlens := congrArg List.length h.2
  rw [List.length_take, List.length_take] at hlens
  rw [Usable, ← h.1]
  omega

/-- Fields that the header holds are read from it. -/
theorem radiotapFields_congr (h : buf.take n = buf'.take n) (hn : n ≤ buf.length)
    (hfit : FieldsFit n present offset) :
    radiotapFields buf present offset = radiotapFields buf' present offset := by
  have hsignal : (if Present.dbmAntSignal.isIn present then
      (unpackSignedB buf (signalOffset present offset)).toOption else none) =
        if Present.dbmAntSignal.isIn present then
          (unpackSignedB buf' (signalOffset present offset)).toOption else none := by
    split
    · rename_i hin
      rw [unpackSignedB, unpackSignedB, field_congr h hn (hfit.2 hin)]
    · rfl
  rw [radiotapFields_eq, radiotapFields_eq, hsignal]
  split
  · rename_i hin
    rw [unpackH, unpackH, field_congr h hn (hfit.1 hin)]
  · rfl

theorem align_le (offset boundary : ℕ) (h : 0 < boundary) :
    align offset boundary ≤ offset + (boundary - 1) := by
  rw [align]
  have hrem := Nat.mod_lt offset h
  split <;> omega

theorem signalOffset_le (present offset : ℕ) : channelOffset present offset + 2 ≤ offset + 32 ∧
    signalOffset present offset + 1 ≤ offset + 32 := by
  have hstart : channelStart present offset ≤ offset + 17 := by
    have htsft := align_le offset 8 (by norm_num)
    rw [channelStart]
    split_ifs <;> omega
  have hchannel : channelOffset present offset ≤ channelStart present offset + 1 :=
    align_le _ 2 (by norm_num)
  refine ⟨by omega, ?_⟩
  rw [signalOffset]
  split_ifs <;> omega

theorem unpackH_of_lt (h : buf.length < offset + 2) : unpackH buf offset = .error .struct := by
  rw [unpackH, field, if_neg (by omega)]
  rfl

theorem unpackSignedB_of_lt (h : buf.length < offset + 1) :
    unpackSignedB buf offset = .error .struct := by
  rw [unpackSignedB, field, if_neg (by omega)]
  rfl

/-- Fields that the header does not hold are there or not, as there are bytes behind it. -/
theorem radiotapFields_ne (hoffset : offset ≤ buf.length)
    (hfit : ¬FieldsFit buf.length present offset) :
    radiotapFields buf present offset ≠
      radiotapFields (buf ++ List.replicate 32 0) present offset := by
  obtain ⟨hfreq, hsignal⟩ := signalOffset_le present offset
  have hlong : (buf ++ List.replicate 32 0).length = buf.length + 32 := by
    rw [List.length_append, List.length_replicate]
  obtain ⟨freq, -, hreadFreq⟩ := unpackH_of_le
    (show channelOffset present offset + 2 ≤ (buf ++ List.replicate 32 0).length by omega)
  obtain ⟨rssi, -, hreadRSSI⟩ := unpackSignedB_of_le
    (show signalOffset present offset + 1 ≤ (buf ++ List.replicate 32 0).length by omega)
  rw [radiotapFields_eq, radiotapFields_eq, hreadFreq, hreadRSSI]
  -- If the signal strength is what does not fit, it is there in the longer buffer alone.
  have hmissing (hno : ¬(Present.dbmAntSignal.isIn present →
      signalOffset present offset + 1 ≤ buf.length)) :
      (if Present.dbmAntSignal.isIn present then
        (unpackSignedB buf (signalOffset present offset)).toOption else none) ≠
      if Present.dbmAntSignal.isIn present then
        (Except.ok rssi : Except Raised ℤ).toOption else none := by
    rw [Classical.not_imp, not_le] at hno
    rw [if_pos hno.1, if_pos hno.1, unpackSignedB_of_lt hno.2]
    simp [Except.toOption]
  split
  · rename_i hin
    by_cases hch : channelOffset present offset + 2 ≤ buf.length
    · obtain ⟨f, -, hf⟩ := unpackH_of_le hch
      rw [hf]
      exact fun heq ↦ hmissing (fun hdbm ↦ hfit ⟨fun _ ↦ hch, hdbm⟩) (congrArg Prod.snd heq)
    · rw [unpackH_of_lt (not_le.mp hch)]
      exact fun heq ↦ absurd (congrArg Prod.fst heq) (by simp)
  · rename_i hin
    exact fun heq ↦ hmissing (fun hdbm ↦ hfit ⟨fun h ↦ absurd h hin, hdbm⟩) (congrArg Prod.snd heq)

theorem sameFields_iff {r r' : Except Raised RadiotapInfo} {rt rt' : RadiotapInfo}
    (h : r = .ok rt) (h' : r' = .ok rt') :
    SameFields r r' ↔ (rt.freqMHz, rt.rssiDBM) = (rt'.freqMHz, rt'.rssiDBM) := by
  rw [h, h', Prod.mk.injEq]
  rfl

theorem Chain.congr (h : buf.take k = buf'.take k) (hn : 4 + 4 * (n + 1) ≤ k)
    (hchain : Chain buf 4 n) : Chain buf' 4 n := by
  have hword {i : ℕ} (hi : i ≤ n) : wordAt buf (4 + 4 * i) = wordAt buf' (4 + 4 * i) :=
    wordAt_congr h (by omega)
  exact ⟨fun i hi ↦ hword hi.le ▸ hchain.1 i hi, hword le_rfl ▸ hchain.2⟩

/-- What is made of a buffer with the header of another, whose present words end. -/
theorem SameHeader.fields (h : SameHeader buf buf') (husable : Usable buf)
    (hn : 4 + 4 * (n + 1) ≤ declared buf) (hchain : Chain buf 4 n) :
    ∃ rt, parseRadiotap buf' = .ok rt ∧
      (rt.freqMHz, rt.rssiDBM) = radiotapFields buf' (wordAt buf 4) (4 + 4 * (n + 1)) := by
  rw [wordAt_congr h.2 (by omega)]
  exact parseRadiotap_of_chain (h.usable husable) (h.1 ▸ hn) (hchain.congr h.2 hn)

/-- A header that holds its fields is decoded from itself. -/
theorem sameFields_of_holds (h : SameHeader buf buf') (hholds : HoldsFields buf) :
    SameFields (parseRadiotap buf) (parseRadiotap buf') := by
  by_cases husable : Usable buf
  · by_cases hends : ∃ n, 4 + 4 * (n + 1) ≤ declared buf ∧ Chain buf 4 n
    · obtain ⟨n, hn, hchain⟩ := hends
      obtain ⟨rt, hrt, hfields⟩ := parseRadiotap_of_chain husable hn hchain
      obtain ⟨rt', hrt', hfields'⟩ := h.fields husable hn hchain
      rw [sameFields_iff hrt hrt', hfields, hfields']
      exact radiotapFields_congr h.2 husable.2 (hholds husable.1 husable.2 n hn hchain)
    · simp only [not_exists, not_and] at hends
      obtain ⟨rt, hrt, hnone⟩ := parseRadiotap_of_no_chain husable hends
      obtain ⟨rt', hrt', hnone'⟩ := parseRadiotap_of_no_chain (h.usable husable)
        fun n hn hchain ↦ hends n (h.1 ▸ hn) (hchain.congr h.symm.2 hn)
      rw [sameFields_iff hrt hrt', hnone, hnone']
  · obtain ⟨text, herr⟩ := parseRadiotap_of_not_usable husable
    obtain ⟨text', herr'⟩ := parseRadiotap_of_not_usable fun h' ↦ husable (h.symm.usable h')
    rw [herr, herr']
    exact trivial

/-- A header that does not hold its fields is decoded one way where the buffer ends with it, and
another where it goes on. -/
theorem holds_of_sameFields
    (h : ∀ buf', SameHeader buf buf' → SameFields (parseRadiotap buf) (parseRadiotap buf')) :
    HoldsFields buf := by
  intro h8 hlen n hn hchain
  by_contra hfit
  have hcut : (buf.take (declared buf)).length = declared buf := by
    rw [List.length_take, min_eq_left hlen]
  have hshort : SameHeader buf (buf.take (declared buf)) :=
    sameHeader_of_take (by omega) (by rw [List.take_take, min_self])
  have hlong : SameHeader buf (buf.take (declared buf) ++ List.replicate 32 0) :=
    sameHeader_of_take (by omega) (by rw [List.take_append_of_le_length hcut.ge, List.take_take,
      min_self])
  obtain ⟨rt, hrt, -⟩ := parseRadiotap_of_chain ⟨h8, hlen⟩ hn hchain
  obtain ⟨rtShort, hrtShort, hfieldsShort⟩ := hshort.fields ⟨h8, hlen⟩ hn hchain
  obtain ⟨rtLong, hrtLong, hfieldsLong⟩ := hlong.fields ⟨h8, hlen⟩ hn hchain
  have hsameShort := (sameFields_iff hrt hrtShort).mp (h _ hshort)
  have hsameLong := (sameFields_iff hrt hrtLong).mp (h _ hlong)
  have hne : radiotapFields (buf.take (declared buf)) (wordAt buf 4) (4 + 4 * (n + 1)) ≠
      radiotapFields (buf.take (declared buf) ++ List.replicate 32 0) (wordAt buf 4)
        (4 + 4 * (n + 1)) :=
    radiotapFields_ne (hn.trans_eq hcut.symm) (by rwa [hcut])
  rw [← hfieldsShort, ← hfieldsLong, ← hsameShort, hsameLong] at hne
  exact hne rfl

/-- **Fields come from the header alone exactly if it holds those that it announces.**  Then every
buffer with this header has the same frequency and the same signal strength, or is refused like it;
and else one that ends with the header and one that goes on after it differ.  No buffer has anything
raised but the error of the parser. -/
theorem fields_from_header_iff (buf : List Byte) :
    ((∀ buf', SameHeader buf buf' → SameFields (parseRadiotap buf) (parseRadiotap buf')) ↔
      HoldsFields buf) ∧
    ((∃ rt, parseRadiotap buf = .ok rt) ∨ ∃ text, parseRadiotap buf = .error (.parse text)) := by
  refine ⟨⟨holds_of_sameFields, fun hholds buf' h ↦ sameFields_of_holds h hholds⟩, ?_⟩
  rcases parseRadiotap_cases buf with ⟨length, words, -, hok⟩ | herr
  · exact .inl ⟨_, hok⟩
  · exact .inr herr

/-- A header of eight bytes that announces a signal strength and has no room for it. -/
def shortHeader : List Byte := [0, 0, 8, 0, 0x20, 0, 0, 0]

/-- The first byte of the frame is taken for the signal strength, as in a beacon, which begins with
`0x80`. -/
theorem signal_from_frame : SameHeader (shortHeader ++ [0x80]) (shortHeader ++ [0x40]) ∧
    ¬SameFields (parseRadiotap (shortHeader ++ [0x80])) (parseRadiotap (shortHeader ++ [0x40])) := by
  have hbeacon : parseRadiotap (shortHeader ++ [0x80]) = .ok ⟨8, none, some (-128)⟩ := by decide
  have hother : parseRadiotap (shortHeader ++ [0x40]) = .ok ⟨8, none, some 64⟩ := by decide
  refine ⟨⟨by decide, by decide⟩, fun h ↦ ?_⟩
  rw [sameFields_iff hbeacon hother] at h
  exact absurd h (by decide)

end ClassG.Wifi
