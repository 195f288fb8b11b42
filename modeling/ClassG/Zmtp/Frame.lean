import ClassG.ForRust.Read

/-!
# ZMTP frames

The wire format of `sensor-sdr/src/zmtp.rs`.  A frame is a byte of flags, the length of its body, in
one byte or in eight, and the body; a message is a number of frames, of which all but the last say
that there are more.

* `readMessage_encode` — what is written is read back, whatever follows it and however the stream is
  cut into pieces.
* `encode_of_readMessage` — what is read can be written, and is then read as the same.
* `framing_round_trip` — both, in terms of messages.
-/

set_option autoImplicit false

namespace ClassG.Zmtp

/-- `FLAG_MORE`. -/
def flagMore : Byte := 0x01

/-- `FLAG_LONG`. -/
def flagLong : Byte := 0x02

/-- `FLAG_COMMAND`. -/
def flagCommand : Byte := 0x04

/-- `MAX_FRAME_BYTES`. -/
def maxFrameBytes : ℕ := 16 * 1024 * 1024

/-- The number of frames after which `read_message` does not go on. -/
def maxFrames : ℕ := 64

/-- `Frame`. -/
structure Frame where
  command : Bool
  body : List Byte
  deriving DecidableEq

/-! ## Writing -/

/-- `to_be_bytes`, of an unsigned number of `n` bytes. -/
def toBEBytes : ℕ → ℕ → List Byte
  | 0, _ => []
  | n + 1, v => Fin.ofNat 256 (v / 256 ^ n) :: toBEBytes n v

/-- `encode_frame`. -/
def encodeFrame (body : List Byte) (extraFlags : Byte) : List Byte :=
  let long := 255 < body.length
  let flags := extraFlags ||| if long then flagLong else 0
  let size := if long then toBEBytes 8 body.length else [Fin.ofNat 256 body.length]
  flags :: size ++ body

/-- The frames of a message: `MORE` is set on all but the last. -/
def encodeFrames : List (List Byte) → List Byte
  | [] => []
  | [body] => encodeFrame body 0
  | body :: bodies => encodeFrame body flagMore ++ encodeFrames bodies

/-! ## Reading -/

/-- `u64::from_be_bytes`. -/
def ofBEBytes (bs : List Byte) : ℕ := bs.foldl (fun v b ↦ v * 256 + b.val) 0

/-- The length of the body, whose first byte is already read. -/
def readSize (flags size : Byte) (r : Reader) : Except ReadError (ℕ × Reader) :=
  if flags &&& flagLong ≠ 0 then
    match r.readExact 7 with
    | .ok (rest, r) => .ok (ofBEBytes (size :: rest), r)
    | .error e => .error e
  else .ok (size.val, r)

/-- `read_frame_body`. -/
def readFrameBody (flags size : Byte) (r : Reader) : Except ReadError (Frame × Reader) :=
  match readSize flags size r with
  | .error e => .error e
  | .ok (n, r) =>
    if maxFrameBytes < n then .error (.protocol s!"{n}-byte frame is implausible")
    else
      match r.readExact n with
      | .ok (body, r) => .ok (⟨flags &&& flagCommand ≠ 0, body⟩, r)
      | .error e => .error e

/-- The loop of `read_message`, with the frames it has. -/
def readFrames (frames : List Frame) (r : Reader) : Except ReadError (List Frame × Reader) :=
  match r.readExact 2 with
  | .ok ([flags, size], r) =>
    match readFrameBody flags size r with
    | .error e => .error e
    | .ok (frame, r) =>
      if flags &&& flagMore = 0 then .ok (frames ++ [frame], r)
      else if maxFrames < (frames ++ [frame]).length then
        .error (.protocol "more frames than any bus message has")
      else readFrames (frames ++ [frame]) r
  | .ok _ => .error .failed -- a header of two bytes has two bytes
  | .error e => .error e
termination_by maxFrames + 1 - frames.length
decreasing_by
  rw [List.length_append, List.length_singleton] at *
  omega

/-- `read_message`. -/
def readMessage (r : Reader) : Except ReadError (List Frame × Reader) := readFrames [] r

/-! ## Lengths -/

@[simp] theorem length_toBEBytes (n v : ℕ) : (toBEBytes n v).length = n := by
  induction n with
  | zero => rfl
  | succ n ih => rw [toBEBytes, List.length_cons, ih]

theorem foldl_toBEBytes (n v start : ℕ) :
    (toBEBytes n v).foldl (fun v b ↦ v * 256 + b.val) start = start * 256 ^ n + v % 256 ^ n := by
  induction n generalizing start with
  | zero => simp [toBEBytes, Nat.mod_one]
  | succ n ih =>
    rw [toBEBytes, List.foldl_cons, ih, Fin.val_ofNat, pow_succ, Nat.mod_mul]
    ring

/-- **A length is read as it was written.** -/
theorem ofBEBytes_toBEBytes {n v : ℕ} (h : v < 256 ^ n) : ofBEBytes (toBEBytes n v) = v := by
  rw [ofBEBytes, foldl_toBEBytes, Nat.zero_mul, Nat.zero_add, Nat.mod_eq_of_lt h]

/-! ## Flags -/

/-- The flags a frame is written with, besides `LONG`. -/
def Plain (flags : Byte) : Prop := flags &&& flagLong = 0

theorem or_zero (flags : Byte) : flags ||| 0 = flags := by
  revert flags
  decide +kernel

theorem long_and_long (flags : Byte) : (flags ||| flagLong) &&& flagLong ≠ 0 := by
  revert flags
  decide +kernel

theorem long_and_command (flags : Byte) :
    (flags ||| flagLong) &&& flagCommand = flags &&& flagCommand := by
  revert flags
  decide +kernel

theorem long_and_more (flags : Byte) : (flags ||| flagLong) &&& flagMore = flags &&& flagMore := by
  revert flags
  decide +kernel

/-! ## One frame -/

/-- The header of a frame, and what is read after it. -/
theorem readFrameBody_encode {body : List Byte} {flags : Byte} (hflags : Plain flags)
    (hlen : body.length ≤ maxFrameBytes) {r : Reader} {s : List Byte}
    (hr : r.Carries (encodeFrame body flags ++ s)) :
    ∃ (f size : Byte) (r₁ r₂ : Reader), r.readExact 2 = .ok ([f, size], r₁) ∧
      f &&& flagMore = flags &&& flagMore ∧ r₂.Carries s ∧
        readFrameBody f size r₁ = .ok (⟨flags &&& flagCommand ≠ 0, body⟩, r₂) := by
  have hsmall : ¬maxFrameBytes < body.length := by omega
  by_cases hlong : 255 < body.length
  · have hcode : encodeFrame body flags ++ s = (flags ||| flagLong) ::
        Fin.ofNat 256 (body.length / 256 ^ 7) :: (toBEBytes 7 body.length ++ (body ++ s)) := by
      rw [encodeFrame, if_pos hlong, if_pos hlong, toBEBytes]
      simp
    rw [hcode] at hr
    obtain ⟨r₁, hr₁, hhead⟩ := Reader.readExact_of_carries hr 2 (by simp)
    obtain ⟨r₂, hr₂, hsize⟩ := Reader.readExact_of_carries hr₁ 7 (by simp)
    have hdrop : (toBEBytes 7 body.length ++ (body ++ s)).drop 7 = body ++ s :=
      List.drop_left' (length_toBEBytes _ _)
    have htake : (toBEBytes 7 body.length ++ (body ++ s)).take 7 = toBEBytes 7 body.length :=
      List.take_left' (length_toBEBytes _ _)
    change r₂.Carries ((toBEBytes 7 body.length ++ (body ++ s)).drop 7) at hr₂
    rw [hdrop] at hr₂
    obtain ⟨r₃, hr₃, hbody⟩ := Reader.readExact_of_carries hr₂ body.length (by simp)
    rw [List.drop_left] at hr₃
    rw [List.take_left] at hbody
    refine ⟨_, _, r₁, r₃, hhead, long_and_more flags, hr₃, ?_⟩
    have hvalue : ofBEBytes (Fin.ofNat 256 (body.length / 256 ^ 7) :: toBEBytes 7 body.length) =
        body.length := by
      refine ofBEBytes_toBEBytes (n := 8) (hlen.trans_lt ?_)
      decide
    rw [readFrameBody, readSize, if_pos (long_and_long flags), hsize]
    simp only [List.drop_succ_cons, List.drop_zero, htake, hvalue, if_neg hsmall, hbody,
      long_and_command]
  · have hcode : encodeFrame body flags ++ s =
        flags :: Fin.ofNat 256 body.length :: (body ++ s) := by
      rw [encodeFrame, if_neg hlong, if_neg hlong, or_zero]
      rfl
    rw [hcode] at hr
    obtain ⟨r₁, hr₁, hhead⟩ := Reader.readExact_of_carries hr 2 (by simp)
    change r₁.Carries (body ++ s) at hr₁
    obtain ⟨r₂, hr₂, hbody⟩ := Reader.readExact_of_carries hr₁ body.length (by simp)
    rw [List.drop_left] at hr₂
    rw [List.take_left] at hbody
    have hvalue : (Fin.ofNat 256 body.length).val = body.length := by
      rw [Fin.val_ofNat, Nat.mod_eq_of_lt (by omega)]
    refine ⟨_, _, r₁, r₂, hhead, rfl, hr₂, ?_⟩
    have hshort : ¬flags &&& flagLong ≠ 0 := not_not.mpr hflags
    rw [readFrameBody, readSize, if_neg hshort]
    simp only [hvalue, if_neg hsmall, hbody]

/-- What is read as a frame was announced, and is no longer than a frame may be. -/
theorem of_readFrameBody {f size : Byte} {r r' : Reader} {s : List Byte} {frame : Frame}
    (hr : r.Carries s) (h : readFrameBody f size r = .ok (frame, r')) :
    frame.body.length ≤ maxFrameBytes ∧ frame.command = (f &&& flagCommand ≠ 0) ∧
      ∃ rest, r'.Carries rest := by
  rw [readFrameBody] at h
  split at h
  · cases h
  · rename_i n r₁ hsize
    have hr₁ : ∃ rest, r₁.Carries rest := by
      rw [readSize] at hsize
      split at hsize
      · split at hsize
        · rename_i bs r₂ hread
          obtain ⟨-, rest, hrest, -⟩ := Reader.carries_of_readExact hr hread
          obtain ⟨-, rfl⟩ := Prod.mk.inj (Except.ok.inj hsize)
          exact ⟨rest, hrest⟩
        · cases hsize
      · obtain ⟨-, rfl⟩ := Prod.mk.inj (Except.ok.inj hsize)
        exact ⟨s, hr⟩
    obtain ⟨t, ht⟩ := hr₁
    split at h
    · cases h
    · rename_i hle
      split at h
      · rename_i body r₂ hread
        obtain ⟨rfl, rfl⟩ := Prod.mk.inj (Except.ok.inj h)
        obtain ⟨hlen, rest, hrest, -⟩ := Reader.carries_of_readExact ht hread
        exact ⟨by simpa only [hlen] using not_lt.mp hle, by simp, rest, hrest⟩
      · cases h

/-! ## Whole messages -/

/-- What reading the frames of a message comes to, after those that are there already. -/
theorem readFrames_encode {bodies : List (List Byte)} (hne : bodies ≠ []) {frames : List Frame}
    (hcount : frames.length + bodies.length ≤ maxFrames + 1)
    (hlen : ∀ body ∈ bodies, body.length ≤ maxFrameBytes) {r : Reader} {s : List Byte}
    (hr : r.Carries (encodeFrames bodies ++ s)) :
    ∃ r' : Reader, r'.Carries s ∧
      readFrames frames r = .ok (frames ++ bodies.map (Frame.mk false), r') := by
  induction bodies generalizing frames r with
  | nil => exact absurd rfl hne
  | cons body bodies ih =>
    rw [List.forall_mem_cons] at hlen
    rw [List.length_cons] at hcount
    cases bodies with
    | nil =>
      obtain ⟨f, size, r₁, r₂, hhead, hmore, hr₂, hbody⟩ :=
        readFrameBody_encode (show Plain 0 from rfl) hlen.1 hr
      have hlast : f &&& flagMore = 0 := hmore
      refine ⟨r₂, hr₂, ?_⟩
      rw [readFrames, hhead]
      simp only [hbody, if_pos hlast]
      rfl
    | cons next bodies =>
      have hcode : encodeFrames (body :: next :: bodies) ++ s =
          encodeFrame body flagMore ++ (encodeFrames (next :: bodies) ++ s) := by
        rw [encodeFrames, List.append_assoc]
        simp
      rw [hcode] at hr
      obtain ⟨f, size, r₁, r₂, hhead, hmore, hr₂, hbody⟩ :=
        readFrameBody_encode (show Plain flagMore from rfl) hlen.1 hr
      have hgoes : ¬f &&& flagMore = 0 := by
        rw [hmore]
        decide
      have hbody' : readFrameBody f size r₁ = .ok (⟨false, body⟩, r₂) := hbody
      have hfew : ¬maxFrames < (frames ++ [(⟨false, body⟩ : Frame)]).length := by
        rw [List.length_append, List.length_singleton]
        rw [List.length_cons] at hcount
        omega
      have hcount' : (frames ++ [(⟨false, body⟩ : Frame)]).length + (next :: bodies).length ≤
          maxFrames + 1 := by
        rw [List.length_append, List.length_singleton]
        omega
      obtain ⟨r', hr', hread⟩ := ih (by simp) hcount' hlen.2 hr₂
      refine ⟨r', hr', ?_⟩
      rw [readFrames, hhead]
      simp only [hbody', if_neg hgoes, if_neg hfew]
      rw [hread, List.append_assoc]
      rfl

/-- **What is written is read back**, whatever follows it and whatever the pieces are. -/
theorem readMessage_encode {bodies : List (List Byte)} (hne : bodies ≠ [])
    (hcount : bodies.length ≤ maxFrames + 1) (hlen : ∀ body ∈ bodies, body.length ≤ maxFrameBytes)
    {r : Reader} {s : List Byte} (hr : r.Carries (encodeFrames bodies ++ s)) :
    ∃ r' : Reader, r'.Carries s ∧ readMessage r = .ok (bodies.map (Frame.mk false), r') :=
  readFrames_encode hne (by simpa using hcount) hlen hr

/-- What reading has left, it has taken off the front, frame by frame. -/
theorem of_readFrames {frames frames' : List Frame} {r r' : Reader} {s : List Byte}
    (hr : r.Carries s) (hcount : frames.length ≤ maxFrames)
    (hlen : ∀ f ∈ frames, f.body.length ≤ maxFrameBytes)
    (h : readFrames frames r = .ok (frames', r')) :
    frames' ≠ [] ∧ frames'.length ≤ maxFrames + 1 ∧ (∀ f ∈ frames', f.body.length ≤ maxFrameBytes) ∧
      ∃ rest, r'.Carries rest := by
  induction frames, r using readFrames.induct generalizing s with
  | case1 frames r flags size r₁ hhead e hbody =>
    rw [readFrames, hhead] at h
    simp only [hbody] at h
    cases h
  | case2 frames r flags size r₁ hhead frame r₂ hbody hlast =>
    obtain ⟨-, t, ht, -⟩ := Reader.carries_of_readExact hr hhead
    obtain ⟨hsize, -, hrest⟩ := of_readFrameBody ht hbody
    rw [readFrames, hhead] at h
    simp only [hbody, if_pos hlast] at h
    obtain ⟨rfl, rfl⟩ := Prod.mk.inj (Except.ok.inj h)
    refine ⟨by simp, by simpa using hcount, ?_, hrest⟩
    rw [List.forall_mem_append, List.forall_mem_singleton]
    exact ⟨hlen, hsize⟩
  | case3 frames r flags size r₁ hhead frame r₂ hbody hgoes hmany =>
    rw [readFrames, hhead] at h
    simp only [hbody, if_neg hgoes, if_pos hmany] at h
    cases h
  | case4 frames r flags size r₁ hhead frame r₂ hbody hgoes hfew ih =>
    obtain ⟨-, t, ht, -⟩ := Reader.carries_of_readExact hr hhead
    obtain ⟨hsize, -, rest, hrest⟩ := of_readFrameBody ht hbody
    rw [readFrames, hhead] at h
    simp only [hbody, if_neg hgoes, if_neg hfew] at h
    refine ih hrest (not_lt.mp hfew) ?_ h
    rw [List.forall_mem_append, List.forall_mem_singleton]
    exact ⟨hlen, hsize⟩
  | case5 frames r header hother hhead =>
    obtain ⟨hlen2, -⟩ := Reader.carries_of_readExact hr hhead
    match header, hlen2 with
    | ([flags, size], r₁), _ => exact absurd rfl (hother flags size r₁)
  | case6 frames r e hhead =>
    rw [readFrames, hhead] at h
    cases h

/-- A message that `read_message` can return and `encode_frame` can write. -/
structure Message where
  bodies : List (List Byte)
  nonempty : bodies ≠ []
  /-- The last frame that is read is the one after `maxFrames` that say there are more. -/
  count : bodies.length ≤ maxFrames + 1
  size : ∀ body ∈ bodies, body.length ≤ maxFrameBytes

namespace Message

/-- The message on the wire. -/
def encode (m : Message) : List Byte := encodeFrames m.bodies

/-- The message as it is read. -/
def frames (m : Message) : List Frame := m.bodies.map (Frame.mk false)

end Message

/-- What is read without a command frame is a message. -/
theorem encode_of_readMessage {r r' : Reader} {s : List Byte} {frames : List Frame}
    (hr : r.Carries s) (h : readMessage r = .ok (frames, r'))
    (hcommand : ∀ f ∈ frames, f.command = false) : ∃ m : Message, m.frames = frames := by
  obtain ⟨hne, hcount, hlen, -⟩ := of_readFrames hr (Nat.zero_le _) (by simp) h
  refine ⟨⟨frames.map Frame.body, by simpa using hne, by simpa using hcount, ?_⟩, ?_⟩
  · simpa using hlen
  · rw [Message.frames, List.map_map]
    refine (List.map_congr_left fun f hf ↦ ?_).trans (List.map_id _)
    show Frame.mk false f.body = f
    rw [← hcommand f hf]

/-- **Framing is a round trip.**  A message that is written is read as it was, and what follows it on
the stream is left there.  What is read, if none of its frames is a command, is written as a message
that is read as the same. -/
theorem framing_round_trip :
    (∀ (m : Message) (rest : List Byte) (r : Reader), r.Carries (m.encode ++ rest) →
      ∃ r' : Reader, r'.Carries rest ∧ readMessage r = .ok (m.frames, r')) ∧
    ∀ (s : List Byte) (r r' : Reader) (frames : List Frame), r.Carries s →
      readMessage r = .ok (frames, r') → (∀ f ∈ frames, f.command = false) →
        ∃ m : Message, m.frames = frames ∧ ∀ (rest : List Byte) (r : Reader),
          r.Carries (m.encode ++ rest) → ∃ r' : Reader, r'.Carries rest ∧
            readMessage r = .ok (frames, r') := by
  have hwrite (m : Message) (rest : List Byte) (r : Reader) (hr : r.Carries (m.encode ++ rest)) :
      ∃ r' : Reader, r'.Carries rest ∧ readMessage r = .ok (m.frames, r') :=
    readMessage_encode m.nonempty m.count m.size hr
  refine ⟨hwrite, fun s r r' frames hr h hcommand ↦ ?_⟩
  obtain ⟨m, rfl⟩ := encode_of_readMessage hr h hcommand
  exact ⟨m, rfl, hwrite m⟩

end ClassG.Zmtp
