import ClassG.Sdr.Stream

/-!
# Lines do not depend on how they are read

`Buffered` computes what `pump` holds of a line from the bytes of the line alone, and says that the
session is what handling the lines before it, one after the other, has made of the first one.  Every
byte keeps this, so it holds after any reads of the same bytes.
-/

set_option autoImplicit false

namespace ClassG.Sdr

open Pieces

/-- What is kept of a line: carriage returns are not, wherever they are. -/
def kept (line : List Byte) : List Byte := line.filter (· ≠ 13)

/-- A line that has ended: it is handled, or given up on if it is too long. -/
def takeLine (env : Env) (s : Session) (line : List Byte) : Session :=
  if (kept line).length ≤ maxLineBytes then handleLine env s (kept line) else s.giveUp

/-- The lines that have ended, one after the other. -/
def takeLines (env : Env) (s : Session) (bytes : List Byte) : Session :=
  (ended 10 bytes).foldl (takeLine env) s

/-- What `pump` holds after some bytes. -/
structure Buffered (env : Env) (s : Session) (bytes : List Byte) (p : Pump) : Prop where
  session : p.session = takeLines env s bytes
  oversized : p.oversized = true ↔ maxLineBytes < (kept (unfinished 10 bytes)).length
  line : p.oversized = false → p.line = kept (unfinished 10 bytes)
  length_le : p.line.length ≤ maxLineBytes

theorem kept_append_singleton (line : List Byte) {b : Byte} (h : b ≠ 13) :
    kept (line ++ [b]) = kept line ++ [b] := by
  simp [kept, h]

theorem takeLines_append_of_ne (env : Env) (s : Session) (bytes : List Byte) {b : Byte}
    (h : b ≠ 10) : takeLines env s (bytes ++ [b]) = takeLines env s bytes := by
  rw [takeLines, takeLines, ended_append_of_ne bytes h]

theorem buffered_nil (env : Env) (s : Session) : Buffered env s [] ⟨s, [], false⟩ where
  session := rfl
  oversized := by simp [kept]
  line _ := rfl
  length_le := Nat.zero_le _

/-- **One byte.** -/
theorem Buffered.byte {env : Env} {s : Session} {bytes : List Byte} {p : Pump}
    (h : Buffered env s bytes p) (b : Byte) : Buffered env s (bytes ++ [b]) (p.byte env b) := by
  rw [Pump.byte]
  by_cases hlf : b = 10
  · subst hlf
    have hlines : takeLines env s (bytes ++ [10]) =
        takeLine env (takeLines env s bytes) (unfinished 10 bytes) := by
      rw [takeLines, ended_append_sep, List.foldl_append]
      rfl
    rw [if_pos rfl]
    by_cases hover : p.oversized = true
    · rw [if_pos hover]
      refine ⟨?_, by simp [kept], fun _ ↦ by simp [kept], Nat.zero_le _⟩
      rw [hlines, takeLine, if_neg (not_le.mpr (h.oversized.mp hover)), h.session]
    · have hle := not_lt.mp fun hlt ↦ hover (h.oversized.mpr hlt)
      rw [if_neg hover]
      refine ⟨?_, by simp [kept], fun _ ↦ by simp [kept], Nat.zero_le _⟩
      rw [hlines, takeLine, if_pos hle, h.session, h.line (Bool.eq_false_iff.mpr hover)]
  · rw [if_neg hlf]
    have hsession : p.session = takeLines env s (bytes ++ [b]) := by
      rw [takeLines_append_of_ne env s bytes hlf, h.session]
    by_cases hcr : b = 13
    · have hsame : kept (unfinished 10 (bytes ++ [b])) = kept (unfinished 10 bytes) := by
        rw [unfinished_append_of_ne bytes hlf, hcr]
        simp [kept]
      rw [if_pos hcr]
      exact ⟨hsession, hsame ▸ h.oversized, hsame ▸ h.line, h.length_le⟩
    · have hmore : kept (unfinished 10 (bytes ++ [b])) = kept (unfinished 10 bytes) ++ [b] := by
        rw [unfinished_append_of_ne bytes hlf, kept_append_singleton _ hcr]
      have hlen : (kept (unfinished 10 (bytes ++ [b]))).length =
          (kept (unfinished 10 bytes)).length + 1 := by
        rw [hmore, List.length_append, List.length_singleton]
      rw [if_neg hcr]
      by_cases hover : p.oversized = true
      · -- the line is too long already, and stays so whatever is buffered of it
        have hlong : maxLineBytes < (kept (unfinished 10 (bytes ++ [b]))).length :=
          hlen ▸ (h.oversized.mp hover).trans (Nat.lt_succ_self _)
        rw [if_pos hover]
        split
        · exact ⟨hsession, iff_of_true hover hlong, fun h' ↦ absurd (hover.symm.trans h') (by decide),
            h.length_le⟩
        · rename_i hroom
          refine ⟨hsession, iff_of_true hover hlong, fun h' ↦ absurd (hover.symm.trans h') (by decide), ?_⟩
          show (p.line ++ [b]).length ≤ maxLineBytes
          rw [List.length_append, List.length_singleton]
          omega
      · have hline := h.line (Bool.eq_false_iff.mpr hover)
        rw [if_neg hover]
        split
        · rename_i hfull
          rw [hline] at hfull
          exact ⟨hsession, iff_of_true rfl (hlen ▸ Nat.lt_succ_of_le hfull),
            fun h' ↦ absurd h' (Bool.noConfusion), Nat.zero_le _⟩
        · rename_i hroom
          rw [hline] at hroom
          refine ⟨hsession, iff_of_false hover (by omega), fun _ ↦ by rw [hmore, hline], ?_⟩
          show (p.line ++ [b]).length ≤ maxLineBytes
          rw [hline, ← hmore]
          omega

/-- **Any bytes.** -/
theorem Buffered.bytes {env : Env} {s : Session} {bytes : List Byte} {p : Pump}
    (h : Buffered env s bytes p) (chunk : List Byte) :
    Buffered env s (bytes ++ chunk) (chunk.foldl (Pump.byte env) p) := by
  induction chunk generalizing bytes p with
  | nil => simpa using h
  | cons b chunk ih => simpa using ih (h.byte b)

/-! ## Reads -/

/-- The bytes that are read before the stream ends, and the error that ends it. -/
def received : List Filled → List Byte × Option String
  | [] => ([], none)
  | .ok [] :: _ => ([], none)
  | .ok (b :: chunk) :: rest => (b :: chunk ++ (received rest).1, (received rest).2)
  | .err .interrupted _ :: rest => received rest
  | .err .wouldBlock _ :: rest => received rest
  | .err .timedOut _ :: rest => received rest
  | .err .other message :: _ => ([], some message)

/-- What the end of a stream leaves behind. -/
def Session.endedBy (s : Session) : Option String → Session
  | none => s
  | some message => { s with stats := { s.stats with lastError := some message } }

/-- What is made of what is received. -/
def Pump.through (env : Env) (p : Pump) (r : List Byte × Option String) : Pump :=
  let p := r.1.foldl (Pump.byte env) p
  { p with session := p.session.endedBy r.2 }

/-- **Reads**: the loop sees their bytes, and nothing of how they are cut. -/
theorem loop_eq (env : Env) (p : Pump) (reads : List Filled) :
    p.loop env reads = p.through env (received reads) := by
  fun_induction received reads generalizing p with
  | case1 => rfl
  | case2 => rfl
  | case3 b chunk rest ih =>
    rw [Pump.loop, ih, Pump.through, Pump.through, List.foldl_append]
  | case4 message rest ih => exact ih p
  | case5 message rest ih => exact ih p
  | case6 message rest ih => exact ih p
  | case7 message rest => rfl

theorem pump_session (env : Env) (s : Session) (reads : List Filled) :
    (pump env s reads).session =
      (takeLines env s (received reads).1).endedBy (received reads).2 := by
  have h := (buffered_nil env s).bytes (received reads).1
  rw [pump, loop_eq, Pump.through, h.session, List.nil_append]

/-! ## Counters -/

/-- Every line that is read is parsed or not. -/
def Stats.Balanced (s : Stats) : Prop := s.linesRead = s.parsed + s.unparsed

theorem Stats.acquire_counters (s : Stats) (icao : String) :
    (s.acquire icao).linesRead = s.linesRead ∧ (s.acquire icao).parsed = s.parsed ∧
      (s.acquire icao).unparsed = s.unparsed := by
  rw [Stats.acquire]
  split
  · exact ⟨rfl, rfl, rfl⟩
  · split <;> exact ⟨rfl, rfl, rfl⟩

theorem balanced_handleLine {env : Env} {s : Session} (h : s.stats.Balanced) (line : List Byte) :
    (handleLine env s line).stats.Balanced := by
  rw [Stats.Balanced] at h
  rw [handleLine]
  dsimp only
  split
  · show s.stats.linesRead + 1 = s.stats.parsed + (s.stats.unparsed + 1)
    omega
  · rename_i d _
    rw [Stats.Balanced]
    cases hadsb : d.adsb with
    | none =>
      show s.stats.linesRead + 1 = s.stats.parsed + 1 + s.stats.unparsed
      omega
    | some adsb =>
      obtain ⟨hlines, hparsed, hunparsed⟩ := Stats.acquire_counters { s.stats with
        linesRead := s.stats.linesRead + 1
        lastMessage := some (env.now s.stats.linesRead) } adsb.icao
      simp only [hlines, hparsed, hunparsed]
      omega

theorem balanced_giveUp {s : Session} (h : s.stats.Balanced) : s.giveUp.stats.Balanced := by
  show s.stats.linesRead + 1 = s.stats.parsed + (s.stats.unparsed + 1)
  rw [Stats.Balanced] at h
  omega

theorem balanced_takeLines {env : Env} {s : Session} (h : s.stats.Balanced) (bytes : List Byte) :
    (takeLines env s bytes).stats.Balanced := by
  rw [takeLines]
  generalize ended 10 bytes = lines
  induction lines generalizing s with
  | nil => exact h
  | cons line lines ih =>
    refine ih ?_
    rw [takeLine]
    split
    · exact balanced_handleLine h _
    · exact balanced_giveUp h

theorem balanced_pump {env : Env} {s : Session} (h : s.stats.Balanced) (reads : List Filled) :
    (pump env s reads).session.stats.Balanced := by
  have hlines : (takeLines env s (received reads).1).stats.Balanced :=
    balanced_takeLines h (received reads).1
  rw [pump_session]
  cases (received reads).2 with
  | none => exact hlines
  | some message => exact hlines

theorem balanced_run {env : Env} {s : Session} (h : s.stats.Balanced) (attempts : List Attempt) :
    (run env s attempts).stats.Balanced := by
  induction attempts generalizing s with
  | nil => exact h
  | cons attempt rest ih =>
    cases attempt with
    | refused message => exact ih h
    | stream reads stopped =>
      have hpump := @balanced_pump env { s with
        stats := { s.stats with connected := true, lastError := none } } h reads
      rw [run]
      dsimp only
      split
      · exact hpump
      · exact ih hpump

/-- **Lines do not depend on how they are read.**  What a connection does is to handle, one after the
other, the lines that have ended of what it receives, without carriage returns, and to count once
each of those that are too long; so its result is one of what is received.  At no time is more
than a line buffered, and in any run of the sensor each line that is read is parsed or is not. -/
theorem reads_reassemble (env : Env) (s : Session) :
    (∀ reads, (pump env s reads).session =
      (takeLines env s (received reads).1).endedBy (received reads).2) ∧
      (∃ result : List Byte × Option String → Pump,
        ∀ reads, pump env s reads = result (received reads)) ∧
      (∀ bytes : List Byte,
        (bytes.foldl (Pump.byte env) ⟨s, [], false⟩).line.length ≤ maxLineBytes) ∧
      ∀ ulid attempts, (run env { ulid } attempts).stats.Balanced := by
  refine ⟨pump_session env s, ⟨Pump.through env ⟨s, [], false⟩, loop_eq env _⟩, fun bytes ↦ ?_,
    fun ulid attempts ↦ ?_⟩
  · exact ((buffered_nil env s).bytes bytes).length_le
  · exact balanced_run (by rfl) attempts

/-- A line as it would be with only the last carriage return removed. -/
def trimCR (line : List Byte) : List Byte :=
  if line.getLast? = some 13 then line.dropLast else line

/-- **A carriage return inside a line is removed as well**: this line is parsed, and it would not be
with only the carriage return at its end removed. -/
theorem inner_return_removed :
    let env : Env := ⟨fun c ↦ [c], "sdr-0", fun _ ↦ 0, fun _ ↦ true⟩
    let bytes := GoBytes.ofASCII "MS\rG,8,1,1,A1878A,1,,,,,,,,,,,\r\n"
    (pump env { ulid := ⟨1⟩ } [.ok bytes]).session.stats.parsed = 1 ∧
      ((ended 10 bytes).foldl (fun s line ↦ handleLine env s (trimCR line))
        { ulid := ⟨1⟩ }).stats.parsed = 0 := by
  decide +kernel

end ClassG.Sdr
