import ClassG.ForGo.Bytes

/-!
# Reading a stream

What `std::io::Read` promises about a stream, and what `read_exact` makes of it.  A stream arrives in
pieces, and where one piece ends and the next begins is up to the other side, to the network and to
the kernel; in between a read may be interrupted by a signal.  `Reader.Carries` says which bytes are
still to come, whatever the pieces, and `readExact_of_carries` that `read_exact` depends on nothing
else.
-/

set_option autoImplicit false

/-- What one call of `read` may find. -/
inductive Incoming
  /-- Some bytes.  No bytes are the end of the stream. -/
  | bytes (bs : List Byte)
  /-- `ErrorKind::Interrupted`. -/
  | interrupted
  /-- Any other error. -/
  | failed
  deriving DecidableEq

/-- What is still to come on a stream. -/
abbrev Reader := List Incoming

/-- `std::io::Error`, as far as a reader of frames has to do with it. -/
inductive ReadError
  | unexpectedEof
  | failed
  /-- The error of the reader itself, about what it has read. -/
  | protocol (reason : String)
  deriving DecidableEq

namespace Reader

/-- `read_exact`, of a buffer of `n` bytes: a read never finds more than the buffer takes. -/
def readExact : ℕ → Reader → Except ReadError (List Byte × Reader)
  | 0, r => .ok ([], r)
  | _ + 1, [] => .error .unexpectedEof
  | n + 1, .interrupted :: r => readExact (n + 1) r
  | _ + 1, .failed :: _ => .error .failed
  | _ + 1, .bytes [] :: _ => .error .unexpectedEof
  | n + 1, .bytes (b :: bs) :: r =>
    if bs.length ≤ n then
      match readExact (n - bs.length) r with
      | .ok (rest, r') => .ok (b :: bs ++ rest, r')
      | .error e => .error e
    else .ok (b :: bs.take n, .bytes (bs.drop n) :: r)

/-- The bytes `s` are still to come, in some pieces, and then the stream ends. -/
inductive Carries : Reader → List Byte → Prop
  | nil : Carries [] []
  | interrupted {r : Reader} {s : List Byte} (h : Carries r s) : Carries (.interrupted :: r) s
  | bytes {r : Reader} {s : List Byte} (b : Byte) (bs : List Byte) (h : Carries r s) :
      Carries (.bytes (b :: bs) :: r) (b :: bs ++ s)

/-- **What `read_exact` returns depends on the bytes alone**, not on the pieces they arrive in. -/
theorem readExact_of_carries {r : Reader} {s : List Byte} (h : r.Carries s) :
    ∀ n, n ≤ s.length → ∃ r' : Reader, r'.Carries (s.drop n) ∧ r.readExact n = .ok (s.take n, r') := by
  induction h with
  | nil =>
    intro n hn
    obtain rfl : n = 0 := Nat.le_zero.mp hn
    exact ⟨[], .nil, rfl⟩
  | @interrupted r s h ih =>
    intro n hn
    cases n with
    | zero => exact ⟨_, .interrupted h, rfl⟩
    | succ n => exact ih (n + 1) hn
  | @bytes r s b bs h ih =>
    intro n hn
    cases n with
    | zero => exact ⟨_, .bytes b bs h, rfl⟩
    | succ n =>
      have hlen : n + 1 ≤ bs.length + 1 + s.length := by simpa [Nat.add_right_comm] using hn
      by_cases hle : bs.length ≤ n
      · obtain ⟨r', hr', hread⟩ := ih (n - bs.length) (by omega)
        refine ⟨r', ?_, ?_⟩
        · simpa [List.drop_append, List.drop_of_length_le hle] using hr'
        · simp only [readExact, if_pos hle, hread]
          simp [List.take_append, List.take_of_length_le hle]
      · have hlt : n < bs.length := by omega
        refine ⟨.bytes (bs.drop n) :: r, ?_, ?_⟩
        · rw [List.cons_append, List.drop_succ_cons, List.drop_append_of_le_length hlt.le,
            List.drop_eq_getElem_cons hlt]
          exact .bytes _ _ h
        · simp only [readExact, if_neg hle]
          rw [List.cons_append, List.take_succ_cons, List.take_append_of_le_length hlt.le]

/-- When `read_exact` succeeds, the bytes it returns were the next ones. -/
theorem carries_of_readExact {r : Reader} {s : List Byte} (h : r.Carries s) {n : ℕ}
    {bs : List Byte} {r' : Reader} (hread : r.readExact n = .ok (bs, r')) :
    bs.length = n ∧ ∃ rest, r'.Carries rest ∧ s = bs ++ rest := by
  induction h generalizing n bs r' with
  | nil =>
    cases n with
    | zero =>
      obtain ⟨rfl, rfl⟩ := Prod.mk.inj (Except.ok.inj hread)
      exact ⟨rfl, [], .nil, rfl⟩
    | succ n => simp [readExact] at hread
  | @interrupted r s h ih =>
    cases n with
    | zero =>
      obtain ⟨rfl, rfl⟩ := Prod.mk.inj (Except.ok.inj hread)
      exact ⟨rfl, s, .interrupted h, rfl⟩
    | succ n => exact ih hread
  | @bytes r s b cs h ih =>
    cases n with
    | zero =>
      obtain ⟨rfl, rfl⟩ := Prod.mk.inj (Except.ok.inj hread)
      exact ⟨rfl, _, .bytes b cs h, rfl⟩
    | succ n =>
      rw [readExact] at hread
      split at hread
      · rename_i hle
        split at hread
        · rename_i rest r'' hrest
          obtain ⟨rfl, rfl⟩ := Prod.mk.inj (Except.ok.inj hread)
          obtain ⟨hlen, tail, htail, hs⟩ := ih hrest
          refine ⟨?_, tail, htail, by rw [hs, List.append_assoc]⟩
          rw [List.length_append, List.length_cons, hlen]
          omega
        · cases hread
      · rename_i hlt
        obtain ⟨rfl, rfl⟩ := Prod.mk.inj (Except.ok.inj hread)
        have hlen : n < cs.length := by omega
        refine ⟨by simp [hlen.le], cs.drop n ++ s, ?_, ?_⟩
        · rw [List.drop_eq_getElem_cons hlen]
          exact .bytes _ _ h
        · rw [List.cons_append, List.cons_append, ← List.append_assoc, List.take_append_drop]

end Reader
