import ClassG.ForRust.Slice
import ClassG.ForRust.Utf8
import ClassG.Zmtp.Frame

/-!
# Metadata of a connection

The properties of a `READY` command in `sensor-sdr/src/zmtp.rs`: `encode_property` writes a name
behind its length in one byte and a value behind its length in four, and `property` looks a name up
in what a peer sent, which may be anything.

* `propertyTurn_cons` — what one turn of the loop comes to; nothing panics in it.
* `property_encode` — what a property that was written comes to, whatever follows it.
* `property_of_encoded` — a lookup finds the first property of that name, and ends on all input.
-/

set_option autoImplicit false

namespace ClassG.Zmtp

open RustSlice RustText

/-- `encode_property`. -/
def encodeProperty (key value : List Char) : List Byte :=
  Fin.ofNat 256 (asBytes key).length :: asBytes key ++ toBEBytes 4 (asBytes value).length ++
    asBytes value

/-- `split_command`: the name of a command, and its properties. -/
def splitCommand (body : List Byte) : Except Panicked (Except ReadError (List Byte × List Byte)) :=
  match body.head? with
  | none => .ok (.error (.protocol "empty command"))
  | some len => do
    let stop ← add 1 len.val
    if body.length < stop then
      return .error (.protocol "command name runs past the end of the frame")
    let name ← range body 1 stop
    let properties ← rangeFrom body stop
    return .ok (name, properties)

/-- What a turn of the loop of `property` comes to. -/
inductive Turn
  | returns (value : Option (List Char))
  | continues (raw : List Byte)
  deriving DecidableEq

/-- A turn of the loop of `property`, on a slice that is not empty. -/
def propertyTurn (raw : List Byte) (wantLowercase : List Char) : Except Panicked Turn := do
  let klen ← index raw 0
  let keyEnd ← add 1 klen.val
  let sizeEnd ← add keyEnd 4
  if raw.length < sizeEnd then return .returns none
  let key ← range raw 1 keyEnd
  let valueStart ← add 5 klen.val
  let size ← range raw keyEnd valueStart
  if size.length ≠ 4 then return .returns none
  let valueEnd ← add valueStart (ofBEBytes size)
  if raw.length < valueEnd then return .returns none
  let value ← range raw valueStart valueEnd
  if asciiLower (fromUtf8Lossy key) = wantLowercase then
    return .returns (some (fromUtf8Lossy value))
  let rest ← rangeFrom raw valueEnd
  return .continues rest

/-! ## One turn -/

theorem ofBEBytes_lt (bs : List Byte) : ofBEBytes bs < 256 ^ bs.length := by
  induction bs using List.reverseRecOn with
  | nil => decide
  | append_singleton bs b ih =>
    rw [ofBEBytes, List.foldl_append, ← ofBEBytes, List.foldl_cons, List.foldl_nil,
      List.length_append, List.length_singleton, pow_succ]
    have hb := b.isLt
    omega

/-- **What a turn comes to**: the name, the length and the value are read where they are there, and
nothing panics. -/
theorem propertyTurn_cons (b : Byte) (tail : List Byte) (want : List Char) :
    propertyTurn (b :: tail) want = .ok (
      let vlen := ofBEBytes ((tail.drop b.val).take 4)
      if tail.length < b.val + 4 then .returns none
      else if tail.length < b.val + 4 + vlen then .returns none
      else if asciiLower (fromUtf8Lossy (tail.take b.val)) = want then
        .returns (some (fromUtf8Lossy ((tail.drop (b.val + 4)).take vlen)))
      else .continues (tail.drop (b.val + 4 + vlen))) := by
  have hb := b.isLt
  have hkeyEnd : add 1 b.val = .ok (b.val + 1) := by rw [add_of_lt (by omega), Nat.add_comm]
  have hvalueStart : add 5 b.val = .ok (b.val + 4 + 1) := by
    rw [add_of_lt (by omega), Nat.add_comm]
  rw [propertyTurn, index_cons_zero]
  dsimp only [Except.bind, bind, pure, Except.pure]
  rw [hkeyEnd]
  dsimp only
  rw [add_of_lt (by omega), hvalueStart]
  dsimp only
  by_cases hshort : tail.length < b.val + 4
  · rw [if_pos (by rw [List.length_cons]; omega), if_pos hshort]
  rw [if_neg (by rw [List.length_cons]; omega), if_neg hshort]
  have hkey : range (b :: tail) 1 (b.val + 1) = .ok (tail.take b.val) := by
    rw [range_of_le (by omega) (by rw [List.length_cons]; omega)]
    rfl
  have hsize : range (b :: tail) (b.val + 1) (b.val + 4 + 1) = .ok ((tail.drop b.val).take 4) := by
    rw [range_of_le (by omega) (by rw [List.length_cons]; omega), List.take_succ_cons,
      List.drop_succ_cons, List.drop_take, Nat.add_sub_cancel_left]
  have hlen : ((tail.drop b.val).take 4).length = 4 := by
    rw [List.length_take, List.length_drop]
    omega
  have hvlen := ofBEBytes_lt ((tail.drop b.val).take 4)
  rw [hlen] at hvlen
  rw [hkey, hsize]
  dsimp only
  rw [if_neg (not_not.mpr hlen)]
  generalize ofBEBytes ((tail.drop b.val).take 4) = vlen at hvlen ⊢
  have hvalueEnd : add (b.val + 4 + 1) vlen = .ok (b.val + 4 + vlen + 1) := by
    rw [add_of_lt (by omega), Nat.add_right_comm]
  rw [hvalueEnd]
  dsimp only
  by_cases hcut : tail.length < b.val + 4 + vlen
  · rw [if_pos (by rw [List.length_cons]; omega), if_pos hcut]
  rw [if_neg (by rw [List.length_cons]; omega), if_neg hcut]
  have hvalue : range (b :: tail) (b.val + 4 + 1) (b.val + 4 + vlen + 1) =
      .ok ((tail.drop (b.val + 4)).take vlen) := by
    rw [range_of_le (by omega) (by rw [List.length_cons]; omega), List.take_succ_cons,
      List.drop_succ_cons, List.drop_take, Nat.add_sub_cancel_left]
  have hrest : rangeFrom (b :: tail) (b.val + 4 + vlen + 1) =
      .ok (tail.drop (b.val + 4 + vlen)) :=
    rangeFrom_of_le (by rw [List.length_cons]; omega)
  rw [hvalue, hrest]
  dsimp only
  split <;> rfl

/-- A turn that goes on does so with less. -/
theorem length_of_continues {raw rest : List Byte} {want : List Char}
    (h : propertyTurn raw want = .ok (.continues rest)) : rest.length < raw.length := by
  cases raw with
  | nil => cases h
  | cons b tail =>
    rw [propertyTurn_cons] at h
    have h := Except.ok.inj h
    dsimp only at h
    split_ifs at h
    obtain rfl := Turn.continues.inj h
    rw [List.length_drop, List.length_cons]
    omega

/-! ## The lookup -/

/-- `property`. -/
def property (raw : List Byte) (wantLowercase : List Char) :
    Except Panicked (Option (List Char)) :=
  if raw = [] then .ok none
  else
    match _h : propertyTurn raw wantLowercase with
    | .error e => .error e
    | .ok (.returns value) => .ok value
    | .ok (.continues rest) => property rest wantLowercase
termination_by raw.length
decreasing_by exact length_of_continues _h

theorem property_of_returns {raw : List Byte} {want : List Char} {value : Option (List Char)}
    (h : propertyTurn raw want = .ok (.returns value)) : property raw want = .ok value := by
  rw [property]
  split
  · rename_i hnil
    rw [hnil] at h
    cases h
  · split <;> rename_i hturn <;> rw [h] at hturn <;> cases hturn
    rfl

theorem property_of_continues {raw rest : List Byte} {want : List Char}
    (h : propertyTurn raw want = .ok (.continues rest)) :
    property raw want = property rest want := by
  rw [property]
  split
  · rename_i hnil
    rw [hnil] at h
    cases h
  · split <;> rename_i hturn <;> rw [h] at hturn <;> cases hturn
    rfl

/-- **A lookup returns, whatever there is to look in.** -/
theorem property_ok (raw : List Byte) (want : List Char) :
    ∃ value, property raw want = .ok value := by
  induction hn : raw.length using Nat.strong_induction_on generalizing raw with
  | _ n ih =>
    cases raw with
    | nil => exact ⟨none, by rw [property, if_pos rfl]⟩
    | cons b tail =>
      obtain ⟨turn, hturn⟩ : ∃ turn, propertyTurn (b :: tail) want = .ok turn :=
        ⟨_, propertyTurn_cons b tail want⟩
      cases turn with
      | returns value => exact ⟨value, property_of_returns hturn⟩
      | continues rest =>
        obtain ⟨value, hvalue⟩ := ih rest.length (hn ▸ length_of_continues hturn) rest rfl
        exact ⟨value, (property_of_continues hturn).trans hvalue⟩

theorem splitCommand_ok (body : List Byte) : ∃ r, splitCommand body = .ok r := by
  cases body with
  | nil => exact ⟨_, rfl⟩
  | cons len tail =>
    have hlen := len.isLt
    rw [splitCommand]
    dsimp only [List.head?_cons, Except.bind, bind, pure, Except.pure]
    rw [add_of_lt (by omega)]
    dsimp only
    by_cases hshort : (len :: tail).length < 1 + len.val
    · rw [if_pos hshort]
      exact ⟨_, rfl⟩
    · rw [if_neg hshort, range_of_le (by omega) (by omega), rangeFrom_of_le (by omega)]
      exact ⟨_, rfl⟩

/-! ## What was written -/

/-- A turn on a name and a length that are there. -/
theorem propertyTurn_append {b : Byte} {key size : List Byte} (hkey : key.length = b.val)
    (hsize : size.length = 4) (body : List Byte) (want : List Char) :
    propertyTurn (b :: (key ++ (size ++ body))) want = .ok (
      if body.length < ofBEBytes size then .returns none
      else if asciiLower (fromUtf8Lossy key) = want then
        .returns (some (fromUtf8Lossy (body.take (ofBEBytes size))))
      else .continues (body.drop (ofBEBytes size))) := by
  have hname : (key ++ (size ++ body)).drop b.val = size ++ body := List.drop_left' hkey
  have hbody : (key ++ (size ++ body)).drop (b.val + 4) = body := by
    rw [← List.drop_drop, hname, List.drop_left' hsize]
  have hrest : (key ++ (size ++ body)).drop (b.val + 4 + ofBEBytes size) =
      body.drop (ofBEBytes size) := by
    rw [← List.drop_drop, hbody]
  have hlen : (key ++ (size ++ body)).length = b.val + 4 + body.length := by
    rw [List.length_append, List.length_append]
    omega
  rw [propertyTurn_cons]
  dsimp only
  rw [hname, List.take_left' hsize, hbody, hrest, List.take_left' hkey, hlen, if_neg (by omega)]
  simp only [Nat.add_lt_add_iff_left]

/-- **What a property that was written comes to**: of a length of 2³² or more the rest is lost. -/
theorem property_encode {key value : List Char} (hkey : (asBytes key).length ≤ 255)
    (rest : List Byte) (want : List Char) :
    property (encodeProperty key value ++ rest) want =
      if asciiLower key = want then
        .ok (some (fromUtf8Lossy
          ((asBytes value ++ rest).take ((asBytes value).length % 2 ^ 32))))
      else property ((asBytes value ++ rest).drop ((asBytes value).length % 2 ^ 32)) want := by
  have hval : (asBytes key).length = (Fin.ofNat 256 (asBytes key).length : Byte).val := by
    rw [Fin.val_ofNat, Nat.mod_eq_of_lt (by omega)]
  have hsize : ofBEBytes (toBEBytes 4 (asBytes value).length) = (asBytes value).length % 2 ^ 32 := by
    rw [ofBEBytes, foldl_toBEBytes, Nat.zero_mul, Nat.zero_add]
    rfl
  have hcode : encodeProperty key value ++ rest = Fin.ofNat 256 (asBytes key).length ::
      (asBytes key ++ (toBEBytes 4 (asBytes value).length ++ (asBytes value ++ rest))) := by
    simp [encodeProperty]
  have hturn := propertyTurn_append hval (length_toBEBytes 4 (asBytes value).length)
    (asBytes value ++ rest) want
  have hthere : ¬(asBytes value ++ rest).length < (asBytes value).length % 2 ^ 32 := by
    have hle : (asBytes value).length % 2 ^ 32 ≤ (asBytes value).length := Nat.mod_le _ _
    rw [List.length_append]
    omega
  rw [hsize, if_neg hthere, fromUtf8Lossy_asBytes] at hturn
  rw [hcode]
  split_ifs at hturn ⊢
  · exact property_of_returns hturn
  · exact property_of_continues hturn

/-- `encode_property`, one pair after the other. -/
def encodeProperties (pairs : List (List Char × List Char)) : List Byte :=
  pairs.flatMap fun p ↦ encodeProperty p.1 p.2

/-- A pair that its lengths have room for: one byte is for the length of the name, and four are for
that of the value. -/
def Fits (p : List Char × List Char) : Prop :=
  (asBytes p.1).length ≤ 255 ∧ (asBytes p.2).length < 2 ^ 32

instance (p : List Char × List Char) : Decidable (Fits p) := inferInstanceAs (Decidable (_ ∧ _))

theorem property_encodeProperties {pairs : List (List Char × List Char)}
    (h : ∀ p ∈ pairs, Fits p) (want : List Char) :
    property (encodeProperties pairs) want =
      .ok ((pairs.find? fun p ↦ asciiLower p.1 = want).map Prod.snd) := by
  induction pairs with
  | nil => rw [encodeProperties, List.flatMap_nil, property, if_pos rfl]; rfl
  | cons p pairs ih =>
    obtain ⟨⟨hkey, hvalue⟩, h⟩ := List.forall_mem_cons.mp h
    rw [encodeProperties, List.flatMap_cons, ← encodeProperties, property_encode hkey,
      Nat.mod_eq_of_lt hvalue, List.take_left, List.drop_left, fromUtf8Lossy_asBytes, ih h]
    split
    · rename_i hfound
      rw [List.find?_cons_of_pos (by simpa using hfound)]
      rfl
    · rename_i hother
      rw [List.find?_cons_of_neg (by simpa using hother)]

/-- Two names are one, whatever the case of their letters in ASCII. -/
def SameName (a b : List Char) : Prop := asciiLower a = asciiLower b

instance (a b : List Char) : Decidable (SameName a b) := inferInstanceAs (Decidable (_ = _))

/-- **Metadata is read as it was written.**  A lookup of a key in lower case finds the value of the
first pair of that name, and nothing where there is none; and whatever a peer sends, neither the
lookup nor the splitting of a command reads outside of it, and both return. -/
theorem property_of_encoded :
    (∀ (pairs : List (List Char × List Char)) (key : List Char), (∀ p ∈ pairs, Fits p) →
      asciiLower key = key → property (encodeProperties pairs) key =
        .ok ((pairs.find? fun p ↦ SameName p.1 key).map Prod.snd)) ∧
    (∀ (raw : List Byte) (key : List Char), ∃ value, property raw key = .ok value) ∧
    ∀ body : List Byte, ∃ r, splitCommand body = .ok r := by
  refine ⟨fun pairs key h hkey ↦ ?_, property_ok, splitCommand_ok⟩
  rw [property_encodeProperties h]
  simp only [SameName, hkey]

/-- The properties of `ready_command`. -/
def readyProperties : List (List Char × List Char) :=
  [("Socket-Type".toList, "PUB".toList), ("Identity".toList, [])]

theorem readyProperties_found :
    property (encodeProperties readyProperties) "socket-type".toList = .ok (some "PUB".toList) :=
  (property_of_encoded.1 readyProperties "socket-type".toList (by decide) (by decide)).trans
    (by decide)

/-- A value of 2³² bytes is read as an empty one. -/
theorem property_cut {value : List Char} (h : (asBytes value).length = 2 ^ 32) :
    property (encodeProperties [(['a'], value)]) ['a'] = .ok (some []) := by
  have hkey : (asBytes ['a']).length ≤ 255 := by decide
  have hone : property (encodeProperty ['a'] value ++ []) ['a'] = _ := property_encode hkey [] ['a']
  rw [if_pos (by decide), h, Nat.mod_self, List.take_zero, List.append_nil] at hone
  rw [encodeProperties, List.flatMap_singleton]
  exact hone

theorem length_asBytes_replicate (n : ℕ) : (asBytes (List.replicate n 'a')).length = n := by
  have hone : (charBytes 'a').length = 1 := by decide
  induction n with
  | zero => rfl
  | succ n ih => rw [List.replicate_succ, asBytes_cons, List.length_append, hone, ih, Nat.add_comm]

/-- A key that is not in lower case is not found under its own name, and a value of 2³² bytes is
read as an empty one. -/
theorem upper_case_not_found :
    property (encodeProperties [(['A'], ['x'])]) ['A'] ≠ .ok (some ['x']) ∧
      property (encodeProperties [(['a'], List.replicate (2 ^ 32) 'a')]) ['a'] ≠
        .ok (some (List.replicate (2 ^ 32) 'a')) := by
  constructor
  · rw [property_encodeProperties (by decide)]
    decide
  · rw [property_cut (length_asBytes_replicate _)]
    intro heq
    have hlen := congrArg List.length (Option.some.inj (Except.ok.inj heq))
    rw [List.length_replicate] at hlen
    exact absurd hlen (by norm_num)

end ClassG.Zmtp
