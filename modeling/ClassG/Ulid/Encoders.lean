import ClassG.ForGo.Bytes
import ClassG.ForGo.Digits

/-!
# The encoders of identifiers

An identifier is 48 bits of milliseconds and 80 random bits, in the alphabet of Crockford.  The
repository writes it in four places: `api/internal/ulid` and `fusion/id.go`, which shift bytes
through a word, `sensor-sdr/src/ulid.rs`, which shifts the words, and
`sensor-wifi/classg_wifi/detection.py`, which shifts one long integer.
-/

set_option autoImplicit false

namespace ClassG.Ulid

open FixedWidth

/-- `crockford`, `CROCKFORD`, `_ULID_ALPHABET`. -/
def crockford : List Char := "0123456789ABCDEFGHJKMNPQRSTVWXYZ".toList

/-- The character of five bits. -/
def char (d : ℕ) : Char := crockford.getD d '0'

/-- Ten random bytes. -/
structure Entropy where
  bytes : List Byte
  length : bytes.length = 10

/-- `int.from_bytes(_, "big")`. -/
def fromBytes (bs : List Byte) : ℕ := ofDigits 256 (bs.map Fin.val)

/-- The random bits as a number. -/
def Entropy.value (e : Entropy) : ℕ := fromBytes e.bytes

/-! ## In Go -/

/-- The loop that writes the time from its last character to its first, in front of `id`. -/
def writeTime : ℕ → ℕ → List Char → List Char
  | 0, _, id => id
  | i + 1, ms, id => writeTime i (ms >>> 5) (char (ms &&& 0x1f) :: id)

/-- The inner loop: as many characters as there are bits for. -/
def writeBits (acc bits : ℕ) (id : List Char) : ℕ × List Char :=
  if 5 ≤ bits ∧ id.length < 26 then
    writeBits acc (bits - 5) (id ++ [char ((acc >>> (bits - 5)) &&& 0x1f)])
  else (bits, id)
termination_by bits

/-- The variables of the outer loop. -/
structure Packing where
  acc : ℕ := 0
  bits : ℕ := 0
  id : List Char

/-- One byte of entropy; `acc` is a `uint64`. -/
def Packing.add (p : Packing) (b : Byte) : Packing :=
  let acc := (p.acc <<< 8 ||| b.val) % 2 ^ 64
  let (bits, id) := writeBits acc (p.bits + 8) p.id
  ⟨acc, bits, id⟩

/-- What both functions do with a time and the bytes of `rand.Read`, which may fail.  What is left
of the identifier after the last byte is filled up. -/
def encodeGo (ms : ℕ) (entropy : Option Entropy) (fill : Char) : String :=
  let time := writeTime 10 ms []
  match entropy with
  | none => .ofList (time ++ List.replicate 16 '0')
  | some e =>
    let id := (e.bytes.foldl Packing.add { id := time }).id
    .ofList (id ++ List.replicate (26 - id.length) fill)

/-- `ulid.New`, of the milliseconds of a time. -/
def new (milli : ℤ) (entropy : Option Entropy) : String :=
  let milli := if milli < 0 then 0 else milli
  encodeGo milli.toNat entropy '0'

/-- `NewULID`: `uint64` of what is negative is large, and an array is filled with zero bytes. -/
def newULID (milli : ℤ) (entropy : Option Entropy) : String :=
  encodeGo (milli % 2 ^ 64).toNat entropy (.ofNat 0)

/-! ## In Rust -/

/-- `UlidFactory`. -/
structure UlidFactory where
  state : UInt64

namespace UlidFactory

/-- `next_u64`. -/
def nextU64 (f : UlidFactory) : UInt64 × UlidFactory :=
  let state := f.state ^^^ f.state <<< 13
  let state := state ^^^ state >>> 7
  let state := state ^^^ state <<< 17
  (state * 0x2545F4914F6CDD1D, ⟨state⟩)

/-- The random bits of `mint`, from two numbers. -/
def rand (f : UlidFactory) : ℕ × UlidFactory :=
  let (a, f) := f.nextU64
  let (b, f) := f.nextU64
  (a.toNat <<< 16 ||| b.toNat &&& 0xFFFF, f)

/-- The text of `mint`. -/
def encode (epochMs : ℤ) (rand : ℕ) : String :=
  let ms := (max epochMs 0).toNat &&& 0xFFFFFFFFFFFF
  .ofList (((List.range 10).map fun i ↦ char (ms >>> (45 - 5 * i) &&& 0x1F)) ++
    (List.range 16).map fun i ↦ char (rand >>> (75 - 5 * i) &&& 0x1F))

/-- `mint`. -/
def mint (f : UlidFactory) (epochMs : ℤ) : String × UlidFactory :=
  let (r, f) := f.rand
  (encode epochMs r, f)

end UlidFactory

/-! ## In Python -/

/-- The loop of `_ulid`, which appends the last character first. -/
def lastFirst : ℕ → ℕ → List Char
  | 0, _ => []
  | n + 1, value => char (value &&& 0x1F) :: lastFirst n (value >>> 5)

/-- `_ulid`. -/
def ulid (randBytes : List Byte) (tsMs : ℤ) : String :=
  let tsMs := (max tsMs 0).toNat
  let bytes := randBytes.take 10
  let value := tsMs <<< 80 ||| fromBytes (bytes ++ List.replicate (10 - bytes.length) 0)
  .ofList (lastFirst 26 value).reverse

/-! ## All of them -/

/-- Where an identifier is made. -/
inductive Encoder
  | api
  | fusion
  | sensorSdr
  | sensorWifi
  deriving DecidableEq

/-- The identifier of a time in milliseconds and of random bits. -/
def Encoder.encode : Encoder → ℤ → Entropy → String
  | api, t, e => new t (some e)
  | fusion, t, e => newULID t (some e)
  | sensorSdr, t, e => UlidFactory.encode t e.value
  | sensorWifi, t, e => ulid e.bytes t

/-- What an identifier stands for: the milliseconds and the random bits. -/
def decode (s : String) : Option (ℕ × ℕ) :=
  if s.toList.all (· ∈ crockford) then
    let v := ofDigits 32 (s.toList.map fun c ↦ crockford.idxOf c)
    some (v / 2 ^ 80, v % 2 ^ 80)
  else none

end ClassG.Ulid
