import ClassG.ForGo.Bytes
import Mathlib.Algebra.BigOperators.Group.List.Basic

/-!
# Counting the packets of a capture

`api/internal/capture/pcap.go` counts the packets of a file by going from one header to the next.  A
capture may be cut off anywhere, and what is cut off is not counted.

`count_eq_iff` says which files have `k` packets: those that begin with a header and `k` packets, and
end in what is less than a packet.  So a file that is cut off has as many packets as it has whole
(`count_take_iff`).
-/

set_option autoImplicit false

namespace ClassG.Captures

/-! ## Numbers of four bytes -/

/-- `binary.ByteOrder`. -/
inductive ByteOrder
  | bigEndian
  | littleEndian
  deriving DecidableEq

/-- Four bytes from the least one on. -/
def littleEndian (n : ℕ) : List Byte :=
  [Fin.ofNat 256 n, Fin.ofNat 256 (n / 256), Fin.ofNat 256 (n / 256 ^ 2), Fin.ofNat 256 (n / 256 ^ 3)]

namespace ByteOrder

/-- `Uint32`. -/
def uint32 (order : ByteOrder) (bs : List Byte) : ℕ :=
  match order with
  | .littleEndian => Nat.ofDigits 256 (bs.map (·.val))
  | .bigEndian => Nat.ofDigits 256 (bs.reverse.map (·.val))

/-- `PutUint32`. -/
def putUint32 (order : ByteOrder) (n : ℕ) : List Byte :=
  match order with
  | .littleEndian => Captures.littleEndian n
  | .bigEndian => (Captures.littleEndian n).reverse

variable (order : ByteOrder)

@[simp] theorem length_putUint32 (n : ℕ) : (order.putUint32 n).length = 4 := by
  cases order <;> rfl

theorem uint32_putUint32 {n : ℕ} (h : n < 2 ^ 32) : order.uint32 (order.putUint32 n) = n := by
  have hlittle : Nat.ofDigits 256 ((Captures.littleEndian n).map (·.val)) = n := by
    simp only [Captures.littleEndian, List.map_cons, List.map_nil, Nat.ofDigits_cons,
      Nat.ofDigits_nil, Fin.ofNat]
    omega
  cases order with
  | littleEndian => exact hlittle
  | bigEndian => rw [uint32, putUint32, List.reverse_reverse, hlittle]

theorem putUint32_uint32 {bs : List Byte} (h : bs.length = 4) :
    order.putUint32 (order.uint32 bs) = bs := by
  have hlittle {bs : List Byte} (h : bs.length = 4) :
      Captures.littleEndian (Nat.ofDigits 256 (bs.map (·.val))) = bs := by
    obtain ⟨a, b, c, d, rfl⟩ := List.length_eq_four.mp h
    simp only [Captures.littleEndian, List.map_cons, List.map_nil, Nat.ofDigits_cons,
      Nat.ofDigits_nil, List.cons.injEq, and_true, Fin.ext_iff, Fin.ofNat]
    omega
  cases order with
  | littleEndian => exact hlittle h
  | bigEndian =>
    rw [uint32, putUint32, hlittle (by rw [List.length_reverse, h]), List.reverse_reverse]

end ByteOrder

/-! ## The count -/

def magicMicroBE : ℕ := 0xa1b2c3d4
def magicMicroLE : ℕ := 0xd4c3b2a1
def magicNanoBE : ℕ := 0xa1b23c4d
def magicNanoLE : ℕ := 0x4d3cb2a1

/-- `pcapGlobalHeaderLen`. -/
def globalHeaderLen : ℕ := 24

/-- `pcapPacketHeaderLen`. -/
def packetHeaderLen : ℕ := 16

/-- `maxPacketLen`. -/
def maxPacketLen : ℕ := 2 ^ 22

/-- What a file fails with. -/
inductive PcapError
  | eof
  | unexpectedEOF
  /-- `errNotClassicPcap`. -/
  | notClassicPcap
  deriving DecidableEq

/-- What `countPcapPackets` returns. -/
structure Counted where
  count : ℕ
  err : Option PcapError
  deriving DecidableEq

/-- The byte order of a file, by its first number.  The blocks of pcapng are not read. -/
def byteOrder (magic : ℕ) : Option ByteOrder :=
  if magic = magicMicroBE ∨ magic = magicNanoBE then some .bigEndian
  else if magic = magicMicroLE ∨ magic = magicNanoLE then some .littleEndian
  else none

/-- The length that the header of a packet declares. -/
def inclLen (order : ByteOrder) (packet : List Byte) : ℕ := order.uint32 ((packet.drop 8).take 4)

/-- The loop, from where the reader has come to. -/
def countFrom (order : ByteOrder) (rest : List Byte) (count : ℕ) : Counted :=
  if rest.length < packetHeaderLen then ⟨count, none⟩
  else if maxPacketLen < inclLen order rest then ⟨count, some .notClassicPcap⟩
  else if rest.length < packetHeaderLen + inclLen order rest then ⟨count, none⟩
  else countFrom order (rest.drop (packetHeaderLen + inclLen order rest)) (count + 1)
termination_by rest.length
decreasing_by
  rw [List.length_drop]
  simp only [packetHeaderLen] at *
  omega

/-- `countPcapPackets`. -/
def countPcapPackets (file : List Byte) : Counted :=
  if file = [] then ⟨0, some .eof⟩
  else if file.length < globalHeaderLen then ⟨0, some .unexpectedEOF⟩
  else
    match byteOrder (ByteOrder.bigEndian.uint32 (file.take 4)) with
    | none => ⟨0, some .notClassicPcap⟩
    | some order => countFrom order (file.drop globalHeaderLen) 0

/-- `countFrames`, of a file that can be opened, or of none. -/
def countFrames (file : Option (List Byte)) : ℕ :=
  match file with
  | none => 0
  | some file =>
    match (countPcapPackets file).err with
    | none => (countPcapPackets file).count
    | some _ => 0

/-! ## Files -/

/-- A packet, with its header but for the length that it declares. -/
structure Packet where
  ts : List Byte
  origLen : List Byte
  payload : List Byte
  length_ts : ts.length = 8
  length_origLen : origLen.length = 4
  le : payload.length ≤ maxPacketLen

/-- How a packet is written. -/
def Packet.encode (order : ByteOrder) (p : Packet) : List Byte :=
  p.ts ++ order.putUint32 p.payload.length ++ p.origLen ++ p.payload

/-- A capture that is not cut off. -/
structure PcapFile where
  magic : ℕ
  order : ByteOrder
  version : List Byte
  packets : List Packet
  byteOrder_magic : byteOrder magic = some order
  length_version : version.length = 20

namespace PcapFile

variable (f : PcapFile)

/-- The header. -/
def header : List Byte := ByteOrder.bigEndian.putUint32 f.magic ++ f.version

def encode : List Byte := f.header ++ f.packets.flatMap (·.encode f.order)

/-- The length of the header and the first packets. -/
def size (k : ℕ) : ℕ :=
  globalHeaderLen + ((f.packets.take k).map fun p ↦ packetHeaderLen + p.payload.length).sum

end PcapFile

/-- What is less than a packet. -/
def Incomplete (order : ByteOrder) (tail : List Byte) : Prop :=
  tail.length < packetHeaderLen ∨
    inclLen order tail ≤ maxPacketLen ∧ tail.length < packetHeaderLen + inclLen order tail

/-! ## Packets -/

variable {order : ByteOrder} {rest : List Byte} {count : ℕ}

theorem Packet.length_encode (p : Packet) :
    (p.encode order).length = packetHeaderLen + p.payload.length := by
  rw [Packet.encode, List.length_append, List.length_append, List.length_append, p.length_ts,
    p.length_origLen, ByteOrder.length_putUint32]
  rfl

theorem Packet.inclLen_append (p : Packet) (rest : List Byte) :
    inclLen order (p.encode order ++ rest) = p.payload.length := by
  have hdrop : ((p.encode order ++ rest).drop 8).take 4 = order.putUint32 p.payload.length := by
    rw [Packet.encode, List.append_assoc, List.append_assoc, List.append_assoc,
      List.drop_left' p.length_ts, List.take_left' (order.length_putUint32 _)]
  rw [inclLen, hdrop, order.uint32_putUint32]
  exact p.le.trans_lt (by decide)

/-- A packet is counted. -/
theorem countFrom_append (p : Packet) :
    countFrom order (p.encode order ++ rest) count = countFrom order rest (count + 1) := by
  rw [countFrom, p.inclLen_append, List.length_append, p.length_encode, if_neg (by omega),
    if_neg (not_lt.mpr p.le), if_neg (by omega), List.drop_left' p.length_encode]

/-- What is less than a packet is not. -/
theorem countFrom_incomplete (h : Incomplete order rest) :
    countFrom order rest count = ⟨count, none⟩ := by
  rw [countFrom]
  rcases h with h | ⟨hle, hlt⟩
  · rw [if_pos h]
  · rw [if_neg (not_lt.mpr hle), if_pos hlt, ite_self]

theorem countFrom_flatMap (ps : List Packet) (rest : List Byte) (count : ℕ) :
    countFrom order (ps.flatMap (·.encode order) ++ rest) count =
      countFrom order rest (count + ps.length) := by
  induction ps generalizing count with
  | nil => rfl
  | cons p ps ih =>
    rw [List.flatMap_cons, List.append_assoc, countFrom_append, ih, List.length_cons]
    exact congrArg (countFrom order rest) (by omega)

/-- A packet that is there is one that has been written. -/
theorem exists_packet (h : packetHeaderLen + inclLen order rest ≤ rest.length)
    (hle : inclLen order rest ≤ maxPacketLen) :
    ∃ p : Packet, rest = p.encode order ++ rest.drop (packetHeaderLen + inclLen order rest) := by
  simp only [packetHeaderLen] at h ⊢
  have hlen : ((rest.drop 16).take (inclLen order rest)).length = inclLen order rest := by
    rw [List.length_take, List.length_drop]
    omega
  refine ⟨⟨rest.take 8, (rest.drop 12).take 4, (rest.drop 16).take (inclLen order rest), ?_, ?_,
    hlen.trans_le hle⟩, ?_⟩
  · rw [List.length_take]
    omega
  · rw [List.length_take, List.length_drop]
    omega
  · have hput : order.putUint32 (inclLen order rest) = (rest.drop 8).take 4 := by
      rw [inclLen, order.putUint32_uint32 (by rw [List.length_take, List.length_drop]; omega)]
    calc
      rest = rest.take 8 ++ rest.drop 8 := (List.take_append_drop 8 rest).symm
      _ = rest.take 8 ++ ((rest.drop 8).take 4 ++ ((rest.drop 12).take 4 ++
          ((rest.drop 16).take (inclLen order rest) ++
            rest.drop (16 + inclLen order rest)))) := by
        have hpart (i j : ℕ) : rest.drop i = (rest.drop i).take j ++ rest.drop (i + j) := by
          rw [← List.drop_drop, List.take_append_drop]
        rw [← hpart 16, ← hpart 12, ← hpart 8]
      _ = _ := by
        dsimp only [Packet.encode]
        rw [hlen, hput]
        simp only [List.append_assoc]

/-- What is counted are packets, and what is left is less than one. -/
theorem exists_of_countFrom {k : ℕ} (h : countFrom order rest count = ⟨k, none⟩) :
    ∃ ps : List Packet, ∃ tail, k = count + ps.length ∧
      rest = ps.flatMap (·.encode order) ++ tail ∧ Incomplete order tail := by
  induction hn : rest.length using Nat.strong_induction_on generalizing rest count with
  | _ n ih =>
    rw [countFrom] at h
    split at h
    case isTrue hshort =>
      obtain rfl := (Counted.mk.inj h).1
      exact ⟨[], rest, rfl, rfl, .inl hshort⟩
    split at h
    case isTrue hlong => cases (Counted.mk.inj h).2
    rename_i hlong
    split at h
    case isTrue hcut =>
      obtain rfl := (Counted.mk.inj h).1
      exact ⟨[], rest, rfl, rfl, .inr ⟨not_lt.mp hlong, hcut⟩⟩
    rename_i hwhole
    obtain ⟨p, hp⟩ := exists_packet (not_lt.mp hwhole) (not_lt.mp hlong)
    have hlt : (rest.drop (packetHeaderLen + inclLen order rest)).length < n := by
      rw [List.length_drop]
      simp only [packetHeaderLen] at *
      omega
    obtain ⟨ps, tail, hk, htail, hincomplete⟩ := ih _ hlt h rfl
    refine ⟨p :: ps, tail, by rw [hk, List.length_cons]; omega, ?_, hincomplete⟩
    rw [List.flatMap_cons, List.append_assoc, ← htail]
    exact hp

/-! ## Files -/

namespace PcapFile

variable (f : PcapFile)

theorem length_header : f.header.length = globalHeaderLen := by
  rw [header, List.length_append, f.length_version, ByteOrder.length_putUint32]
  rfl

theorem magic_lt : f.magic < 2 ^ 32 := by
  have h := f.byteOrder_magic
  unfold byteOrder at h
  split at h
  case isTrue hmagic => rcases hmagic with hmagic | hmagic <;> rw [hmagic] <;> decide
  split at h
  case isTrue hmagic => rcases hmagic with hmagic | hmagic <;> rw [hmagic] <;> decide
  cases h

theorem count_append (rest : List Byte) :
    countPcapPackets (f.header ++ rest) = countFrom f.order rest 0 := by
  have hne : f.header ++ rest ≠ [] := fun h ↦ by
    have hlen := congrArg List.length h
    rw [List.length_append, f.length_header] at hlen
    simp [globalHeaderLen] at hlen
  have hmagic : (f.header ++ rest).take 4 = ByteOrder.bigEndian.putUint32 f.magic := by
    rw [header, List.append_assoc, List.take_left' (ByteOrder.length_putUint32 _ _)]
  rw [countPcapPackets, if_neg hne, if_neg (by rw [List.length_append, f.length_header]; omega),
    hmagic, ByteOrder.uint32_putUint32 _ f.magic_lt, f.byteOrder_magic]
  dsimp only
  rw [List.drop_left' f.length_header]

end PcapFile

/-- **The files that have `k` packets** begin with a header and these, and end in less than one. -/
theorem count_eq_iff (file : List Byte) (k : ℕ) :
    countPcapPackets file = ⟨k, none⟩ ↔
      ∃ (f : PcapFile) (tail : List Byte),
        f.packets.length = k ∧ file = f.encode ++ tail ∧ Incomplete f.order tail := by
  constructor
  · intro h
    rw [countPcapPackets] at h
    split at h
    case isTrue => cases (Counted.mk.inj h).2
    split at h
    case isTrue => cases (Counted.mk.inj h).2
    rename_i hlen
    split at h
    case h_1 => cases (Counted.mk.inj h).2
    case h_2 order horder =>
      obtain ⟨ps, tail, hk, hrest, htail⟩ := exists_of_countFrom h
      have hlen4 : (file.take 4).length = 4 := by
        rw [List.length_take]
        simp only [globalHeaderLen] at hlen
        omega
      have hversion : ((file.drop 4).take 20).length = 20 := by
        rw [List.length_take, List.length_drop]
        simp only [globalHeaderLen] at hlen
        omega
      refine ⟨⟨_, order, (file.drop 4).take 20, ps, horder, hversion⟩, tail,
        (hk.trans (Nat.zero_add _)).symm, ?_, htail⟩
      · have hdrop : file.drop 4 = (file.drop 4).take 20 ++ file.drop globalHeaderLen := by
          rw [show globalHeaderLen = 4 + 20 from rfl, ← List.drop_drop, List.take_append_drop]
        rw [PcapFile.encode, PcapFile.header, ByteOrder.putUint32_uint32 _ hlen4, List.append_assoc,
          List.append_assoc]
        show file = file.take 4 ++ ((file.drop 4).take 20 ++ (ps.flatMap (·.encode order) ++ tail))
        rw [← hrest, ← hdrop, List.take_append_drop]
  · rintro ⟨f, tail, rfl, rfl, htail⟩
    rw [PcapFile.encode, List.append_assoc, f.count_append, countFrom_flatMap,
      countFrom_incomplete htail, Nat.zero_add]

/-! ## Files that are cut off -/

theorem inclLen_take {n : ℕ} (h : packetHeaderLen ≤ n) (bs : List Byte) :
    inclLen order (bs.take n) = inclLen order bs := by
  simp only [packetHeaderLen] at h
  rw [inclLen, inclLen, List.drop_take, List.take_take, min_eq_left (by omega)]

/-- What is cut out of a packet is less than one. -/
theorem incomplete_take (p : Packet) (rest : List Byte) {n : ℕ}
    (h : n < packetHeaderLen + p.payload.length) :
    Incomplete order ((p.encode order ++ rest).take n) := by
  by_cases hshort : n < packetHeaderLen
  · exact .inl ((List.length_take_le _ _).trans_lt hshort)
  · rw [Incomplete, inclLen_take (not_lt.mp hshort), p.inclLen_append]
    exact .inr ⟨p.le, (List.length_take_le _ _).trans_lt h⟩

theorem length_flatMap_encode (ps : List Packet) :
    (ps.flatMap (·.encode order)).length =
      (ps.map fun p ↦ packetHeaderLen + p.payload.length).sum := by
  rw [List.length_flatMap]
  exact congrArg List.sum (List.map_congr_left fun p _ ↦ p.length_encode)

namespace PcapFile

variable (f : PcapFile)

theorem size_succ {k : ℕ} (h : k < f.packets.length) :
    f.size (k + 1) = f.size k + (packetHeaderLen + f.packets[k].payload.length) := by
  rw [size, size, List.take_succ_eq_append_getElem h, List.map_append, List.sum_append]
  simp [Nat.add_assoc]

/-- The first `k` packets are whole, and no more are. -/
def Whole (n k : ℕ) : Prop :=
  k ≤ f.packets.length ∧ f.size k ≤ n ∧ (k < f.packets.length → n < f.size (k + 1))

theorem exists_whole {n : ℕ} (hn : globalHeaderLen ≤ n) : ∃ k, f.Whole n k := by
  refine ⟨Nat.findGreatest (fun k ↦ f.size k ≤ n) f.packets.length, Nat.findGreatest_le _,
    Nat.findGreatest_spec (P := fun k ↦ f.size k ≤ n) (Nat.zero_le _) hn, fun hlt ↦ ?_⟩
  exact not_le.mp (Nat.findGreatest_is_greatest (P := fun k ↦ f.size k ≤ n) (Nat.lt_succ_self _) hlt)

theorem count_of_whole {n k : ℕ} (h : f.Whole n k) :
    countPcapPackets (f.encode.take n) = ⟨k, none⟩ := by
  obtain ⟨hk, hle, hlt⟩ := h
  have hsize : (f.header ++ (f.packets.take k).flatMap (·.encode f.order)).length = f.size k := by
    rw [List.length_append, f.length_header, length_flatMap_encode]
    rfl
  have hencode : f.encode = (f.header ++ (f.packets.take k).flatMap (·.encode f.order)) ++
      (f.packets.drop k).flatMap (·.encode f.order) := by
    rw [encode, List.append_assoc, ← List.flatMap_append, List.take_append_drop]
  rw [hencode, List.take_append, hsize, List.take_of_length_le (hsize.trans_le hle),
    List.append_assoc, f.count_append, countFrom_flatMap, List.length_take, min_eq_left hk,
    Nat.zero_add]
  refine countFrom_incomplete ?_
  rcases hk.eq_or_lt with rfl | hk
  · rw [List.drop_length, List.flatMap_nil, List.take_nil]
    exact .inl (by decide)
  · have hnext := hlt hk
    rw [f.size_succ hk] at hnext
    rw [List.drop_eq_getElem_cons hk, List.flatMap_cons]
    exact incomplete_take _ _ (by omega)

end PcapFile

/-- **A capture that is cut off has the packets that are whole.** -/
theorem count_take_iff (f : PcapFile) {n : ℕ} (hn : globalHeaderLen ≤ n) (k : ℕ) :
    countPcapPackets (f.encode.take n) = ⟨k, none⟩ ↔ f.Whole n k := by
  obtain ⟨l, hl⟩ := f.exists_whole hn
  have hcount := f.count_of_whole hl
  constructor
  · intro h
    rw [h] at hcount
    obtain rfl := (Counted.mk.inj hcount).1
    exact hl
  · exact f.count_of_whole

/-- Two packets, written with the least byte first. -/
def twoPackets : PcapFile where
  magic := magicMicroLE
  order := .littleEndian
  version := List.replicate 20 0
  packets := [⟨List.replicate 8 0, List.replicate 4 0, [1, 2, 3], rfl, rfl, by decide⟩,
    ⟨List.replicate 8 0, List.replicate 4 0, [4, 5, 6, 7], rfl, rfl, by decide⟩]
  byteOrder_magic := by decide
  length_version := rfl

/-- The second one is cut off in its payload. -/
theorem count_twoPackets : countPcapPackets (twoPackets.encode.take 60) = ⟨1, none⟩ :=
  (count_take_iff twoPackets (by decide) 1).mpr ⟨by decide, by decide, fun _ ↦ by decide⟩

end ClassG.Captures
