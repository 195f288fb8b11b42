import Mathlib.Data.Nat.Digits.Lemmas
import ClassG.ForGo.Bytes

/-!
# Go addresses

A `net.IP` is a slice of 4 or 16 bytes, and an IPv4 address may be written in either.  The methods
that say what an address is for look at single bytes; here it is said again as ranges of numbers,
for the one `Address` that both spellings mean.
-/

set_option autoImplicit false

/-- What an address of the internet is. -/
inductive Address
  | v4 (value : ℕ)
  | v6 (value : ℕ)
  deriving DecidableEq, Repr

namespace Address

/-- `127.0.0.0/8` and `::1`. -/
def Loopback : Address → Prop
  | v4 n => n / 2 ^ 24 = 127
  | v6 n => n = 1

/-- `10.0.0.0/8`, `172.16.0.0/12`, `192.168.0.0/16` and `fc00::/7`. -/
def Private : Address → Prop
  | v4 n => n / 2 ^ 24 = 10 ∨ n / 2 ^ 20 = 172 * 16 + 1 ∨ n / 2 ^ 16 = 192 * 256 + 168
  | v6 n => n / 2 ^ 121 = 0xfc / 2

/-- `169.254.0.0/16` and `fe80::/10`. -/
def LinkLocalUnicast : Address → Prop
  | v4 n => n / 2 ^ 16 = 169 * 256 + 254
  | v6 n => n / 2 ^ 118 = 0xfe80 / 2 ^ 6

/-- `224.0.0.0/24`, and the multicast addresses of the scope of a link. -/
def LinkLocalMulticast : Address → Prop
  | v4 n => n / 2 ^ 8 = 224 * 2 ^ 16
  | v6 n => n / 2 ^ 120 = 0xff ∧ n / 2 ^ 112 % 16 = 2

/-- The multicast addresses of the scope of an interface. -/
def InterfaceLocalMulticast : Address → Prop
  | v4 _ => False
  | v6 n => n / 2 ^ 120 = 0xff ∧ n / 2 ^ 112 % 16 = 1

/-- `0.0.0.0` and `::`. -/
def Unspecified : Address → Prop
  | v4 n => n = 0
  | v6 n => n = 0

/-- The address is none that a machine keeps to itself, to its link or to its network. -/
structure Public (a : Address) : Prop where
  not_loopback : ¬a.Loopback
  not_private : ¬a.Private
  not_linkLocalUnicast : ¬a.LinkLocalUnicast
  not_linkLocalMulticast : ¬a.LinkLocalMulticast
  not_interfaceLocalMulticast : ¬a.InterfaceLocalMulticast
  not_unspecified : ¬a.Unspecified

end Address

/-- A `net.IP`. -/
structure IP where
  bytes : GoBytes
  isIP : bytes.length = 4 ∨ bytes.length = 16
  deriving DecidableEq

namespace IP

/-- `v4InV6Prefix`. -/
def v4InV6Prefix : GoBytes := [0, 0, 0, 0, 0, 0, 0, 0, 0, 0, 255, 255]

/-- `To4`. -/
def to4 (ip : IP) : Option GoBytes :=
  if ip.bytes.length = 4 then some ip.bytes
  else if ip.bytes.take 12 = v4InV6Prefix then some (ip.bytes.drop 12)
  else none

/-- `Equal`. -/
def equal (ip x : IP) : Bool :=
  if ip.bytes.length = x.bytes.length then ip.bytes = x.bytes
  else if ip.bytes.length = 4 then
    x.bytes.take 12 = v4InV6Prefix ∧ ip.bytes = x.bytes.drop 12
  else ip.bytes.take 12 = v4InV6Prefix ∧ ip.bytes.drop 12 = x.bytes

/-- `ip[i]`. -/
def byte (bytes : GoBytes) (i : ℕ) : ℕ := (bytes.getD i 0).val

/-- `IPv6loopback`. -/
def v6loopback : IP := ⟨[0, 0, 0, 0, 0, 0, 0, 0, 0, 0, 0, 0, 0, 0, 0, 1], .inr rfl⟩

/-- `IPv4zero`. -/
def v4zero : IP := ⟨v4InV6Prefix ++ [0, 0, 0, 0], .inr rfl⟩

/-- `IPv6unspecified`. -/
def v6unspecified : IP := ⟨[0, 0, 0, 0, 0, 0, 0, 0, 0, 0, 0, 0, 0, 0, 0, 0], .inr rfl⟩

/-- `IsLoopback`. -/
def isLoopback (ip : IP) : Bool :=
  match ip.to4 with
  | some ip4 => byte ip4 0 = 127
  | none => ip.equal v6loopback

/-- `IsPrivate`. -/
def isPrivate (ip : IP) : Bool :=
  match ip.to4 with
  | some ip4 => byte ip4 0 = 10 ∨ (byte ip4 0 = 172 ∧ byte ip4 1 &&& 0xf0 = 16) ∨
    (byte ip4 0 = 192 ∧ byte ip4 1 = 168)
  | none => ip.bytes.length = 16 ∧ byte ip.bytes 0 &&& 0xfe = 0xfc

/-- `IsLinkLocalUnicast`. -/
def isLinkLocalUnicast (ip : IP) : Bool :=
  match ip.to4 with
  | some ip4 => byte ip4 0 = 169 ∧ byte ip4 1 = 254
  | none => ip.bytes.length = 16 ∧ byte ip.bytes 0 = 0xfe ∧ byte ip.bytes 1 &&& 0xc0 = 0x80

/-- `IsLinkLocalMulticast`. -/
def isLinkLocalMulticast (ip : IP) : Bool :=
  match ip.to4 with
  | some ip4 => byte ip4 0 = 224 ∧ byte ip4 1 = 0 ∧ byte ip4 2 = 0
  | none => ip.bytes.length = 16 ∧ byte ip.bytes 0 = 0xff ∧ byte ip.bytes 1 &&& 0x0f = 0x02

/-- `IsInterfaceLocalMulticast`. -/
def isInterfaceLocalMulticast (ip : IP) : Bool :=
  ip.bytes.length = 16 ∧ byte ip.bytes 0 = 0xff ∧ byte ip.bytes 1 &&& 0x0f = 0x01

/-- `IsUnspecified`. -/
def isUnspecified (ip : IP) : Bool := ip.equal v4zero || ip.equal v6unspecified

/-! ## The address that is meant -/

/-- A number whose bytes come from the highest to the lowest. -/
def value (bytes : GoBytes) : ℕ := Nat.ofDigits 256 (bytes.reverse.map Fin.val)

/-- The address that is meant. -/
def address (ip : IP) : Address :=
  match ip.to4 with
  | some ip4 => .v4 (value ip4)
  | none => .v6 (value ip.bytes)

theorem length_to4 {ip : IP} {ip4 : GoBytes} (h : ip.to4 = some ip4) : ip4.length = 4 := by
  rw [to4] at h
  split_ifs at h with h4 hprefix
  · exact Option.some.inj h ▸ h4
  · rw [← Option.some.inj h, List.length_drop, ip.isIP.resolve_left h4]

theorem length_of_to4 {ip : IP} (h : ip.to4 = none) : ip.bytes.length = 16 := by
  refine ip.isIP.resolve_left fun h4 ↦ ?_
  rw [to4, if_pos h4] at h
  cases h

/-- To shift out the last bytes is to drop them. -/
theorem value_div (bytes : GoBytes) (n : ℕ) :
    value bytes / 256 ^ n = value (bytes.take (bytes.length - n)) := by
  have hlt : ∀ d ∈ bytes.reverse.map Fin.val, d < 256 := fun d hd ↦ by
    obtain ⟨b, -, rfl⟩ := List.mem_map.mp hd
    exact b.isLt
  rw [value, value, Nat.ofDigits_div_pow_eq_ofDigits_drop n (by decide) _ hlt, ← List.map_drop,
    List.drop_reverse]

theorem value_inj {bytes bytes' : GoBytes} (hlen : bytes.length = bytes'.length)
    (h : value bytes = value bytes') : bytes = bytes' := by
  have hlt : ∀ bytes : GoBytes, ∀ d ∈ bytes.reverse.map Fin.val, d < 256 := fun bytes d hd ↦ by
    obtain ⟨b, -, rfl⟩ := List.mem_map.mp hd
    exact b.isLt
  have hmap := Nat.ofDigits_inj_of_len_eq (by decide) (by simpa using hlen) (hlt bytes) (hlt bytes') h
  exact List.reverse_injective (List.map_injective_iff.mpr Fin.val_injective hmap)

/-- The bytes of an IPv4 address, and where they come from. -/
theorem to4_cases {ip : IP} {ip4 : GoBytes} (h : ip.to4 = some ip4) :
    ip.bytes = ip4 ∨ ip.bytes = v4InV6Prefix ++ ip4 := by
  rw [to4] at h
  split_ifs at h with h4 hprefix
  · exact .inl (Option.some.inj h)
  · rw [← Option.some.inj h, ← hprefix, List.take_append_drop]
    exact .inr rfl

/-! ### Single bytes -/

theorem byte_lt (bytes : GoBytes) (i : ℕ) : byte bytes i < 256 := (bytes.getD i 0).isLt

theorem value_div_first {bytes : GoBytes} {n : ℕ} (h : bytes.length = n + 1) :
    value bytes / 256 ^ n = byte bytes 0 := by
  match bytes with
  | b :: rest => rw [value_div, h, Nat.add_sub_cancel_left]; simp [value, byte]

theorem value_div_second {bytes : GoBytes} {n : ℕ} (h : bytes.length = n + 2) :
    value bytes / 256 ^ n = byte bytes 0 * 256 + byte bytes 1 := by
  match bytes with
  | [b] => simp at h
  | b :: c :: rest =>
    rw [value_div, h, Nat.add_sub_cancel_left]
    simp [value, byte, Nat.ofDigits_cons]
    omega

theorem value_div_third {bytes : GoBytes} {n : ℕ} (h : bytes.length = n + 3) :
    value bytes / 256 ^ n = byte bytes 0 * 65536 + byte bytes 1 * 256 + byte bytes 2 := by
  match bytes with
  | [b] | [b, c] => simp at h
  | b :: c :: d :: rest =>
    rw [value_div, h, Nat.add_sub_cancel_left]
    simp [value, byte, Nat.ofDigits_cons]
    omega

theorem land_f0 {b : ℕ} (h : b < 256) : b &&& 0xf0 = 16 ↔ b / 16 = 1 := by
  have hall : ∀ b : Fin 256, b.val &&& 0xf0 = 16 ↔ b.val / 16 = 1 := by decide +kernel
  exact hall ⟨b, h⟩

theorem land_fe {b : ℕ} (h : b < 256) : b &&& 0xfe = 0xfc ↔ b / 2 = 0xfc / 2 := by
  have hall : ∀ b : Fin 256, b.val &&& 0xfe = 0xfc ↔ b.val / 2 = 0xfc / 2 := by decide +kernel
  exact hall ⟨b, h⟩

theorem land_c0 {b : ℕ} (h : b < 256) : b &&& 0xc0 = 0x80 ↔ b / 64 = 2 := by
  have hall : ∀ b : Fin 256, b.val &&& 0xc0 = 0x80 ↔ b.val / 64 = 2 := by decide +kernel
  exact hall ⟨b, h⟩

theorem land_0f (b : ℕ) : b &&& 0x0f = b % 16 := Nat.and_two_pow_sub_one_eq_mod b 4

/-! ### The methods -/

variable (ip : IP)

variable {ip} in
theorem equal_iff_value {x : IP} (h : ip.bytes.length = x.bytes.length) :
    ip.equal x = true ↔ value ip.bytes = value x.bytes := by
  rw [equal, if_pos h, decide_eq_true_iff]
  exact ⟨congrArg value, value_inj h⟩

theorem isLoopback_iff : ip.isLoopback = true ↔ ip.address.Loopback := by
  rw [isLoopback, address]
  rcases h : ip.to4 with _ | ip4
  · have hloopback : value v6loopback.bytes = 1 := by decide
    dsimp only
    rw [equal_iff_value (length_of_to4 h), hloopback]
    rfl
  · have hfirst := value_div_first (length_to4 h)
    simp only [Address.Loopback, decide_eq_true_iff]
    omega

theorem isPrivate_iff : ip.isPrivate = true ↔ ip.address.Private := by
  rw [isPrivate, address]
  rcases h : ip.to4 with _ | ip4
  · have hfirst := value_div_first (length_of_to4 h)
    simp only [Address.Private, decide_eq_true_iff, length_of_to4 h, true_and,
      land_fe (byte_lt ip.bytes 0)]
    omega
  · have hfirst := value_div_first (length_to4 h)
    have hsecond := value_div_second (length_to4 h)
    have hlt := byte_lt ip4 1
    simp only [Address.Private, decide_eq_true_iff, land_f0 hlt]
    omega

theorem isLinkLocalUnicast_iff : ip.isLinkLocalUnicast = true ↔ ip.address.LinkLocalUnicast := by
  rw [isLinkLocalUnicast, address]
  rcases h : ip.to4 with _ | ip4
  · have hsecond := value_div_second (length_of_to4 h)
    have hlt := byte_lt ip.bytes 1
    simp only [Address.LinkLocalUnicast, decide_eq_true_iff, length_of_to4 h, true_and,
      land_c0 hlt]
    omega
  · have hsecond := value_div_second (length_to4 h)
    have hlt := byte_lt ip4 1
    simp only [Address.LinkLocalUnicast, decide_eq_true_iff]
    omega

theorem isLinkLocalMulticast_iff :
    ip.isLinkLocalMulticast = true ↔ ip.address.LinkLocalMulticast := by
  rw [isLinkLocalMulticast, address]
  rcases h : ip.to4 with _ | ip4
  · have hfirst := value_div_first (length_of_to4 h)
    have hsecond := value_div_second (length_of_to4 h)
    have hlt := byte_lt ip.bytes 1
    simp only [Address.LinkLocalMulticast, decide_eq_true_iff, length_of_to4 h, true_and, land_0f]
    omega
  · have hthird := value_div_third (length_to4 h)
    have hlt := byte_lt ip4 1
    have hlt' := byte_lt ip4 2
    simp only [Address.LinkLocalMulticast, decide_eq_true_iff]
    omega

theorem isInterfaceLocalMulticast_iff :
    ip.isInterfaceLocalMulticast = true ↔ ip.address.InterfaceLocalMulticast := by
  rw [isInterfaceLocalMulticast, address]
  rcases h : ip.to4 with _ | ip4
  · have hfirst := value_div_first (length_of_to4 h)
    have hsecond := value_div_second (length_of_to4 h)
    have hlt := byte_lt ip.bytes 1
    simp only [Address.InterfaceLocalMulticast, decide_eq_true_iff, length_of_to4 h, true_and,
      land_0f]
    omega
  · -- The prefix of an IPv4 address begins with a zero.
    have hout : ¬(ip.bytes.length = 16 ∧ byte ip.bytes 0 = 0xff) := by
      rintro ⟨hlen, hff⟩
      obtain heq | heq := to4_cases h
      · rw [heq, length_to4 h] at hlen
        cases hlen
      · rw [heq] at hff
        cases hff
    simp only [Address.InterfaceLocalMulticast, decide_eq_true_iff, iff_false]
    exact fun ⟨hlen, hff, _⟩ ↦ hout ⟨hlen, hff⟩

theorem isUnspecified_iff : ip.isUnspecified = true ↔ ip.address.Unspecified := by
  rw [isUnspecified, address, Bool.or_eq_true]
  rcases h : ip.to4 with _ | ip4
  · have hlen := length_of_to4 h
    have hzero : value v6unspecified.bytes = 0 := by decide
    have hv4 : ¬ip.equal v4zero = true := fun heq ↦ by
      have hbytes := value_inj hlen ((equal_iff_value hlen).mp heq)
      rw [to4, hbytes] at h
      cases h
    rw [or_iff_right hv4, equal_iff_value hlen, hzero]
    rfl
  · have hlen := length_to4 h
    have hvalue : ip4 = [0, 0, 0, 0] ↔ value ip4 = 0 :=
      ⟨fun heq ↦ heq ▸ rfl, fun heq ↦ value_inj hlen heq⟩
    dsimp only [Address.Unspecified]
    rw [← hvalue]
    -- It is equal to one of the zeros of 16 bytes only as an IPv4 address.
    obtain heq | heq := to4_cases h <;>
      simp [equal, heq, hlen, v4zero, v6unspecified, v4InV6Prefix]

end IP
