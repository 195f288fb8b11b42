import Mathlib.Data.String.Basic
import ClassG.Ulid.Encoders

/-!
# The encoders agree

Each encoder writes the 26 digits in base 32 of one number of 128 bits, `written_eq`.  Everything
else is said of the digits: that they can be read back, and that they compare as the times do.
-/

set_option autoImplicit false

namespace ClassG.Ulid

open FixedWidth

/-! ## The alphabet -/

/-- What the encoders write: 26 digits of the time and the random bits. -/
def written (t e : ℕ) : String := .ofList ((digits 32 26 (t * 2 ^ 80 + e)).map char)

theorem char_mem (d : ℕ) : char d ∈ crockford := by
  rw [char, List.getD_eq_getElem?_getD]
  cases h : crockford[d]? with
  | none => decide
  | some c => exact List.mem_of_getElem? h

theorem idxOf_char {d : ℕ} (h : d < 32) : crockford.idxOf (char d) = d := by
  revert d
  decide

theorem char_lt {c d : ℕ} (hcd : c < d) (hd : d < 32) : char c < char d := by
  have h : ∀ d < 32, ∀ c < d, char c < char d := by decide
  exact h d hd c hcd

theorem map_char_lt {l m : List ℕ} (hl : ∀ d ∈ l, d < 32) (hm : ∀ d ∈ m, d < 32) (h : l < m) :
    l.map char < m.map char := by
  induction l generalizing m with
  | nil =>
    cases m with
    | nil => exact absurd h (lt_irrefl _)
    | cons d m => exact List.nil_lt_cons _ _
  | cons c l ih =>
    cases m with
    | nil => exact absurd h (List.not_lt_nil _)
    | cons d m =>
      rw [List.forall_mem_cons] at hl hm
      rw [List.map_cons, List.map_cons, List.cons_lt_cons_iff]
      rcases List.cons_lt_cons_iff.mp h with hlt | ⟨rfl, hlt⟩
      · exact .inl (char_lt hlt hm.1)
      · exact .inr ⟨rfl, ih hl.2 hm.2 hlt⟩

/-- The bits that are masked off are a digit. -/
theorem shift_and (v k : ℕ) : v >>> k &&& 0x1f = v / 2 ^ k % 32 := by
  rw [Nat.shiftRight_eq_div_pow]
  exact Nat.and_two_pow_sub_one_eq_mod _ 5

theorem and_eq_mod (v : ℕ) : v &&& 0x1f = v % 32 := Nat.and_two_pow_sub_one_eq_mod v 5

theorem shift_eq_div (v : ℕ) : v >>> 5 = v / 32 := Nat.shiftRight_eq_div_pow v 5

/-- The time and the random bits can be written one after the other. -/
theorem written_eq_append {t e : ℕ} (he : e < 2 ^ 80) :
    written t e = .ofList ((digits 32 10 t).map char ++ (digits 32 16 e).map char) := by
  have hpow : (32 : ℕ) ^ 16 = 2 ^ 80 := by norm_num
  have hdiv : (t * 2 ^ 80 + e) / 32 ^ 16 = t := by
    rw [hpow, Nat.mul_comm, Nat.mul_add_div (by positivity), Nat.div_eq_of_lt he, Nat.add_zero]
  have hmod : (t * 2 ^ 80 + e) % 32 ^ 16 = e := by
    rw [hpow, Nat.mul_comm, Nat.mul_add_mod, Nat.mod_eq_of_lt he]
  rw [written, digits_add 10 16, hdiv, ← digits_mod 16 (t * 2 ^ 80 + e), hmod, List.map_append]

/-! ## In Go -/

theorem writeTime_eq (n ms : ℕ) (id : List Char) :
    writeTime n ms id = (digits 32 n ms).map char ++ id := by
  induction n generalizing ms id with
  | zero => rfl
  | succ n ih => rw [writeTime, ih, digits_succ, and_eq_mod, shift_eq_div, List.map_append,
      List.append_assoc, List.map_singleton, List.singleton_append]

/-- What is left over, a word forgets beyond 64 bits and the digits never ask for. -/
theorem shift_mod (v : ℕ) {k : ℕ} (hk : k + 5 ≤ 64) :
    v % 2 ^ 64 / 2 ^ k % 32 = v / 2 ^ k % 32 := by
  have hdvd : 2 ^ k * 32 ∣ 2 ^ 64 := by
    have hpow : 2 ^ k * 32 = 2 ^ (k + 5) := by rw [pow_add]; rfl
    rw [hpow]
    exact pow_dvd_pow 2 hk
  rw [← Nat.mod_mul_right_div_self, Nat.mod_mod_of_dvd _ hdvd, Nat.mod_mul_right_div_self]

/-- The inner loop: the characters there are bits for. -/
theorem writeBits_eq (v : ℕ) (time : List Char) {n bits : ℕ} (hbits : bits ≤ 64)
    (hroom : time.length + n + bits / 5 ≤ 26) :
    writeBits (v % 2 ^ 64) bits (time ++ (digits 32 n (v / 2 ^ bits)).map char) =
      (bits % 5, time ++ (digits 32 (n + bits / 5) (v / 2 ^ (bits % 5))).map char) := by
  induction h : bits / 5 generalizing n bits with
  | zero =>
    have hlt : bits < 5 := by omega
    rw [writeBits, if_neg fun hgo ↦ absurd hgo.1 (by omega), Nat.mod_eq_of_lt hlt, Nat.add_zero]
  | succ k ih =>
    have hge : 5 ≤ bits := by omega
    have hlen : (time ++ (digits 32 n (v / 2 ^ bits)).map char).length < 26 := by
      rw [List.length_append, List.length_map, length_digits]
      omega
    have hnext : v / 2 ^ bits = v / 2 ^ (bits - 5) / 32 := by
      rw [Nat.div_div_eq_div_mul, show (32 : ℕ) = 2 ^ 5 from rfl, ← pow_add, Nat.sub_add_cancel hge]
    rw [writeBits, if_pos ⟨hge, hlen⟩, shift_and, shift_mod v (by omega), hnext, List.append_assoc,
      ← List.map_singleton, ← List.map_append, ← digits_succ, ih (by omega) (by omega) (by omega),
      show (bits - 5) % 5 = bits % 5 by omega, show n + 1 + k = n + (k + 1) by omega]

/-- The number of bytes read one more. -/
theorem fromBytes_append (bs : List Byte) (b : Byte) :
    fromBytes (bs ++ [b]) = fromBytes bs * 256 + b.val := by
  simp [fromBytes, ofDigits]

/-- **The outer loop**: the characters that the bytes so far have bits for, and the bits that are
left over. -/
theorem foldl_add {time : List Char} (bs : List Byte)
    (hroom : time.length + bs.length * 8 / 5 ≤ 26) :
    bs.foldl Packing.add { id := time } = ⟨fromBytes bs % 2 ^ 64, bs.length * 8 % 5,
      time ++ (digits 32 (bs.length * 8 / 5) (fromBytes bs / 2 ^ (bs.length * 8 % 5))).map char⟩ := by
  induction bs using List.reverseRecOn with
  | nil => simp [fromBytes, ofDigits, digits]
  | append_singleton bs b ih =>
    rw [List.length_append, List.length_singleton] at hroom ⊢
    have hword : ((fromBytes bs % 2 ^ 64) <<< 8 ||| b.val) % 2 ^ 64 =
        fromBytes (bs ++ [b]) % 2 ^ 64 := by
      rw [← Nat.shiftLeft_add_eq_or_of_lt (show b.val < 2 ^ 8 from b.isLt), Nat.shiftLeft_eq,
        fromBytes_append]
      omega
    have hmore : fromBytes bs / 2 ^ (bs.length * 8 % 5) =
        fromBytes (bs ++ [b]) / 2 ^ (bs.length * 8 % 5 + 8) := by
      rw [Nat.add_comm _ 8, pow_add, ← Nat.div_div_eq_div_mul, fromBytes_append,
        show (2 : ℕ) ^ 8 = 256 from rfl]
      congr 1
      omega
    rw [List.foldl_append, ih (by omega), List.foldl_cons, List.foldl_nil, Packing.add]
    simp only
    rw [hword, hmore, writeBits_eq _ _ (by omega) (by omega)]
    simp only [Packing.mk.injEq, true_and]
    have hleft : (bs.length * 8 % 5 + 8) % 5 = (bs.length + 1) * 8 % 5 := by omega
    have hcount : bs.length * 8 / 5 + (bs.length * 8 % 5 + 8) / 5 = (bs.length + 1) * 8 / 5 := by
      omega
    rw [hleft, hcount]
    exact ⟨rfl, rfl⟩

theorem Entropy.value_lt (e : Entropy) : e.value < 2 ^ 80 := by
  have h : ∀ bs : List Byte, fromBytes bs < 256 ^ bs.length := by
    intro bs
    induction bs using List.reverseRecOn with
    | nil => simp [fromBytes, ofDigits]
    | append_singleton bs b ih =>
      rw [fromBytes_append, List.length_append, List.length_singleton, pow_succ]
      have hb := b.isLt
      omega
  have hlen := h e.bytes
  rw [e.length] at hlen
  exact hlen.trans_eq (by norm_num)

theorem encodeGo_eq (ms : ℕ) (e : Entropy) (fill : Char) :
    encodeGo ms (some e) fill = written ms e.value := by
  have htime : writeTime 10 ms [] = (digits 32 10 ms).map char := by
    rw [writeTime_eq, List.append_nil]
  have hroom : ((digits 32 10 ms).map char).length + e.bytes.length * 8 / 5 ≤ 26 := by
    rw [List.length_map, length_digits, e.length]
  have hfold := foldl_add e.bytes hroom
  rw [e.length] at hfold
  rw [encodeGo, htime, written_eq_append e.value_lt]
  simp only [hfold, List.length_append, List.length_map, length_digits]
  rw [List.replicate_zero, List.append_nil, Nat.pow_zero, Nat.div_one]
  rfl

theorem new_eq {t : ℤ} (ht : 0 ≤ t) (e : Entropy) : new t (some e) = written t.toNat e.value := by
  rw [new, if_neg (not_lt.mpr ht), encodeGo_eq]

theorem newULID_eq {t : ℤ} (ht : 0 ≤ t) (hlt : t < 2 ^ 48) (e : Entropy) :
    newULID t (some e) = written t.toNat e.value := by
  have hword : t % 2 ^ 64 = t := Int.emod_eq_of_lt ht (by omega)
  rw [newULID, hword, encodeGo_eq]

/-- Every 80 bits are some bytes. -/
theorem exists_entropy {v : ℕ} (h : v < 2 ^ 80) : ∃ e : Entropy, e.value = v := by
  refine ⟨⟨(digits 256 10 v).map (Fin.ofNat 256), by simp⟩, ?_⟩
  have hbytes : ((digits 256 10 v).map (Fin.ofNat 256)).map Fin.val = digits 256 10 v := by
    rw [List.map_map]
    refine (List.map_congr_left fun d hd ↦ ?_).trans (List.map_id _)
    exact Nat.mod_eq_of_lt (lt_of_mem_digits (by norm_num) hd)
  rw [Entropy.value, fromBytes, hbytes, ofDigits_digits, Nat.mod_eq_of_lt]
  exact h.trans_eq (by norm_num)

/-! ## In Rust -/

theorem map_range_shift (n v : ℕ) :
    ((List.range n).map fun i ↦ v >>> (5 * (n - 1 - i)) &&& 0x1F) = digits 32 n v := by
  induction n with
  | zero => rfl
  | succ n ih =>
    rw [List.range_succ_eq_map, List.map_cons, List.map_map, digits, ← ih, shift_and,
      Nat.pow_mul]
    congr 1
    refine List.map_congr_left fun i _ ↦ ?_
    rw [Function.comp_apply, show n + 1 - 1 - i.succ = n - 1 - i by omega]

theorem encode_eq {t : ℤ} (ht : 0 ≤ t) (hlt : t < 2 ^ 48) {e : ℕ} (he : e < 2 ^ 80) :
    UlidFactory.encode t e = written t.toNat e := by
  have hms : (max t 0).toNat &&& 0xFFFFFFFFFFFF = t.toNat := by
    rw [max_eq_left ht, Nat.and_two_pow_sub_one_eq_mod _ 48, Nat.mod_eq_of_lt (by omega)]
  have hchars : ∀ n v, ((List.range n).map fun i ↦ char (v >>> (5 * (n - 1) - 5 * i) &&& 0x1F)) =
      (digits 32 n v).map char := by
    intro n v
    rw [← map_range_shift, List.map_map]
    refine List.map_congr_left fun i _ ↦ ?_
    rw [Function.comp_apply, show 5 * (n - 1) - 5 * i = 5 * (n - 1 - i) by omega]
  rw [UlidFactory.encode, hms, written_eq_append he]
  exact congrArg String.ofList (congrArg₂ List.append (hchars 10 _) (hchars 16 _))

/-- What `mint` draws is 80 bits. -/
theorem UlidFactory.rand_lt (f : UlidFactory) : f.rand.1 < 2 ^ 80 := by
  have ha := f.nextU64.1.toNat_lt
  rw [UlidFactory.rand]
  dsimp only
  rw [Nat.and_two_pow_sub_one_eq_mod _ 16,
    ← Nat.shiftLeft_add_eq_or_of_lt (Nat.mod_lt _ (by positivity)), Nat.shiftLeft_eq]
  have hb := Nat.mod_lt f.nextU64.2.nextU64.1.toNat (y := 2 ^ 16) (by positivity)
  omega

/-- What `mint` returns is the text of what it draws. -/
theorem UlidFactory.mint_eq (f : UlidFactory) {t : ℤ} (ht : 0 ≤ t) (hlt : t < 2 ^ 48) :
    (f.mint t).1 = written t.toNat f.rand.1 := encode_eq ht hlt f.rand_lt

/-! ## In Python -/

theorem lastFirst_reverse (n v : ℕ) : (lastFirst n v).reverse = (digits 32 n v).map char := by
  induction n generalizing v with
  | zero => rfl
  | succ n ih => rw [lastFirst, List.reverse_cons, ih, digits_succ, and_eq_mod, shift_eq_div,
      List.map_append, List.map_singleton]

theorem ulid_eq {t : ℤ} (ht : 0 ≤ t) (e : Entropy) : ulid e.bytes t = written t.toNat e.value := by
  have hbytes : e.bytes.take 10 = e.bytes := List.take_of_length_le e.length.le
  rw [ulid, hbytes, e.length, Nat.sub_self, List.replicate_zero, List.append_nil, max_eq_left ht]
  change String.ofList (lastFirst 26 (t.toNat <<< 80 ||| e.value)).reverse = _
  rw [lastFirst_reverse, ← Nat.shiftLeft_add_eq_or_of_lt e.value_lt, Nat.shiftLeft_eq, written]

/-! ## All of them -/

/-- **Every encoder writes the same.** -/
theorem written_eq (x : Encoder) {t : ℤ} (ht : 0 ≤ t) (hlt : t < 2 ^ 48) (e : Entropy) :
    x.encode t e = written t.toNat e.value := by
  cases x with
  | api => exact new_eq ht e
  | fusion => exact newULID_eq ht hlt e
  | sensorSdr => exact encode_eq ht hlt e.value_lt
  | sensorWifi => exact ulid_eq ht e

/-- What is written can be read. -/
theorem decode_written {t e : ℕ} (ht : t < 2 ^ 48) (he : e < 2 ^ 80) :
    decode (written t e) = some (t, e) := by
  have hall : (written t e).toList.all (· ∈ crockford) := by
    rw [written, String.toList_ofList, List.all_map, List.all_eq_true]
    exact fun d _ ↦ decide_eq_true (char_mem d)
  have hdigits : (written t e).toList.map (fun c ↦ crockford.idxOf c) =
      digits 32 26 (t * 2 ^ 80 + e) := by
    rw [written, String.toList_ofList, List.map_map]
    refine (List.map_congr_left fun d hd ↦ ?_).trans (List.map_id _)
    exact idxOf_char (lt_of_mem_digits (by norm_num) hd)
  have hlt : t * 2 ^ 80 + e < 32 ^ 26 := by
    have hpow : (32 : ℕ) ^ 26 = 2 ^ 130 := by norm_num
    rw [hpow]
    omega
  rw [decode, if_pos hall]
  simp only [hdigits, ofDigits_digits, Nat.mod_eq_of_lt hlt]
  congr 2 <;> omega

/-- What is written at an earlier time comes first. -/
theorem written_lt {t u e f : ℕ} (htu : t < u) (hu : u < 2 ^ 48) (he : e < 2 ^ 80)
    (hf : f < 2 ^ 80) : written t e < written u f := by
  have hpow : (32 : ℕ) ^ 26 = 2 ^ 130 := by norm_num
  rw [String.lt_iff_toList_lt, written, written, String.toList_ofList, String.toList_ofList]
  refine map_char_lt (fun d ↦ lt_of_mem_digits (by norm_num))
    (fun d ↦ lt_of_mem_digits (by norm_num)) (digits_lt_digits (by norm_num) ?_)
  rw [hpow, Nat.mod_eq_of_lt (by omega), Nat.mod_eq_of_lt (by omega)]
  omega

/-- **The encoders agree and sort by time.**  At any time of 48 bits and for any random bits they
write the same 26 characters of the alphabet, from which both can be read; and what one of them
writes comes before what another writes at a later time. -/
theorem encoders_agree {t : ℤ} (ht : 0 ≤ t) (hlt : t < 2 ^ 48) (e : Entropy) (x : Encoder) :
    (∀ y : Encoder, x.encode t e = y.encode t e) ∧
      (x.encode t e).length = 26 ∧ (∀ c ∈ (x.encode t e).toList, c ∈ crockford) ∧
      decode (x.encode t e) = some (t.toNat, e.value) ∧
      ∀ (u : ℤ) (f : Entropy) (y : Encoder), t < u → u < 2 ^ 48 →
        x.encode t e < y.encode u f := by
  refine ⟨fun y ↦ ?_, ?_, ?_, ?_, fun u f y htu hu ↦ ?_⟩
  · rw [written_eq x ht hlt, written_eq y ht hlt]
  · rw [written_eq x ht hlt, written, String.length_ofList, List.length_map, length_digits]
  · rw [written_eq x ht hlt, written, String.toList_ofList]
    intro c hc
    obtain ⟨d, -, rfl⟩ := List.mem_map.mp hc
    exact char_mem d
  · rw [written_eq x ht hlt, decode_written (by omega) e.value_lt]
  · rw [written_eq x ht hlt, written_eq y (ht.trans htu.le) hu]
    exact written_lt (by omega) (by omega) e.value_lt f.value_lt

/-- The time of the test in `ulid.rs`, and some bytes. -/
theorem encoders_agree_sample :
    Encoder.fusion.encode 1786458191482 ⟨[1, 2, 3, 4, 5, 250, 251, 252, 253, 254], rfl⟩ =
      Encoder.sensorWifi.encode 1786458191482 ⟨[1, 2, 3, 4, 5, 250, 251, 252, 253, 254], rfl⟩ :=
  (encoders_agree (by decide) (by decide) _ .fusion).1 .sensorWifi

end ClassG.Ulid
