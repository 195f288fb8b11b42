import ClassG.ForRust.Parse

/-!
# Text as bytes

A `str` is the UTF-8 of its characters, so `from_utf8_lossy` has nothing to replace in it:
`fromUtf8Lossy_asBytes`.
-/

set_option autoImplicit false

namespace RustText

/-- The bytes of a character. -/
def charBytes (c : Char) : List Byte := (String.utf8EncodeChar c).map fun b ↦ Fin.ofNat 256 b.toNat

/-- `str::as_bytes`. -/
def asBytes (s : List Char) : List Byte := s.flatMap charBytes

@[simp] theorem asBytes_nil : asBytes [] = [] := rfl

@[simp] theorem asBytes_cons (c : Char) (s : List Char) :
    asBytes (c :: s) = charBytes c ++ asBytes s :=
  List.flatMap_cons

@[simp] theorem asBytes_append (s t : List Char) : asBytes (s ++ t) = asBytes s ++ asBytes t :=
  List.flatMap_append

/-! ## One character -/

section One

variable {b c d e : Byte} {rest : List Byte}

theorem fromUtf8Lossy_one (hb : b.val < 0x80) :
    fromUtf8Lossy (b :: rest) = .ofNat b.val :: fromUtf8Lossy rest := by
  rw [fromUtf8Lossy.eq_def]
  exact if_pos hb

theorem fromUtf8Lossy_two (hb : isLead2 b) (hc : isContinuation c) :
    fromUtf8Lossy (b :: c :: rest) =
      .ofNat (b.val % 0x20 * 0x40 + c.val % 0x40) :: fromUtf8Lossy rest := by
  have hlarge : ¬b.val < 0x80 := by
    rw [isLead2, decide_eq_true_eq] at hb
    omega
  rw [fromUtf8Lossy.eq_def]
  simp only [if_neg hlarge, if_pos (And.intro hb hc)]

theorem fromUtf8Lossy_three (hb : isLead3 b c) (hd : isContinuation d) :
    fromUtf8Lossy (b :: c :: d :: rest) =
      .ofNat ((b.val % 0x10 * 0x40 + c.val % 0x40) * 0x40 + d.val % 0x40) ::
        fromUtf8Lossy rest := by
  have hlead := hb
  simp only [isLead3, isContinuation, Bool.decide_or, Bool.decide_and, Bool.or_eq_true,
    Bool.and_eq_true, decide_eq_true_eq] at hlead
  have hlarge : ¬b.val < 0x80 := by omega
  have hnot2 : ¬(isLead2 b ∧ isContinuation c) := by
    rw [isLead2, decide_eq_true_eq]
    omega
  rw [fromUtf8Lossy.eq_def]
  simp only [if_neg hlarge, if_neg hnot2, if_pos hb, if_pos hd]

theorem fromUtf8Lossy_four (hb : isLead4 b c) (hd : isContinuation d) (he : isContinuation e) :
    fromUtf8Lossy (b :: c :: d :: e :: rest) =
      .ofNat (((b.val % 0x08 * 0x40 + c.val % 0x40) * 0x40 + d.val % 0x40) * 0x40 +
        e.val % 0x40) :: fromUtf8Lossy rest := by
  have hlead := hb
  simp only [isLead4, isContinuation, Bool.decide_or, Bool.decide_and, Bool.or_eq_true,
    Bool.and_eq_true, decide_eq_true_eq] at hlead
  have hlarge : ¬b.val < 0x80 := by omega
  have hnot2 : ¬(isLead2 b ∧ isContinuation c) := by
    rw [isLead2, decide_eq_true_eq]
    omega
  have hnot3 : ¬isLead3 b c := by
    simp only [isLead3, isContinuation, Bool.decide_or, Bool.decide_and, Bool.or_eq_true,
      Bool.and_eq_true, decide_eq_true_eq]
    omega
  rw [fromUtf8Lossy.eq_def]
  simp only [if_neg hlarge, if_neg hnot2, if_neg hnot3, if_pos hb, if_pos hd, if_pos he]

end One

theorem val_ofNat_toNat {n : ℕ} (h : n < 256) :
    (Fin.ofNat 256 (UInt8.ofNat n).toNat : Byte).val = n := by
  rw [Fin.val_ofNat, UInt8.toNat_ofNat']
  omega

/-- **The bytes of a character are read as the character**, whatever follows them. -/
theorem fromUtf8Lossy_charBytes (c : Char) (rest : List Byte) :
    fromUtf8Lossy (charBytes c ++ rest) = c :: fromUtf8Lossy rest := by
  obtain ⟨v, hv⟩ : ∃ v, v = c.val.toNat := ⟨_, rfl⟩
  have hchar {n : ℕ} (h : n = v) : Char.ofNat n = c := by
    rw [h, hv]
    exact Char.ofNat_toNat c
  have hrange : v < 0xD800 ∨ 0xDFFF < v ∧ v < 0x110000 := by rw [hv]; exact c.valid
  rw [charBytes, String.utf8EncodeChar]
  simp only [← hv]
  by_cases h1 : v ≤ 0x7F
  · rw [if_pos h1, List.map_cons, List.map_nil, List.singleton_append,
      fromUtf8Lossy_one (by rw [val_ofNat_toNat (by omega)]; omega),
      val_ofNat_toNat (by omega), hchar rfl]
  rw [if_neg h1]
  by_cases h2 : v ≤ 0x7FF
  · rw [if_pos h2]
    simp only [List.map_cons, List.map_nil, List.cons_append, List.nil_append]
    rw [fromUtf8Lossy_two, val_ofNat_toNat (by omega), val_ofNat_toNat (by omega),
      hchar (by omega)]
    · rw [isLead2, decide_eq_true_eq, val_ofNat_toNat (by omega)]
      omega
    · rw [isContinuation, decide_eq_true_eq, val_ofNat_toNat (by omega)]
      omega
  rw [if_neg h2]
  by_cases h3 : v ≤ 0xFFFF
  · rw [if_pos h3]
    simp only [List.map_cons, List.map_nil, List.cons_append, List.nil_append]
    rw [fromUtf8Lossy_three, val_ofNat_toNat (by omega), val_ofNat_toNat (by omega),
      val_ofNat_toNat (by omega), hchar (by omega)]
    · simp only [isLead3, isContinuation, Bool.decide_or, Bool.decide_and, Bool.or_eq_true,
        Bool.and_eq_true, decide_eq_true_eq]
      rw [val_ofNat_toNat (by omega), val_ofNat_toNat (by omega)]
      omega
    · rw [isContinuation, decide_eq_true_eq, val_ofNat_toNat (by omega)]
      omega
  · rw [if_neg h3]
    simp only [List.map_cons, List.map_nil, List.cons_append, List.nil_append]
    rw [fromUtf8Lossy_four, val_ofNat_toNat (by omega), val_ofNat_toNat (by omega),
      val_ofNat_toNat (by omega), val_ofNat_toNat (by omega), hchar (by omega)]
    · simp only [isLead4, isContinuation, Bool.decide_or, Bool.decide_and, Bool.or_eq_true,
        Bool.and_eq_true, decide_eq_true_eq]
      rw [val_ofNat_toNat (by omega), val_ofNat_toNat (by omega)]
      omega
    · rw [isContinuation, decide_eq_true_eq, val_ofNat_toNat (by omega)]
      omega
    · rw [isContinuation, decide_eq_true_eq, val_ofNat_toNat (by omega)]
      omega

/-- **The bytes of a text are read as the text.** -/
theorem fromUtf8Lossy_asBytes (s : List Char) : fromUtf8Lossy (asBytes s) = s := by
  induction s with
  | nil => rfl
  | cons c s ih => rw [asBytes_cons, fromUtf8Lossy_charBytes, ih]

end RustText
