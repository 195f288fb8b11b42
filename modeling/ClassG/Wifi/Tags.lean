import ClassG.Wifi.Dot11

/-!
# The tagged parameters of a frame

A tagged parameter is its number, the length of its value in one byte, and the value.  `parse_tags`
walks a buffer with an offset and stops at the first one that is cut short.

* `walkTags_eq` — the walk ends, and finds what `parseTags` finds.
* `parseTags_encodeTags` — parameters that are there are found, and what is cut short is left.
* `encodeTags_parseTags` — what is found is the beginning of the buffer.
-/

set_option autoImplicit false

namespace ClassG.Wifi

open PyBytes

/-- A turn of the loop of `parse_tags`: the parameter at the offset, and the offset after it. -/
def tagAt (buf : List Byte) (offset : ℕ) : Option ((Byte × List Byte) × ℕ) :=
  match buf[offset]?, buf[offset + 1]? with
  | some tag, some length =>
    let start := offset + 2
    if buf.length < start + length.val then none
    else some ((tag, slice buf start (start + length.val)), start + length.val)
  | _, _ => none

/-- The loop of `parse_tags`, for at most so many turns. -/
def walkTags (buf : List Byte) : ℕ → ℕ → List (Byte × List Byte) → Option (List (Byte × List Byte))
  | 0, _, _ => none
  | turns + 1, offset, tags =>
    match tagAt buf offset with
    | none => some tags
    | some (tag, next) => walkTags buf turns next (tags ++ [tag])

/-- A parameter as it is written. -/
def encodeTag (t : Byte × List Byte) : List Byte := t.1 :: Fin.ofNat 256 t.2.length :: t.2

/-- Parameters, one after the other. -/
def encodeTags (tags : List (Byte × List Byte)) : List Byte := tags.flatMap encodeTag

/-! ## One parameter -/

variable {buf p rest value : List Byte} {tag length : Byte} {tags : List (Byte × List Byte)}

theorem parseTags_cut (h : rest.length < length.val) : parseTags (tag :: length :: rest) = [] := by
  rw [parseTags, if_pos h]

theorem parseTags_cons (h : value.length = length.val) (rest : List Byte) :
    parseTags (tag :: length :: (value ++ rest)) = (tag, value) :: parseTags rest := by
  rw [parseTags, if_neg (by rw [List.length_append]; omega), List.take_left' h, List.drop_left' h]

theorem val_length (h : value.length ≤ 255) : value.length = (Fin.ofNat 256 value.length).val := by
  rw [Fin.val_ofNat, Nat.mod_eq_of_lt (by omega)]

/-- A buffer begins with a parameter, or nothing is found in it. -/
theorem parseTags_elim (buf : List Byte) :
    parseTags buf = [] ∨ ∃ tag length value rest, value.length = length.val ∧
      buf = tag :: length :: (value ++ rest) := by
  match buf with
  | [] => exact .inl (by rw [parseTags]; simp)
  | [_] => exact .inl (by rw [parseTags]; simp)
  | tag :: length :: rest =>
    by_cases hcut : rest.length < length.val
    · exact .inl (parseTags_cut hcut)
    · refine .inr ⟨tag, length, rest.take length.val, rest.drop length.val, ?_, ?_⟩
      · rw [List.length_take]
        omega
      · rw [List.take_append_drop]

/-- A parameter that is cut short is not found. -/
theorem parseTags_prefix {t : Byte × List Byte} (ht : t.2.length ≤ 255) (hp : p <+: encodeTag t)
    (hne : p ≠ encodeTag t) : parseTags p = [] := by
  rcases parseTags_elim p with hnil | ⟨tag, length, value, rest, hvalue, rfl⟩
  · exact hnil
  obtain ⟨s, hs⟩ := hp
  rw [encodeTag, List.cons_append, List.cons_append, List.cons.injEq, List.cons.injEq] at hs
  obtain ⟨rfl, rfl, hs⟩ := hs
  rw [← val_length ht] at hvalue
  have hlen := congrArg List.length hs
  rw [List.length_append, List.length_append] at hlen
  obtain rfl : rest = [] := List.eq_nil_of_length_eq_zero (by omega)
  obtain rfl : s = [] := List.eq_nil_of_length_eq_zero (by omega)
  refine absurd ?_ hne
  rw [encodeTag, ← hs, List.append_nil]

/-! ## Buffers -/

/-- **Parameters that are there are found**, in their order, and one that is cut short is left. -/
theorem parseTags_encodeTags {last : Byte × List Byte} (h : ∀ t ∈ tags, t.2.length ≤ 255)
    (hlast : last.2.length ≤ 255) (hp : p <+: encodeTag last) (hne : p ≠ encodeTag last) :
    parseTags (encodeTags tags ++ p) = tags := by
  induction tags with
  | nil => exact parseTags_prefix hlast hp hne
  | cons t tags ih =>
    obtain ⟨ht, h⟩ := List.forall_mem_cons.mp h
    rw [encodeTags, List.flatMap_cons, ← encodeTags, List.append_assoc, encodeTag,
      List.cons_append, List.cons_append, parseTags_cons (val_length ht), ih h]

/-- **What is found is the beginning of the buffer.** -/
theorem encodeTags_parseTags (buf : List Byte) : encodeTags (parseTags buf) <+: buf := by
  induction hn : buf.length using Nat.strong_induction_on generalizing buf with
  | _ n ih =>
    rcases parseTags_elim buf with hnil | ⟨tag, length, value, rest, hvalue, rfl⟩
    · rw [hnil]
      exact List.nil_prefix
    · have hlen : Fin.ofNat 256 value.length = length := by
        rw [hvalue]
        exact Fin.ofNat_val_eq_self length
      rw [parseTags_cons hvalue, encodeTags, List.flatMap_cons, ← encodeTags, encodeTag, hlen,
        List.cons_append, List.cons_append, List.prefix_cons_inj, List.prefix_cons_inj,
        List.prefix_append_right_inj]
      refine ih rest.length ?_ rest rfl
      rw [← hn, List.length_cons, List.length_cons, List.length_append]
      omega

/-- Each parameter that is found is a piece of the buffer. -/
theorem encodeTag_isInfix {t : Byte × List Byte} (h : t ∈ parseTags buf) : encodeTag t <:+: buf := by
  obtain ⟨before, after, hsplit⟩ := List.append_of_mem h
  have hprefix := encodeTags_parseTags buf
  rw [hsplit, encodeTags, List.flatMap_append, List.flatMap_cons] at hprefix
  exact (List.infix_append' _ _ _).trans hprefix.isInfix

/-! ## The walk -/

/-- What a turn of the walk finds is what the rest of the buffer begins with. -/
theorem tagAt_eq (buf : List Byte) (offset : ℕ) :
    (∃ t next, tagAt buf offset = some (t, next) ∧ offset + 2 ≤ next ∧ next ≤ buf.length ∧
      parseTags (buf.drop offset) = t :: parseTags (buf.drop next)) ∨
    tagAt buf offset = none ∧ parseTags (buf.drop offset) = [] := by
  have hitem (i : ℕ) : buf[offset + i]? = (buf.drop offset)[i]? := by rw [List.getElem?_drop]
  have hzero : buf[offset]? = (buf.drop offset)[0]? := hitem 0
  have hlen : (buf.drop offset).length = buf.length - offset := List.length_drop
  rw [tagAt, hzero, hitem 1]
  match hdrop : buf.drop offset with
  | [] => exact .inr ⟨rfl, by rw [parseTags]; simp⟩
  | [_] => exact .inr ⟨rfl, by rw [parseTags]; simp⟩
  | tag :: length :: rest =>
    rw [hdrop, List.length_cons, List.length_cons] at hlen
    have hrest : rest = buf.drop (offset + 2) := by rw [← List.drop_drop, hdrop]; rfl
    dsimp only [List.getElem?_cons_zero, List.getElem?_cons_succ]
    by_cases hcut : rest.length < length.val
    · rw [if_pos (by omega)]
      exact .inr ⟨rfl, parseTags_cut hcut⟩
    · rw [if_neg (by omega)]
      refine .inl ⟨_, _, rfl, by omega, by omega, ?_⟩
      rw [parseTags, if_neg hcut, hrest, List.drop_drop, slice, List.drop_take,
        Nat.add_sub_cancel_left]

/-- The walk from an offset on: each turn takes two bytes or more. -/
theorem walkTags_from {turns offset : ℕ} (hoffset : offset ≤ buf.length)
    (h : buf.length < offset + 2 * turns) :
    walkTags buf turns offset tags = some (tags ++ parseTags (buf.drop offset)) := by
  induction turns generalizing offset tags with
  | zero => omega
  | succ turns ih =>
    rcases tagAt_eq buf offset with ⟨t, next, hat, hnext, hle, hparse⟩ | ⟨hat, hparse⟩
    · rw [walkTags, hat, hparse]
      dsimp only
      rw [ih hle (by omega), List.append_assoc, List.singleton_append]
    · rw [walkTags, hat, hparse, List.append_nil]

/-- **The walk ends on every buffer**, after no more turns than half of its bytes and one. -/
theorem walkTags_eq (buf : List Byte) {turns : ℕ} (h : buf.length / 2 + 1 ≤ turns) :
    walkTags buf turns 0 [] = some (parseTags buf) :=
  walkTags_from (Nat.zero_le _) (by omega)

/-- **Parsing undoes encoding and survives truncation.**  Of parameters that are followed by the
beginning of another, exactly the whole ones are found, in their order.  On every buffer the walk
ends, and each parameter that it finds is a piece of the buffer. -/
theorem parse_tags_undoes_encoding :
    (∀ (tags : List (Byte × List Byte)) (last : Byte × List Byte) (p : List Byte),
      (∀ t ∈ tags, t.2.length ≤ 255) → last.2.length ≤ 255 → p <+: encodeTag last →
        p ≠ encodeTag last → parseTags (encodeTags tags ++ p) = tags) ∧
    ∀ buf : List Byte, walkTags buf (buf.length / 2 + 1) 0 [] = some (parseTags buf) ∧
      ∀ t ∈ parseTags buf, encodeTag t <:+: buf ∧ t.2 <:+: buf := by
  refine ⟨fun tags last p h hlast hp hne ↦ parseTags_encodeTags h hlast hp hne, fun buf ↦
    ⟨walkTags_eq buf le_rfl, fun t ht ↦ ⟨encodeTag_isInfix ht, ?_⟩⟩⟩
  exact List.IsSuffix.isInfix ⟨[t.1, Fin.ofNat 256 t.2.length], rfl⟩ |>.trans (encodeTag_isInfix ht)

/-- An element that is cut in its value, after one that is empty. -/
theorem truncated_beacon_found : parseTags (encodeTags [(0, []), (3, [6])] ++ [221, 4, 0xFA]) =
    [(0, []), (3, [6])] :=
  parse_tags_undoes_encoding.1 [(0, []), (3, [6])] (221, [0xFA, 0x0B, 0xBC, 0x0D])
    [221, 4, 0xFA] (by decide) (by decide) (by decide) (by decide)

end ClassG.Wifi
