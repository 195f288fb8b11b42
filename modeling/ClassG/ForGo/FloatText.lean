import ClassG.ForGo.Strconv

/-!
# Numbers in one text

`strconv.ParseFloat` takes no text in which there is anything but letters, digits, signs, points and
underscores (`numeric_of_parseFloat`).  Numbers with commas or white space between them can
therefore be told apart, however they are written.

* `FloatFormat`: two ways in which Go writes a number.  That they can be read back is not proved
  here, it is the property `RoundTrips` of a number.
* `fields_intercalate`, `split_intercalate`: texts that are put together, taken apart again.
-/

set_option autoImplicit false

namespace GoStrconv

/-- A letter, a digit, a sign, a point or an underscore. -/
def isNumberChar (c : Char) : Bool :=
  isDigit c || ('a' ≤ lower c && lower c ≤ 'z') || ['+', '-', '.', '_'].contains c

/-- A text of nothing else. -/
def Numeric (s : List Char) : Prop := ∀ c ∈ s, isNumberChar c = true

variable {c : Char} {s t : List Char}

theorem isNumberChar_of_isDigit (h : isDigit c = true) : isNumberChar c = true := by
  simp [isNumberChar, h]

theorem isNumberChar_of_lower (h : 'a' ≤ lower c ∧ lower c ≤ 'z') : isNumberChar c = true := by
  simp [isNumberChar, h]

theorem isNumberChar_of_isHexDigit (h : isHexDigit c = true) : isNumberChar c = true := by
  rw [isHexDigit, Bool.or_eq_true, Bool.and_eq_true, decide_eq_true_eq, decide_eq_true_eq] at h
  rcases h with hdigit | ⟨ha, hf⟩
  · exact isNumberChar_of_isDigit hdigit
  · exact isNumberChar_of_lower ⟨ha, Char.le_trans hf (by decide)⟩

/-- A small letter is its own, and so is what is no letter. -/
theorem toNat_lower (c : Char) : (lower c).toNat = c.toNat ∨
    65 ≤ c.toNat ∧ c.toNat ≤ 90 := by
  rw [lower]
  split
  · rename_i h
    exact .inr h
  · exact .inl rfl

/-- The codes of these characters. -/
theorem toNat_of_isNumberChar (h : isNumberChar c = true) :
    43 ≤ c.toNat ∧ c.toNat ≤ 122 ∧ c.toNat ≠ 44 := by
  simp only [isNumberChar, isDigit, Bool.or_eq_true, Bool.and_eq_true, decide_eq_true_eq,
    List.contains_eq_mem, List.mem_cons, List.not_mem_nil, or_false] at h
  rcases h with (⟨h0, h9⟩ | ⟨ha, hz⟩) | hsign
  · change 48 ≤ c.toNat at h0
    change c.toNat ≤ 57 at h9
    omega
  · change 97 ≤ (lower c).toNat at ha
    change (lower c).toNat ≤ 122 at hz
    rcases toNat_lower c with heq | hletter <;> omega
  · rcases hsign with rfl | rfl | rfl | rfl <;> decide

/-- **None of them stands between numbers.** -/
theorem separator_of_isNumberChar (h : isNumberChar c = true) :
    c ≠ ',' ∧ GoString.isSpace c = false := by
  obtain ⟨hmin, hmax, hcomma⟩ := toNat_of_isNumberChar h
  constructor
  · rintro rfl
    exact hcomma rfl
  · simp only [GoString.isSpace, List.mem_cons, List.not_mem_nil, or_false, decide_eq_false_iff_not]
    omega

/-! ## The parts of a number -/

theorem numeric_cons : Numeric (c :: s) ↔ isNumberChar c = true ∧ Numeric s := List.forall_mem_cons

theorem numeric_append : Numeric (s ++ t) ↔ Numeric s ∧ Numeric t := List.forall_mem_append

theorem numeric_nil : Numeric [] := List.forall_mem_nil _

theorem numeric_of_takeSign (h : Numeric (takeSign s).2) : Numeric s := by
  unfold takeSign at h
  split at h
  · exact numeric_cons.mpr ⟨by decide, h⟩
  · exact numeric_cons.mpr ⟨by decide, h⟩
  · exact h

theorem numeric_of_span {digit : Char → Bool} (hdigit : ∀ c, digit c = true → isNumberChar c = true)
    (h : Numeric (s.span digit).2) : Numeric s := by
  rw [List.span_eq_takeWhile_dropWhile] at h
  rw [← List.takeWhile_append_dropWhile (p := digit) (l := s)]
  exact numeric_append.mpr
    ⟨fun c hc ↦ hdigit c (List.all_eq_true.mp List.all_takeWhile c hc), h⟩

theorem numeric_of_takeMantissa {digit : Char → Bool}
    (hdigit : ∀ c, digit c = true → isNumberChar c = true)
    (h : Numeric (takeMantissa digit s).2.2) : Numeric s := by
  refine numeric_of_span hdigit ?_
  rw [takeMantissa] at h
  rcases hspan : s.span digit with ⟨whole, rest⟩
  simp only [hspan] at h ⊢
  split at h
  · exact numeric_cons.mpr ⟨by decide, numeric_of_span hdigit h⟩
  · exact h

theorem numeric_of_readExponent {e : ℤ} (h : readExponent s = some e) : Numeric s := by
  refine numeric_of_takeSign fun c hc ↦ isNumberChar_of_isDigit ?_
  by_cases hdigits : (takeSign s).2 ≠ [] ∧ (takeSign s).2.all isDigit
  · exact List.all_eq_true.mp hdigits.2 c hc
  · simp only [readExponent, if_neg hdigits] at h
    exact absurd h (by simp)

theorem numeric_of_readHex {q : ℚ} (h : readHex s = some q) : Numeric s := by
  refine numeric_of_takeMantissa (fun c ↦ isNumberChar_of_isHexDigit) ?_
  rw [readHex] at h
  rcases htake : takeMantissa isHexDigit s with ⟨whole, fraction, rest⟩
  simp only [htake] at h ⊢
  rcases rest with _ | ⟨p, rest⟩
  · exact numeric_nil
  · by_cases hp : whole ++ fraction ≠ [] ∧ lower p = 'p'
    · simp only [if_pos hp] at h
      obtain ⟨e, he, -⟩ := Option.map_eq_some_iff.mp h
      exact numeric_cons.mpr ⟨isNumberChar_of_lower (hp.2 ▸ by decide), numeric_of_readExponent he⟩
    · simp only [if_neg hp] at h
      exact absurd h (by simp)

theorem numeric_of_readDecimal {q : ℚ} (h : readDecimal s = some q) : Numeric s := by
  refine numeric_of_takeMantissa (fun c ↦ isNumberChar_of_isDigit) ?_
  rw [readDecimal] at h
  rcases htake : takeMantissa isDigit s with ⟨whole, fraction, rest⟩
  simp only [htake] at h ⊢
  rcases rest with _ | ⟨e, rest⟩
  · exact numeric_nil
  · by_cases hdigits : whole ++ fraction = []
    · simp only [if_pos hdigits] at h
      exact absurd h (by simp)
    · by_cases he : lower e = 'e'
      · simp only [if_neg hdigits, if_pos he] at h
        obtain ⟨n, hn, -⟩ := Option.map_eq_some_iff.mp h
        exact numeric_cons.mpr ⟨isNumberChar_of_lower (he ▸ by decide), numeric_of_readExponent hn⟩
      · simp only [if_neg hdigits, if_neg he] at h
        exact absurd h (by simp)

theorem numeric_of_readFloat {q : ℚ} (h : readFloat s = some q) : Numeric s := by
  have hrest : Numeric (s.filter (· ≠ '_')) := by
    rw [readFloat] at h
    split at h
    · exact absurd h (by simp)
    · split at h
      · rename_i x rest heq
        rw [heq]
        split at h
        · rename_i hx
          exact numeric_cons.mpr ⟨by decide, numeric_cons.mpr
            ⟨isNumberChar_of_lower (hx ▸ by decide), numeric_of_readHex h⟩⟩
        · exact numeric_of_readDecimal h
      · exact numeric_of_readDecimal h
  intro c hc
  by_cases hunder : c = '_'
  · rw [hunder]
    decide
  · exact hrest c (List.mem_filter.mpr ⟨hc, by simpa using hunder⟩)

/-- A word that is read without regard to its capitals. -/
theorem numeric_of_word {word : String}
    (hword : (word.toList.all fun c ↦ 'a' ≤ c && c ≤ 'z') = true)
    (h : String.ofList (s.map lower) = word) : Numeric s := by
  intro c hc
  have hmem : lower c ∈ word.toList := by
    rw [← h, String.toList_ofList]
    exact List.mem_map_of_mem hc
  exact isNumberChar_of_lower (by simpa using List.all_eq_true.mp hword _ hmem)

/-- **What is read as a number** has only such characters. -/
theorem numeric_of_parseFloat {s : String} {x : Double} (h : parseFloat s = some x) :
    Numeric s.toList := by
  rw [parseFloat] at h
  rcases hsign : takeSign s.toList with ⟨neg, t⟩
  have hrest (ht : Numeric t) : Numeric s.toList := numeric_of_takeSign (hsign ▸ ht)
  simp only [hsign] at h
  split at h
  · rename_i hinf
    rcases hinf with hinf | hinf
    · exact hrest (numeric_of_word (by decide) hinf)
    · exact hrest (numeric_of_word (by decide) hinf)
  · split at h
    · rename_i hnan
      exact numeric_of_word (by decide) hnan
    · rcases hread : readFloat t with _ | q
      · simp only [hread] at h
        exact absurd h (by simp)
      · exact hrest (numeric_of_readFloat hread)

/-! ## Writing -/

/-- How numbers are written. -/
structure FloatFormat where
  /-- `strconv.FormatFloat(v, 'f', -1, 64)`. -/
  f : ℚ → String
  /-- `fmt.Sprintf("%g", v)`. -/
  g : ℚ → String

/-- What is written of a number is read as the number. -/
structure FloatFormat.RoundTrips (fmt : FloatFormat) (v : ℚ) : Prop where
  f : parseFloat (fmt.f v) = some (.fin v)
  g : parseFloat (fmt.g v) = some (.fin v)

theorem parseFloat_empty : parseFloat "" = none := by decide

theorem FloatFormat.RoundTrips.f_ne_empty {fmt : FloatFormat} {v : ℚ} (h : fmt.RoundTrips v) :
    fmt.f v ≠ "" := by
  intro hempty
  have hf := h.f
  rw [hempty, parseFloat_empty] at hf
  exact absurd hf (by simp)

end GoStrconv

/-! ## Splitting -/

namespace GoString

/-- `strings.Fields`. -/
def fields (s : String) : List String :=
  ((s.toList.splitOnP isSpace).filter (· ≠ [])).map .ofList

theorem splitOnP_intercalate {α : Type} {p : α → Bool} {sep : α} (hsep : p sep = true)
    {ls : List (List α)} (hls : ls ≠ []) (h : ∀ l ∈ ls, ∀ a ∈ l, p a = false) :
    ([sep].intercalate ls).splitOnP p = ls := by
  induction ls with
  | nil => exact absurd rfl hls
  | cons l ls ih =>
    obtain ⟨hl, hrest⟩ := List.forall_mem_cons.mp h
    rcases ls with _ | ⟨l', ls⟩
    · rw [List.intercalate_singleton, List.splitOnP_eq_singleton hl]
    · rw [List.intercalate_cons_cons, List.append_assoc, List.singleton_append,
        List.splitOnP_append_cons_of_forall_mem hl sep hsep, ih (by simp) hrest]

/-- Fields on lines of their own. -/
theorem fields_intercalate {ls : List String}
    (h : ∀ s ∈ ls, s ≠ "" ∧ ∀ c ∈ s.toList, isSpace c = false) :
    fields ("\n".intercalate ls) = ls := by
  rcases eq_or_ne ls [] with rfl | hls
  · decide
  have hsplit : ("\n".intercalate ls).toList.splitOnP isSpace = ls.map String.toList := by
    rw [String.toList_intercalate]
    refine splitOnP_intercalate (by decide) (by simpa using hls) fun l hl ↦ ?_
    obtain ⟨s, hs, rfl⟩ := List.mem_map.mp hl
    exact (h s hs).2
  have hnonempty : ∀ l ∈ ls.map String.toList, decide (l ≠ []) = true := by
    intro l hl
    obtain ⟨s, hs, rfl⟩ := List.mem_map.mp hl
    simpa using (h s hs).1
  rw [fields, hsplit, List.filter_eq_self.mpr hnonempty, List.map_map]
  exact (List.map_congr_left fun s _ ↦ String.ofList_toList).trans (List.map_id ls)

/-- Parts with a separator between them that none of them has. -/
theorem split_intercalate {sep : Char} {ls : List String} (hls : ls ≠ [])
    (h : ∀ s ∈ ls, sep ∉ s.toList) : split ((String.singleton sep).intercalate ls) sep = ls := by
  rw [split, String.toList_intercalate, String.toList_singleton,
    List.splitOn_intercalate sep (by simpa using h) (by simpa using hls), List.map_map]
  exact (List.map_congr_left fun s _ ↦ String.ofList_toList).trans (List.map_id ls)

end GoString
