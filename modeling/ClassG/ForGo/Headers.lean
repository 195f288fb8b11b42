import ClassG.ForGo.JsonDecode

/-!
# Headers of requests and of mail

A value of a header of HTTP has no control characters but tabs.  A header section of mail is lines
that end with CRLF, up to the first that is empty; where no line has a CR or LF of its own, they are
the lines that were written (`headerLines_eq`).
-/

set_option autoImplicit false

namespace GoBytes

/-! ## Values -/

/-- A byte that `httpguts` takes for a control character and not for white space. -/
def isControl (b : Byte) : Bool := (b < 32 ∨ b = 127) ∧ b ≠ 9

/-- `httpguts.ValidHeaderFieldValue`. -/
def validHeaderFieldValue (v : GoBytes) : Bool := v.all fun b ↦ !isControl b

/-- No line ends in it. -/
def OneLine (v : GoBytes) : Prop := ∀ b ∈ v, b ≠ 13 ∧ b ≠ 10

instance (v : GoBytes) : Decidable (OneLine v) := inferInstanceAs (Decidable (∀ b ∈ v, _))

variable {v w : GoBytes}

theorem validHeaderFieldValue_iff : validHeaderFieldValue v ↔ ∀ b ∈ v, isControl b = false := by
  simp [validHeaderFieldValue]

theorem validHeaderFieldValue_append :
    validHeaderFieldValue (v ++ w) ↔ validHeaderFieldValue v ∧ validHeaderFieldValue w := by
  simp [validHeaderFieldValue]

@[simp] theorem oneLine_append : OneLine (v ++ w) ↔ OneLine v ∧ OneLine w := List.forall_mem_append

theorem oneLine_join {sep : GoBytes} (hsep : OneLine sep) (vs : List GoBytes) :
    OneLine (List.intercalate sep vs) ↔ ∀ v ∈ vs, OneLine v := by
  induction vs with
  | nil => simp [OneLine]
  | cons v vs ih =>
    cases vs with
    | nil => simp
    | cons w vs =>
      rw [List.intercalate_cons_cons, oneLine_append, oneLine_append, ih, and_iff_left hsep]
      exact List.forall_mem_cons.symm

/-! ## The section -/

/-- The lines up to the first that is empty, the first of them with what has been read of it. -/
def headerLines (line : GoBytes) : GoBytes → List GoBytes
  | 13 :: 10 :: rest => if line = [] then [] else line :: headerLines [] rest
  | b :: rest => headerLines (line ++ [b]) rest
  | [] => []

theorem headerLines_append (line rest : GoBytes) (hv : OneLine v) :
    headerLines line (v ++ rest) = headerLines (line ++ v) rest := by
  induction v generalizing line with
  | nil => rw [List.nil_append, List.append_nil]
  | cons b v ih =>
    have hb : b ≠ 13 := (hv b List.mem_cons_self).1
    rw [List.cons_append, headerLines, ih _ fun c hc ↦ hv c (List.mem_cons_of_mem b hc),
      List.append_assoc, List.singleton_append]
    rintro rest' rfl
    exact absurd rfl hb

/-- **The lines of a section are those that were written.** -/
theorem headerLines_eq {lines : List GoBytes} (h : ∀ l ∈ lines, OneLine l ∧ l ≠ [])
    (rest : GoBytes) :
    headerLines [] (lines.flatMap (· ++ [13, 10]) ++ 13 :: 10 :: rest) = lines := by
  induction lines with
  | nil => rfl
  | cons l lines ih =>
    obtain ⟨hl, hne⟩ := h l List.mem_cons_self
    rw [List.flatMap_cons, List.append_assoc, List.append_assoc, headerLines_append _ _ hl,
      List.nil_append, List.cons_append, List.cons_append, List.nil_append, headerLines,
      if_neg hne, ih fun l' hl' ↦ h l' (List.mem_cons_of_mem l hl')]

end GoBytes

/-! ## Dates -/

namespace GoTime

open GoBytes Calendar

/-- The days of the week, from that of the first day of the year 1. -/
def weekdays : List String := ["Mon", "Tue", "Wed", "Thu", "Fri", "Sat", "Sun"]

def months : List String :=
  ["Jan", "Feb", "Mar", "Apr", "May", "Jun", "Jul", "Aug", "Sep", "Oct", "Nov", "Dec"]

/-- `t.UTC().Format(time.RFC1123Z)`. -/
def formatRFC1123Z (t : ℤ) : GoBytes :=
  let s := stamp t
  ofASCII (weekdays.getD (t / day % 7).toNat "") ++ [44, 32] ++ decimals 2 s.date.day.toNat ++
    32 :: ofASCII (months.getD (s.date.month - 1).toNat "") ++ 32 :: appendInt 4 s.date.year ++
    32 :: decimals 2 s.hour.toNat ++ 58 :: decimals 2 s.minute.toNat ++
    58 :: decimals 2 s.second.toNat ++ ofASCII " +0000"

theorem oneLine_decimals (w n : ℕ) : OneLine (decimals w n) := by
  intro b hb
  have hdigit := isDigit_of_mem_decimals hb
  constructor <;>
  · rintro rfl
    simp [digitValue] at hdigit

theorem oneLine_appendInt (w : ℕ) (n : ℤ) : OneLine (appendInt w n) := by
  rw [appendInt]
  split
  · intro b hb
    rcases List.mem_cons.mp hb with rfl | hb
    · decide
    · exact oneLine_decimals _ _ b hb
  · exact oneLine_decimals _ _

theorem oneLine_getD {names : List String} (h : ∀ s ∈ names, OneLine (ofASCII s)) (k : ℕ) :
    OneLine (ofASCII (names.getD k "")) := by
  rw [List.getD_eq_getElem?_getD]
  cases hk : names[k]? with
  | none => exact fun b hb ↦ by cases hb
  | some s => exact h s (List.mem_of_getElem? hk)

theorem oneLine_formatRFC1123Z (t : ℤ) : OneLine (formatRFC1123Z t) := by
  have hspace {v : GoBytes} (h : OneLine v) : OneLine (32 :: v) :=
    List.forall_mem_cons.mpr ⟨by decide, h⟩
  have hcolon {v : GoBytes} (h : OneLine v) : OneLine (58 :: v) :=
    List.forall_mem_cons.mpr ⟨by decide, h⟩
  have hweekdays : ∀ s ∈ weekdays, OneLine (ofASCII s) := by simp [weekdays, ofASCII, OneLine]
  have hmonths : ∀ s ∈ months, OneLine (ofASCII s) := by simp [months, ofASCII, OneLine]
  simp only [formatRFC1123Z, oneLine_append]
  and_intros
  · exact oneLine_getD hweekdays _
  · decide +kernel
  · exact oneLine_decimals _ _
  · exact hspace (oneLine_getD hmonths _)
  · exact hspace (oneLine_appendInt _ _)
  · exact hspace (oneLine_decimals _ _)
  · exact hcolon (oneLine_decimals _ _)
  · exact hcolon (oneLine_decimals _ _)
  · simp [ofASCII, OneLine]

/-- A date of mail. -/
example : formatRFC1123Z (63871286400 * GoDuration.second) =
    ofASCII "Wed, 01 Jan 2025 00:00:00 +0000" := by decide +kernel

end GoTime
