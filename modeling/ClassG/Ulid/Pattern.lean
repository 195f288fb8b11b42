import ClassG.Schema.Detection
import ClassG.Ulid.Agreement

/-!
# Identifiers match the pattern of the schema

Whatever the clock and the random bytes are: a time that does not fit, and bytes that there are none
of, still give 26 characters of the alphabet.
-/

set_option autoImplicit false

namespace ClassG.Ulid

open FixedWidth Schema

theorem isULID_ofList {cs : List Char} (hlen : cs.length = 26) (h : ∀ c ∈ cs, c ∈ crockford) :
    IsULID (.ofList cs) := by
  refine ⟨by rw [String.length_ofList, hlen], ?_⟩
  rw [String.toList_ofList]
  have hall : crockford.all fun c ↦ ('0' ≤ c ∧ c ≤ '9') ∨ ('A' ≤ c ∧ c ≤ 'H') ∨
      c ∈ ['J', 'K', 'M', 'N'] ∨ ('P' ≤ c ∧ c ≤ 'T') ∨ ('V' ≤ c ∧ c ≤ 'Z') := by decide
  exact fun c hc ↦ of_decide_eq_true (List.all_eq_true.mp hall c (h c hc))

theorem mem_of_mem_map_char {ds : List ℕ} {c : Char} (h : c ∈ ds.map char) : c ∈ crockford := by
  obtain ⟨d, -, rfl⟩ := List.mem_map.mp h
  exact char_mem d

theorem isULID_written (t e : ℕ) : IsULID (written t e) :=
  isULID_ofList (by rw [List.length_map, length_digits]) fun _ ↦ mem_of_mem_map_char

/-- In Go. -/
theorem isULID_newULID (milli : ℤ) (entropy : Option Entropy) : IsULID (newULID milli entropy) := by
  rw [newULID]
  cases entropy with
  | none =>
    rw [encodeGo, writeTime_eq, List.append_nil]
    refine isULID_ofList (by simp) fun c hc ↦ ?_
    rcases List.mem_append.mp hc with hc | hc
    · exact mem_of_mem_map_char hc
    · rw [List.eq_of_mem_replicate hc]
      decide
  | some e =>
    rw [encodeGo_eq]
    exact isULID_written _ _

/-- In Rust. -/
theorem isULID_mint (f : UlidFactory) (epochMs : ℤ) : IsULID (f.mint epochMs).1 := by
  refine isULID_ofList (by simp) fun c hc ↦ ?_
  rcases List.mem_append.mp hc with hc | hc
  all_goals
    obtain ⟨i, -, rfl⟩ := List.mem_map.mp hc
    exact char_mem _

/-- In Python. -/
theorem isULID_ulid (randBytes : List Byte) (tsMs : ℤ) : IsULID (ulid randBytes tsMs) := by
  rw [ulid]
  rw [lastFirst_reverse]
  exact isULID_ofList (by rw [List.length_map, length_digits]) fun _ ↦ mem_of_mem_map_char

end ClassG.Ulid
