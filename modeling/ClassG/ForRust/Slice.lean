import ClassG.ForGo.Bytes

/-!
# Slices

Indexing in Rust is checked: what is outside a slice is not read, it panics, as a sum does that does
not fit in a `usize`, which has 64 bits on the machines this is about.  So these functions return in
`Except Panicked`, and that a program never indexes outside its input is that what it returns is
`ok`.
-/

set_option autoImplicit false

/-- Why a thread panicked. -/
inductive Panicked
  | outOfBounds
  | overflow
  deriving DecidableEq

namespace RustSlice

/-- `raw[i]`. -/
def index (raw : List Byte) (i : ℕ) : Except Panicked Byte :=
  match raw[i]? with
  | some b => .ok b
  | none => .error .outOfBounds

/-- `&raw[i..j]`. -/
def range (raw : List Byte) (i j : ℕ) : Except Panicked (List Byte) :=
  if i ≤ j ∧ j ≤ raw.length then .ok ((raw.take j).drop i) else .error .outOfBounds

/-- `&raw[i..]`. -/
def rangeFrom (raw : List Byte) (i : ℕ) : Except Panicked (List Byte) :=
  if i ≤ raw.length then .ok (raw.drop i) else .error .outOfBounds

/-- `m + n`, of `usize`. -/
def add (m n : ℕ) : Except Panicked ℕ := if m + n < 2 ^ 64 then .ok (m + n) else .error .overflow

/-- `m - n`, of `usize`. -/
def sub (m n : ℕ) : Except Panicked ℕ := if n ≤ m then .ok (m - n) else .error .overflow

variable {raw : List Byte} {i j m n : ℕ}

theorem index_cons_zero (b : Byte) : index (b :: raw) 0 = .ok b := rfl

theorem range_of_le (hij : i ≤ j) (hj : j ≤ raw.length) :
    range raw i j = .ok ((raw.take j).drop i) := if_pos ⟨hij, hj⟩

theorem rangeFrom_of_le (h : i ≤ raw.length) : rangeFrom raw i = .ok (raw.drop i) := if_pos h

theorem add_of_lt (h : m + n < 2 ^ 64) : add m n = .ok (m + n) := if_pos h

theorem sub_of_le (h : n ≤ m) : sub m n = .ok (m - n) := if_pos h

end RustSlice
