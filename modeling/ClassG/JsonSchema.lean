import Mathlib.Data.Rat.Defs
import Mathlib.Algebra.Order.Ring.Rat
import Mathlib.Tactic.Common

/-!
# JSON, and what a schema asks of it

A schema is a predicate on JSON values, put together from a few others.  An `Object` has no
properties besides those that are named, which is what `additionalProperties: false` says.

What a service writes is mostly a list of properties of which some are left out; `isObject_obj` and
the lemmas after it take such a list apart, so that what is left to show is one condition for each
property that has any.
-/

set_option autoImplicit false

/-- A JSON value. -/
inductive Json
  | null
  | bool (b : Bool)
  | num (q : ℚ)
  | str (s : String)
  | arr (items : List Json)
  | obj (fields : List (String × Json))

namespace Json

/-- A property that may be left out. -/
def field (name : String) (value : Option Json) : List (String × Json) :=
  value.toList.map fun v ↦ (name, v)

/-- A number, or null. -/
def numOrNull : Option ℚ → Json
  | some q => .num q
  | none => .null

/-- A text, or null. -/
def strOrNull : Option String → Json
  | some s => .str s
  | none => .null

end Json

namespace JsonSchema

/-- `"type": "number"`. -/
def IsNumber (p : ℚ → Prop) : Json → Prop
  | .num q => p q
  | _ => False

/-- `"type": "integer"`. -/
def IsInteger (p : ℚ → Prop) : Json → Prop := IsNumber fun q ↦ q.den = 1 ∧ p q

/-- `"type": "string"`. -/
def IsString (p : String → Prop) : Json → Prop
  | .str s => p s
  | _ => False

/-- `"type": [_, "null"]`. -/
def OrNull (p : Json → Prop) : Json → Prop
  | .null => True
  | j => p j

/-- A property of an object. -/
structure Property where
  name : String
  check : Json → Prop
  required : Bool := false

/-- `"type": "object"`, with `"additionalProperties": false`. -/
def IsObject (props : List Property) : Json → Prop
  | .obj fields => (∀ f ∈ fields, ∃ p ∈ props, p.name = f.1 ∧ p.check f.2) ∧
      ∀ p ∈ props, p.required → ∃ f ∈ fields, f.1 = p.name
  | _ => False

@[simp] theorem isNumber_num (p : ℚ → Prop) (q : ℚ) : IsNumber p (.num q) ↔ p q := Iff.rfl

@[simp] theorem isInteger_intCast (p : ℚ → Prop) (n : ℤ) :
    IsInteger p (.num n) ↔ p n := by simp [IsInteger]

@[simp] theorem isInteger_natCast (p : ℚ → Prop) (n : ℕ) :
    IsInteger p (.num n) ↔ p n := by simp [IsInteger]

@[simp] theorem isString_str (p : String → Prop) (s : String) : IsString p (.str s) ↔ p s := Iff.rfl

@[simp] theorem orNull_null (p : Json → Prop) : OrNull p .null ↔ True := Iff.rfl

@[simp] theorem orNull_num (p : Json → Prop) (q : ℚ) : OrNull p (.num q) ↔ p (.num q) := Iff.rfl

@[simp] theorem orNull_str (p : Json → Prop) (s : String) : OrNull p (.str s) ↔ p (.str s) := Iff.rfl

@[simp] theorem orNull_obj (p : Json → Prop) (fields : List (String × Json)) :
    OrNull p (.obj fields) ↔ p (.obj fields) := Iff.rfl

@[simp] theorem orNull_numOrNull (p : ℚ → Prop) (x : Option ℚ) :
    OrNull (IsNumber p) (Json.numOrNull x) ↔ ∀ q ∈ x, p q := by
  cases x <;> simp [Json.numOrNull]

@[simp] theorem orNull_strOrNull (p : String → Prop) (x : Option String) :
    OrNull (IsString p) (Json.strOrNull x) ↔ ∀ s ∈ x, p s := by
  cases x <;> simp [Json.strOrNull]

/-! ## Objects -/

/-- What is to be checked of one field. -/
def Checked (props : List Property) (name : String) (value : Json) : Prop :=
  ∃ p ∈ props, p.name = name ∧ p.check value

/-- Every field is checked. -/
def AllChecked (props : List Property) (fields : List (String × Json)) : Prop :=
  ∀ f ∈ fields, Checked props f.1 f.2

/-- A field of this name is there. -/
def Has (fields : List (String × Json)) (name : String) : Prop := ∃ f ∈ fields, f.1 = name

/-- **An object**: each field is checked, and what is required is there. -/
theorem isObject_obj (props : List Property) (fields : List (String × Json)) :
    IsObject props (.obj fields) ↔ AllChecked props fields ∧
      ∀ p ∈ props, p.required → Has fields p.name := Iff.rfl

@[simp] theorem allChecked_nil (props : List Property) : AllChecked props [] :=
  List.forall_mem_nil _

@[simp] theorem allChecked_cons (props : List Property) (f : String × Json)
    (fields : List (String × Json)) :
    AllChecked props (f :: fields) ↔ Checked props f.1 f.2 ∧ AllChecked props fields :=
  List.forall_mem_cons

@[simp] theorem allChecked_append (props : List Property) (fields more : List (String × Json)) :
    AllChecked props (fields ++ more) ↔ AllChecked props fields ∧ AllChecked props more :=
  List.forall_mem_append

@[simp] theorem allChecked_field (props : List Property) (name : String) (value : Option Json) :
    AllChecked props (Json.field name value) ↔ ∀ v ∈ value, Checked props name v := by
  cases value <;> simp [Json.field]

@[simp] theorem has_cons (f : String × Json) (fields : List (String × Json)) (name : String) :
    Has (f :: fields) name ↔ f.1 = name ∨ Has fields name := by
  simp [Has]

theorem has_append (fields more : List (String × Json)) (name : String) :
    Has (fields ++ more) name ↔ Has fields name ∨ Has more name := by
  simp [Has, or_and_right, exists_or]

@[simp] theorem has_append_left {fields : List (String × Json)} {name : String}
    (more : List (String × Json)) (h : Has fields name) : Has (fields ++ more) name :=
  (has_append fields more name).mpr (.inl h)

end JsonSchema
