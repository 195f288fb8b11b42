import ClassG.Binary64

/-!
# JSON in Python

What `json.loads` makes of a text, and what a program does to a value of which it does not know what
it is: look up a key, ask whether it is true, and go through its items.
-/

set_option autoImplicit false

/-- A value.  A `float` may also be infinite or not a number, as `json.loads` takes `Infinity` and
`NaN`.  The keys of a `dict` are distinct: of those that are repeated in the text the last one
counts. -/
inductive PyJson
  | none
  | bool (b : Bool)
  | int (n : ℤ)
  | float (x : Double)
  | str (s : String)
  | list (items : List PyJson)
  | dict (items : List (String × PyJson))

/-- What becomes of `json.loads`. -/
inductive Loaded
  | value (v : PyJson)
  /-- The text is not JSON, or the bytes are not text. -/
  | valueError
  /-- The text is nested too deep. -/
  | recursionError

namespace PyJson

/-- `d.get(key)`. -/
def get (items : List (String × PyJson)) (key : String) : PyJson := (items.lookup key).getD .none

/-- `bool(v)`. -/
def truthy : PyJson → Bool
  | none => false
  | bool b => b
  | int n => n ≠ 0
  | float x => x ≠ .fin 0
  | str s => s ≠ ""
  | list items => !items.isEmpty
  | dict items => !items.isEmpty

/-- The items of `iter(v)`, or nothing where it raises `TypeError`. -/
def iter : PyJson → Option (List PyJson)
  | str s => some (s.toList.map fun c ↦ .str (String.ofList [c]))
  | list items => some items
  | dict items => some (items.map fun item ↦ .str item.1)
  | _ => Option.none

end PyJson
