import ClassG.Hooks.RuleStore

/-!
# What a hook is told

`Event` of `internal/hooks/hooks.go` with all that an action sends: the moment, the payload, and the
position that a geofence is asked about.
-/

set_option autoImplicit false

namespace ClassG.Hooks

/-- What a payload holds. -/
inductive Value
  | text (s : String)
  | number (q : ℚ)
  | count (n : ℤ)
  | flag (b : Bool)
  | time (t : GoTime)
  deriving DecidableEq, Repr

/-- A `map[string]any`. -/
abbrev Payload : Type := GoMap String Value

/-- One thing that happened, with what an action sends of it. -/
structure Alert extends Event where
  atTime : GoTime
  payload : Payload := .empty
  /-- Latitude and longitude, if it has a position. -/
  position : Option (ℚ × ℚ) := none

/-- The keys and values are put into a payload, one after the other. -/
def Payload.putAll (p : Payload) (kvs : List (String × Value)) : Payload :=
  kvs.foldl (fun p kv ↦ p.put kv.1 kv.2) p

end ClassG.Hooks
