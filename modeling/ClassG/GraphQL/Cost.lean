import ClassG.GraphQL.Document
import Mathlib.Data.Rat.Floor

/-!
# The cost of a query

`api/internal/graphqlapi/handler.go` walks a document before it is executed and refuses what is too
wide, too deep, or asks for the detections of too many tracks.  Every walk enters a fragment with
`enterFragment`, unless it is on its path already; as often as there are fragments is thus as often
as a walk can enter one, and no walk is given more than that many.
-/

set_option autoImplicit false

namespace ClassG.GraphQL

/-- `MaxDepth`. -/
def maxDepth : ℕ := 8

/-- `MaxAliases`. -/
def maxAliases : ℕ := 24

/-- `MaxTracksWithDetections`. -/
def maxTracksWithDetections : ℤ := 100

/-- `store.DefaultLimit`. -/
def defaultLimit : ℤ := 100

/-- `store.MaxLimit`. -/
def maxLimit : ℤ := 1000

/-- The fragments that are entered, by name. -/
abbrev Fragments := String → Option (List Selection)

/-- `enterFragment`: what to walk, and the path from there on. -/
def enterFragment (frags : Fragments) (seen : List String) (name : String) :
    Option (List Selection × List String) :=
  if name ∈ seen then none else (frags name).map fun set ↦ (set, name :: seen)

/-- What a walk makes of a fragment: nothing, where it is not entered. -/
def walkFragment {α : Type} (frags : Fragments) (nothing : α) (walk : List String → List Selection → α)
    (seen : List String) (name : String) : α :=
  match enterFragment frags seen name with
  | none => nothing
  | some (set, seen) => walk seen set

/-! ## Width and depth -/

mutual

/-- What one selection adds to the number of fields. -/
def Selection.count (spread : String → ℕ) : Selection → ℕ
  | .field _ _ _ _ => 1
  | .inlineFragment set => countAll spread set
  | .fragmentSpread name => spread name

/-- The number of fields of a selection set. -/
def countAll (spread : String → ℕ) : List Selection → ℕ
  | [] => 0
  | s :: rest => s.count spread + countAll spread rest

end

/-- `countSelections`. -/
def countSelections (frags : Fragments) : ℕ → List String → List Selection → ℕ
  | 0, _, set => countAll (fun _ ↦ 0) set
  | fuel + 1, seen, set =>
    countAll (walkFragment frags 0 (countSelections frags fuel) seen) set

mutual

/-- How deep a selection goes, at the level `at`. -/
def Selection.depth (spread : ℕ → String → ℕ) (level : ℕ) : Selection → ℕ
  | .field _ _ _ set => if set.isEmpty then level else depthAll spread (level + 1) set
  | .inlineFragment set => if set.isEmpty then level else depthAll spread level set
  | .fragmentSpread name => spread level name

/-- How deep a selection set goes. -/
def depthAll (spread : ℕ → String → ℕ) (level : ℕ) : List Selection → ℕ
  | [] => level
  | s :: rest => max (s.depth spread level) (depthAll spread level rest)

end

/-- `depth`. -/
def depth (frags : Fragments) : ℕ → ℕ → List String → List Selection → ℕ
  | 0, level, _, set => depthAll (fun level _ ↦ level) level set
  | fuel + 1, level, seen, set =>
    depthAll (fun level ↦ walkFragment frags level (depth frags fuel level) seen) level set

/-! ## Fan-out -/

mutual

/-- Whether a selection has a field of this name in it. -/
def Selection.has (spread : String → Bool) (name : String) : Selection → Bool
  | .field _ n _ set => n = name || hasAny spread name set
  | .inlineFragment set => hasAny spread name set
  | .fragmentSpread f => spread f

/-- Whether a selection set has a field of this name in it. -/
def hasAny (spread : String → Bool) (name : String) : List Selection → Bool
  | [] => false
  | s :: rest => s.has spread name || hasAny spread name rest

end

/-- `selectionSubtreeHas`. -/
def selectionSubtreeHas (frags : Fragments) (name : String) :
    ℕ → List String → List Selection → Bool
  | 0, _, set => hasAny (fun _ ↦ false) name set
  | fuel + 1, seen, set =>
    hasAny (walkFragment frags false (selectionSubtreeHas frags name fuel) seen) name set

/-- `strconv.Atoi`. -/
def atoi (n : ℤ) : Option ℤ :=
  if -2 ^ 63 ≤ n ∧ n < 2 ^ 63 then some n else none

/-- `int(n)`, of a float that is positive; what it gives of one that does not fit is up to the
machine. -/
def truncate (overflow : ℚ → ℤ) (q : ℚ) : ℤ :=
  if ⌊q⌋ < 2 ^ 63 then ⌊q⌋ else overflow q

/-- What `limitArgument` makes of the value of `limit`. -/
def limitOf (overflow : ℚ → ℤ) (vars : Variables) : Option Value → ℤ
  | some (.int n) =>
    match atoi n with
    | some n => if 0 < n then n else defaultLimit
    | none => defaultLimit
  | some (.var name) =>
    match vars.get name with
    | some (.number q) => if 0 < q then truncate overflow q else defaultLimit
    | some (.int n) => if 0 < n then n else defaultLimit
    | _ => defaultLimit
  | _ => defaultLimit

/-- `limitArgument`. -/
def limitArgument (overflow : ℚ → ℤ) (arguments : List (String × Value)) (vars : Variables) : ℤ :=
  limitOf overflow vars ((arguments.find? fun a ↦ a.1 = "limit").map Prod.snd)

/-- What the refusal of a page says. -/
def tooManyTracks (limit : ℤ) : String :=
  "this query asks for detections under " ++ toString limit ++ " tracks, which is " ++
    toString limit ++ "+ store queries in one request; this unit allows at most " ++
    toString maxTracksWithDetections ++ " tracks per page when detections are selected. " ++
    "Page with cursor instead"

mutual

/-- The check of one selection. -/
def Selection.checkFanOut (spread : String → Except String Unit) (wide : List Selection → Bool)
    (limit : List (String × Value) → ℤ) : Selection → Except String Unit
  | .field _ name arguments set =>
    if name = "tracks" ∧ wide set ∧ maxTracksWithDetections < limit arguments then
      .error (tooManyTracks (limit arguments))
    else checkFanOutAll spread wide limit set
  | .inlineFragment set => checkFanOutAll spread wide limit set
  | .fragmentSpread name => spread name

/-- The check of a selection set. -/
def checkFanOutAll (spread : String → Except String Unit) (wide : List Selection → Bool)
    (limit : List (String × Value) → ℤ) : List Selection → Except String Unit
  | [] => .ok ()
  | s :: rest =>
    match s.checkFanOut spread wide limit with
    | .error e => .error e
    | .ok () => checkFanOutAll spread wide limit rest

end

/-- `checkFanOut`. -/
def checkFanOut (frags : Fragments) (wide : List Selection → Bool)
    (limit : List (String × Value) → ℤ) : ℕ → List String → List Selection → Except String Unit
  | 0, _, set => checkFanOutAll (fun _ ↦ .ok ()) wide limit set
  | fuel + 1, seen, set => checkFanOutAll
    (walkFragment frags (.ok ()) (checkFanOut frags wide limit fuel) seen) wide limit set

/-! ## The check -/

/-- The check of one operation. -/
def checkOperation (overflow : ℚ → ℤ) (frags : GoMap String (List Selection)) (vars : Variables)
    (op : Operation) : Except String Unit :=
  let fuel := frags.len
  let n := countSelections frags.get fuel [] op.selectionSet
  let d := depth frags.get fuel 1 [] op.selectionSet
  if maxAliases < n then
    .error ("this query asks for " ++ toString n ++
      " top-level fields; this unit executes at most " ++ toString maxAliases)
  else if maxDepth < d then
    .error ("this query is " ++ toString d ++ " levels deep; this unit executes at most " ++
      toString maxDepth ++
      ". Ask for what you need in two queries rather than one walk of the graph")
  else checkFanOut frags.get (selectionSubtreeHas frags.get "detections" fuel [])
    (fun arguments ↦ limitArgument overflow arguments vars) fuel [] op.selectionSet

/-- The operations of a document, one after the other. -/
def checkDefinitions (overflow : ℚ → ℤ) (frags : GoMap String (List Selection)) (vars : Variables) :
    List Definition → Except String Unit
  | [] => .ok ()
  | .fragment _ _ :: rest => checkDefinitions overflow frags vars rest
  | .operation op :: rest =>
    match checkOperation overflow frags vars op with
    | .error e => .error e
    | .ok () => checkDefinitions overflow frags vars rest

/-- `checkCost`, of a document that parses. -/
def checkCost (overflow : ℚ → ℤ) (doc : Document) (vars : Variables) : Except String Unit :=
  checkDefinitions overflow (fragments doc) vars doc

/-! ## The resolver -/

/-- `NormaliseLimit`: none, if it is refused. -/
def normaliseLimit (limit : ℤ) : Option ℤ :=
  if limit < 1 then none else if maxLimit < limit then none else some limit

/-- `limitArg`, of the coerced argument. -/
def limitArg : Option Coerced → Option ℤ
  | some (.int n) => normaliseLimit n
  | _ => some defaultLimit

/-- The limit that `tracks` runs with, if it runs. -/
def effectiveLimit (op : Operation) (vars : Variables) (f : Field) : Option ℤ :=
  (coerceArgument op vars (f.argument "limit")).bind limitArg

end ClassG.GraphQL
