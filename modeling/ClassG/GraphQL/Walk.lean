import ClassG.GraphQL.FanOut
import Mathlib.Data.Finset.Basic

/-!
# The walks over a document

The four walks of `handler.go` go the same way.  They share the set of the fragments they are in:
`enterFragment` puts a name there, and whoever called it takes it out again before doing anything
with the result.  A `Walker` is what tells them apart, `Walker.run` is the walk with its set, and
`Walker.value` what it comes to.

`Walker.run_eq` says that a walk terminates once it is given as many steps into fragments as there
are fragments left, and that it leaves the set as it has found it.
-/

set_option autoImplicit false

namespace ClassG.GraphQL

/-- What a walk does at each selection. -/
structure Walker (V : Type) where
  /-- What no selections come to, at this level. -/
  nothing : ℕ → V
  /-- What a field comes to at this level, from what its selection set does. -/
  field : List Selection → ℕ → V → V
  /-- A selection and those after it. -/
  append : V → V → V
  /-- The walk ends early. -/
  stops : V → Bool
  append_of_stops : ∀ v w, stops v = true → append v w = v
  /-- Of the selection set, it only matters whether there is one. -/
  field_congr : ∀ set set' level v, set.isEmpty = set'.isEmpty →
    field set level v = field set' level v

/-- What a field comes to, if a walk does not go into it. -/
abbrev Before (V : Type) := String → List (String × Value) → List Selection → Option V

variable {V : Type} (W : Walker V)

/-! ## What a walk comes to -/

section value

variable (before : Before V) (spread : ℕ → String → V)

mutual

/-- What a selection comes to. -/
def Selection.value (level : ℕ) : Selection → V
  | .field _ name arguments set =>
    match before name arguments set with
    | some v => v
    | none => W.field set level (valueAll (level + 1) set)
  | .inlineFragment set => valueAll level set
  | .fragmentSpread name => spread level name

/-- What a selection set comes to. -/
def valueAll (level : ℕ) : List Selection → V
  | [] => W.nothing level
  | s :: rest => W.append (s.value level) (valueAll level rest)

end

end value

/-- What a walk comes to, that is in the fragments `path`. -/
def Walker.value (before : Before V) (frags : Fragments) :
    ℕ → ℕ → List String → List Selection → V
  | 0, level, _, set => valueAll W before (fun level _ ↦ W.nothing level) level set
  | fuel + 1, level, path, set => valueAll W before
    (fun level ↦ walkFragment frags (W.nothing level) (Walker.value before frags fuel level) path)
    level set

/-! ## The walk with its set -/

/-- `enterFragment`, the walk over the fragment, and `delete`. -/
def enter (frags : Fragments) (nothing : V)
    (walk : List Selection → Finset String → Option (V × Finset String)) (name : String)
    (seen : Finset String) : Option (V × Finset String) :=
  if name ∈ seen then some (nothing, seen)
  else
    match frags name with
    | none => some (nothing, seen)
    | some set => (walk set (insert name seen)).map fun (v, seen) ↦ (v, seen.erase name)

section walk

variable (before : Before (Option V))
  (spread : ℕ → String → Finset String → Option (V × Finset String))

mutual

/-- The walk over a selection. -/
def Selection.walk (level : ℕ) :
    Selection → Finset String → Option (V × Finset String)
  | .field _ name arguments set, seen =>
    match before name arguments set with
    | none => none
    | some (some v) => some (v, seen)
    | some none => (walkAll (level + 1) set seen).map fun (v, seen) ↦ (W.field set level v, seen)
  | .inlineFragment set, seen => walkAll level set seen
  | .fragmentSpread name, seen => spread level name seen

/-- The walk over a selection set. -/
def walkAll (level : ℕ) : List Selection → Finset String → Option (V × Finset String)
  | [], seen => some (W.nothing level, seen)
  | s :: rest, seen =>
    match s.walk level seen with
    | none => none
    | some (v, seen) =>
      if W.stops v then some (v, seen)
      else (walkAll level rest seen).map fun (w, seen) ↦ (W.append v w, seen)

end

end walk

/-- The walk, which enters fragments within fragments so many times at most. -/
def Walker.run (before : Before (Option V)) (frags : Fragments) :
    ℕ → ℕ → List Selection → Finset String → Option (V × Finset String)
  | 0, level => walkAll W before
    (fun level ↦ enter frags (W.nothing level) fun _ _ ↦ none) level
  | fuel + 1, level => walkAll W before
    (fun level ↦ enter frags (W.nothing level) (Walker.run before frags fuel level)) level

/-! ### It terminates, and restores the set -/

section terminates

variable {W} {before : Before (Option V)} {decided : Before V}
  {spread : ℕ → String → Finset String → Option (V × Finset String)} {g : ℕ → String → V}
  {seen : Finset String}

mutual

theorem Selection.walk_eq
    (hbefore : ∀ name arguments set, before name arguments set = some (decided name arguments set))
    (hspread : ∀ level name, spread level name seen = some (g level name, seen)) (level : ℕ) :
    (s : Selection) → s.walk W before spread level seen = some (s.value W decided g level, seen)
  | .field _ name arguments set => by
    rw [Selection.walk, Selection.value, hbefore]
    rcases decided name arguments set with _ | v
    · dsimp only
      rw [walkAll_eq hbefore hspread (level + 1) set]
      rfl
    · rfl
  | .inlineFragment set => by
    rw [Selection.walk, Selection.value, walkAll_eq hbefore hspread level set]
  | .fragmentSpread name => by
    rw [Selection.walk, Selection.value, hspread]

theorem walkAll_eq
    (hbefore : ∀ name arguments set, before name arguments set = some (decided name arguments set))
    (hspread : ∀ level name, spread level name seen = some (g level name, seen)) (level : ℕ) :
    (set : List Selection) →
      walkAll W before spread level set seen = some (valueAll W decided g level set, seen)
  | [] => by rw [walkAll, valueAll]
  | s :: rest => by
    rw [walkAll, valueAll, s.walk_eq hbefore hspread level]
    dsimp only
    rw [walkAll_eq hbefore hspread level rest]
    rcases hstops : W.stops (s.value W decided g level)
    · rfl
    · rw [W.append_of_stops _ _ hstops]
      rfl

end

/-- **A walk terminates and restores the set.** -/
theorem Walker.run_eq {frags : GoMap String (List Selection)}
    (hbefore : ∀ name arguments set, before name arguments set = some (decided name arguments set))
    {fuel : ℕ} {path : List String} (hfuel : left frags path ≤ fuel)
    (hseen : ∀ name, name ∈ seen ↔ name ∈ path) (level : ℕ) (set : List Selection) :
    W.run before frags.get fuel level set seen =
      some (W.value decided frags.get fuel level path set, seen) := by
  induction fuel generalizing path seen level set with
  | zero =>
    rw [Walker.run, Walker.value]
    refine walkAll_eq hbefore (fun level name ↦ ?_) level set
    rw [enter]
    split
    · rfl
    · rename_i hname
      rcases hget : frags.get name with _ | inner
      · rfl
      · have hlt := left_cons_lt hget ((hseen name).not.mp hname)
        omega
  | succ fuel ih =>
    rw [Walker.run, Walker.value]
    refine walkAll_eq hbefore (fun level name ↦ ?_) level set
    rw [enter, walkFragment, enterFragment]
    by_cases hname : name ∈ seen
    · rw [if_pos hname, if_pos ((hseen name).mp hname)]
    · rw [if_neg hname, if_neg ((hseen name).not.mp hname)]
      rcases hget : frags.get name with _ | inner
      · rfl
      · have hlt := left_cons_lt hget ((hseen name).not.mp hname)
        have hentered : ∀ other, other ∈ insert name seen ↔ other ∈ name :: path := fun other ↦ by
          rw [Finset.mem_insert, List.mem_cons, hseen]
        dsimp only
        rw [ih (by omega) hentered level inner, Option.map_some, Finset.erase_insert hname]
        rfl

end terminates

/-! ## The four walks -/

/-- `countSelections` counts fields, and does not go into them. -/
def countWalker : Walker ℕ where
  nothing _ := 0
  field _ _ v := v
  append := (· + ·)
  stops _ := false
  append_of_stops _ _ h := absurd h Bool.false_ne_true
  field_congr _ _ _ _ _ := rfl

/-- `depth` looks for the deepest level. -/
def depthWalker : Walker ℕ where
  nothing level := level
  field set level v := if set.isEmpty then level else v
  append := max
  stops _ := false
  append_of_stops _ _ h := absurd h Bool.false_ne_true
  field_congr _ _ _ _ h := by rw [h]

/-- `selectionSubtreeHas` stops when it has found a field. -/
def hasWalker : Walker Bool where
  nothing _ := false
  field _ _ v := v
  append := (· || ·)
  stops v := v
  append_of_stops _ _ h := by rw [h, Bool.true_or]
  field_congr _ _ _ _ _ := rfl

/-- `checkFanOut` stops at the first `tracks` that is refused. -/
def fanOutWalker : Walker (Except String Unit) where
  nothing _ := .ok ()
  field _ _ v := v
  append
    | .error e, _ => .error e
    | .ok (), w => w
  stops
    | .error _ => true
    | .ok () => false
  append_of_stops v _ h := by
    cases v with
    | error e => rfl
    | ok => cases h
  field_congr _ _ _ _ _ := rfl

/-- A field is what `countSelections` counts. -/
def countBefore : Before ℕ := fun _ _ _ ↦ some 1

/-- `depth` goes into every field. -/
def depthBefore : Before ℕ := fun _ _ _ ↦ none

/-- `selectionSubtreeHas` looks at the name first. -/
def hasBefore (name : String) : Before Bool :=
  fun other _ _ ↦ if other = name then some true else none

/-- `checkFanOut` looks at `tracks` first. -/
def fanOutBefore (wide : List Selection → Bool) (limit : List (String × Value) → ℤ) :
    Before (Except String Unit) := fun name arguments set ↦
  if name = "tracks" ∧ wide set ∧ maxTracksWithDetections < limit arguments then
    some (.error (tooManyTracks (limit arguments)))
  else none

namespace Seen

variable (frags : Fragments) (fuel : ℕ)

/-- `countSelections`, with the set. -/
def countSelections (set : List Selection) (seen : Finset String) : Option (ℕ × Finset String) :=
  countWalker.run (fun name arguments set ↦ some (countBefore name arguments set)) frags fuel 0
    set seen

/-- `depth`, with the set. -/
def depth (set : List Selection) (level : ℕ) (seen : Finset String) :
    Option (ℕ × Finset String) :=
  depthWalker.run (fun name arguments set ↦ some (depthBefore name arguments set)) frags fuel level
    set seen

/-- `selectionSubtreeHas`, with the set. -/
def selectionSubtreeHas (set : List Selection) (name : String) (seen : Finset String) :
    Option (Bool × Finset String) :=
  hasWalker.run (fun other arguments set ↦ some (hasBefore name other arguments set)) frags fuel 0
    set seen

/-- `checkFanOut`, with the set; it looks for `detections` with a set of its own. -/
def checkFanOut (limit : List (String × Value) → ℤ) (set : List Selection)
    (seen : Finset String) : Option (Except String Unit × Finset String) :=
  fanOutWalker.run (fun name arguments set ↦
    if name = "tracks" then
      (selectionSubtreeHas frags fuel set "detections" ∅).map fun (wide, _) ↦
        if wide ∧ maxTracksWithDetections < limit arguments then
          some (.error (tooManyTracks (limit arguments)))
        else none
    else some none) frags fuel 0 set seen

end Seen

/-! ### What they come to -/

section values

mutual

theorem Selection.count_eq (spread : String → ℕ) (level : ℕ) :
    (s : Selection) → s.count spread = s.value countWalker countBefore (fun _ ↦ spread) level
  | .field _ _ _ _ => rfl
  | .inlineFragment set => by rw [Selection.count, Selection.value, countAll_eq spread level set]
  | .fragmentSpread _ => rfl

theorem countAll_eq (spread : String → ℕ) (level : ℕ) :
    (set : List Selection) →
      countAll spread set = valueAll countWalker countBefore (fun _ ↦ spread) level set
  | [] => rfl
  | s :: rest => by
    rw [countAll, valueAll, s.count_eq spread level, countAll_eq spread level rest]
    rfl

end

mutual

theorem Selection.depth_eq (spread : ℕ → String → ℕ) (level : ℕ) :
    (s : Selection) → s.depth spread level = s.value depthWalker depthBefore spread level
  | .field _ _ _ set => by
    rw [Selection.depth, Selection.value, depthAll_eq spread (level + 1) set]
    rfl
  | .inlineFragment set => by
    rw [Selection.depth, Selection.value, ← depthAll_eq spread level set]
    cases set <;> rfl
  | .fragmentSpread _ => rfl

theorem depthAll_eq (spread : ℕ → String → ℕ) (level : ℕ) :
    (set : List Selection) →
      depthAll spread level set = valueAll depthWalker depthBefore spread level set
  | [] => rfl
  | s :: rest => by
    rw [depthAll, valueAll, s.depth_eq spread level, depthAll_eq spread level rest]
    rfl

end

mutual

theorem Selection.has_eq (spread : String → Bool) (name : String) (level : ℕ) :
    (s : Selection) → s.has spread name = s.value hasWalker (hasBefore name) (fun _ ↦ spread) level
  | .field _ other arguments set => by
    rw [Selection.has, Selection.value, hasAny_eq spread name (level + 1) set]
    by_cases h : other = name <;> simp [hasWalker, hasBefore, h]
  | .inlineFragment set => by rw [Selection.has, Selection.value, hasAny_eq spread name level set]
  | .fragmentSpread _ => rfl

theorem hasAny_eq (spread : String → Bool) (name : String) (level : ℕ) :
    (set : List Selection) →
      hasAny spread name set = valueAll hasWalker (hasBefore name) (fun _ ↦ spread) level set
  | [] => rfl
  | s :: rest => by
    rw [hasAny, valueAll, s.has_eq spread name level, hasAny_eq spread name level rest]
    rfl

end

variable (wide : List Selection → Bool) (limit : List (String × Value) → ℤ)

mutual

theorem Selection.checkFanOut_eq (spread : String → Except String Unit) (level : ℕ) :
    (s : Selection) → s.checkFanOut spread wide limit =
      s.value fanOutWalker (fanOutBefore wide limit) (fun _ ↦ spread) level
  | .field _ name arguments set => by
    rw [Selection.checkFanOut, Selection.value, checkFanOutAll_eq spread (level + 1) set,
      fanOutBefore]
    split <;> rfl
  | .inlineFragment set => by
    rw [Selection.checkFanOut, Selection.value, checkFanOutAll_eq spread level set]
  | .fragmentSpread _ => rfl

theorem checkFanOutAll_eq (spread : String → Except String Unit) (level : ℕ) :
    (set : List Selection) → checkFanOutAll spread wide limit set =
      valueAll fanOutWalker (fanOutBefore wide limit) (fun _ ↦ spread) level set
  | [] => rfl
  | s :: rest => by
    rw [checkFanOutAll, valueAll, s.checkFanOut_eq spread level,
      checkFanOutAll_eq spread level rest]
    rcases s.value fanOutWalker (fanOutBefore wide limit) (fun _ ↦ spread) level with e | ⟨⟩ <;> rfl

end

variable {frags : Fragments} {fuel : ℕ} {path : List String} {set : List Selection}

/-- A walk that does the same outside fragments, and in them, comes to the same. -/
theorem Walker.eq_value {V : Type} {W : Walker V} {before : Before V}
    {F : ℕ → ℕ → List String → List Selection → V}
    (hzero : ∀ level path set,
      F 0 level path set = valueAll W before (fun level _ ↦ W.nothing level) level set)
    (hsucc : ∀ fuel level path set, F (fuel + 1) level path set = valueAll W before
      (fun level ↦ walkFragment frags (W.nothing level) (F fuel level) path) level set)
    (fuel level : ℕ) (path : List String) (set : List Selection) :
    F fuel level path set = W.value before frags fuel level path set := by
  induction fuel generalizing level path set with
  | zero => exact hzero level path set
  | succ fuel ih =>
    have hF : ∀ level, F fuel level = W.value before frags fuel level := fun level ↦ by
      funext path set
      exact ih level path set
    rw [hsucc, Walker.value]
    simp only [hF]

theorem countSelections_eq (level : ℕ) :
    countSelections frags fuel path set =
      countWalker.value countBefore frags fuel level path set :=
  Walker.eq_value (F := fun fuel _ ↦ countSelections frags fuel)
    (fun level _ set ↦ countAll_eq _ level set) (fun _ level _ set ↦ countAll_eq _ level set)
    fuel level path set

theorem depth_eq (level : ℕ) :
    depth frags fuel level path set = depthWalker.value depthBefore frags fuel level path set :=
  Walker.eq_value (F := depth frags)
    (fun level _ set ↦ depthAll_eq _ level set) (fun _ level _ set ↦ depthAll_eq _ level set)
    fuel level path set

theorem selectionSubtreeHas_eq (name : String) (level : ℕ) :
    selectionSubtreeHas frags name fuel path set =
      hasWalker.value (hasBefore name) frags fuel level path set :=
  Walker.eq_value (F := fun fuel _ ↦ selectionSubtreeHas frags name fuel)
    (fun level _ set ↦ hasAny_eq _ name level set)
    (fun _ level _ set ↦ hasAny_eq _ name level set) fuel level path set

theorem checkFanOut_eq (level : ℕ) :
    checkFanOut frags wide limit fuel path set =
      fanOutWalker.value (fanOutBefore wide limit) frags fuel level path set :=
  Walker.eq_value (F := fun fuel _ ↦ checkFanOut frags wide limit fuel)
    (fun level _ set ↦ checkFanOutAll_eq wide limit _ level set)
    (fun _ level _ set ↦ checkFanOutAll_eq wide limit _ level set) fuel level path set

end values

/-! ### The functions of the handler -/

section seen

variable {frags : GoMap String (List Selection)} {fuel : ℕ} {path : List String}
  {seen : Finset String} (hfuel : left frags path ≤ fuel)
  (hseen : ∀ name, name ∈ seen ↔ name ∈ path) (set : List Selection)

include hfuel hseen

theorem Seen.countSelections_eq : Seen.countSelections frags.get fuel set seen =
    some (GraphQL.countSelections frags.get fuel path set, seen) := by
  rw [Seen.countSelections, Walker.run_eq (fun _ _ _ ↦ rfl) hfuel hseen,
    GraphQL.countSelections_eq 0]

theorem Seen.depth_eq (level : ℕ) : Seen.depth frags.get fuel set level seen =
    some (GraphQL.depth frags.get fuel level path set, seen) := by
  rw [Seen.depth, Walker.run_eq (fun _ _ _ ↦ rfl) hfuel hseen, GraphQL.depth_eq]

theorem Seen.selectionSubtreeHas_eq (name : String) :
    Seen.selectionSubtreeHas frags.get fuel set name seen =
      some (GraphQL.selectionSubtreeHas frags.get name fuel path set, seen) := by
  rw [Seen.selectionSubtreeHas, Walker.run_eq (fun _ _ _ ↦ rfl) hfuel hseen,
    GraphQL.selectionSubtreeHas_eq name 0]

/-- Given the steps for all the fragments: the search for `detections` starts outside any. -/
theorem Seen.checkFanOut_eq (hall : frags.len ≤ fuel) (limit : List (String × Value) → ℤ) :
    Seen.checkFanOut frags.get fuel limit set seen =
      some (GraphQL.checkFanOut frags.get
        (GraphQL.selectionSubtreeHas frags.get "detections" fuel []) limit fuel path set, seen) := by
  have hbefore : ∀ name arguments set, (if name = "tracks" then
      (Seen.selectionSubtreeHas frags.get fuel set "detections" ∅).map fun (wide, _) ↦
        if wide ∧ maxTracksWithDetections < limit arguments then
          some (.error (tooManyTracks (limit arguments)))
        else none
    else some none) =
      some (fanOutBefore (GraphQL.selectionSubtreeHas frags.get "detections" fuel []) limit name
        arguments set) := by
    intro name arguments set
    have hnone : ∀ name : String, name ∈ (∅ : Finset String) ↔ name ∈ ([] : List String) := by simp
    rw [Seen.selectionSubtreeHas_eq (left_nil frags ▸ hall) hnone, fanOutBefore]
    by_cases hname : name = "tracks"
    · simp only [hname, if_true, Option.map_some, true_and]
    · simp only [hname, if_false, false_and]
  rw [Seen.checkFanOut, Walker.run_eq hbefore hfuel hseen, GraphQL.checkFanOut_eq _ _ 0]

end seen

end ClassG.GraphQL
