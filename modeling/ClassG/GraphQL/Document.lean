import ClassG.ForGo.Map
import Mathlib.Algebra.Order.Ring.Rat

/-!
# GraphQL documents and how they are executed

The part of the language that decides which fields run and with which `Int` arguments: selections
with fragments, variables and their defaults.  What a directive, a type condition or a resolver
leaves out is not taken out here, so what `Executed` says may run is at least what does.

A selection set that is not written is the empty one: `{}` is no GraphQL.
-/

set_option autoImplicit false

namespace ClassG.GraphQL

/-- A literal or a variable, as far as it matters to an argument that is an `Int`. -/
inductive Value
  | int (value : ℤ)
  | null
  | var (name : String)
  | other
  deriving DecidableEq

/-- What is selected of an object. -/
inductive Selection
  | field (key name : String) (arguments : List (String × Value)) (selectionSet : List Selection)
  | inlineFragment (selectionSet : List Selection)
  | fragmentSpread (name : String)

/-- Induction on what is written. -/
theorem selections_induction {P : List Selection → Prop} (nil : P [])
    (field : ∀ key name arguments set rest, P set → P rest →
      P (.field key name arguments set :: rest))
    (inline : ∀ set rest, P set → P rest → P (.inlineFragment set :: rest))
    (spread : ∀ name rest, P rest → P (.fragmentSpread name :: rest)) : ∀ set, P set
  | [] => nil
  | .field key name arguments set :: rest => field key name arguments set rest
    (selections_induction nil field inline spread set)
    (selections_induction nil field inline spread rest)
  | .inlineFragment set :: rest => inline set rest
    (selections_induction nil field inline spread set)
    (selections_induction nil field inline spread rest)
  | .fragmentSpread name :: rest => spread name rest
    (selections_induction nil field inline spread rest)

/-- A field that is selected, with its key in the response. -/
structure Field where
  key : String
  name : String
  arguments : List (String × Value)
  selectionSet : List Selection

/-- The value of an argument. -/
def Field.argument (f : Field) (name : String) : Option Value :=
  (f.arguments.find? fun a ↦ a.1 = name).map Prod.snd

/-- The type of a variable: `Int`, `Int!`, or another. -/
inductive VariableType
  | int (nonNull : Bool)
  | other
  deriving DecidableEq

/-- A variable that an operation declares. -/
structure VariableDefinition where
  name : String
  type : VariableType
  default : Option Value

/-- An operation. -/
structure Operation where
  variableDefinitions : List VariableDefinition
  selectionSet : List Selection

/-- A definition of a document. -/
inductive Definition
  | operation (op : Operation)
  | fragment (name : String) (selectionSet : List Selection)

/-- A document. -/
abbrev Document := List Definition

/-- The fragments of a document, by name. -/
def fragments (doc : Document) : GoMap String (List Selection) :=
  doc.foldl (fun frags d ↦ match d with
    | .operation _ => frags
    | .fragment name set => frags.put name set) .empty

/-! ## Variables -/

/-- A value of the variables object: what JSON decodes to, or an `int`. -/
inductive Variable
  | null
  | number (q : ℚ)
  | int (n : ℤ)
  | other
  deriving DecidableEq

/-- The variables object. -/
abbrev Variables := GoMap String Variable

/-- The integers of 32 bits, which are the values of `Int`. -/
def IsInt (n : ℤ) : Prop := -2 ^ 31 ≤ n ∧ n < 2 ^ 31

instance (n : ℤ) : Decidable (IsInt n) := by
  rw [IsInt]
  infer_instance

/-- A value that is coerced to `Int`. -/
inductive Coerced
  | null
  | int (n : ℤ)
  deriving DecidableEq

/-- An integer, if it has 32 bits. -/
def coerceInt (n : ℤ) : Option Coerced := if IsInt n then some (.int n) else none

/-- A value of the variables object: a number has to be an integer. -/
def Variable.coerce : Variable → Option Coerced
  | .null => some .null
  | .number q => if q.den = 1 then coerceInt q.num else none
  | .int n => coerceInt n
  | .other => none

/-- A literal. -/
def Value.coerce : Value → Option Coerced
  | .int n => coerceInt n
  | .null => some .null
  | _ => none

/-- A variable of type `Int`: none if the request fails, and no value if there is none. -/
def coerceVariable (d : VariableDefinition) (v : Option Variable) : Option (Option Coerced) :=
  match d.type with
  | .other => none
  | .int nonNull =>
    match v with
    | some v => (v.coerce.filter fun c ↦ !(nonNull && c = .null)).map some
    | none =>
      match d.default with
      | some lit => (lit.coerce.filter fun c ↦ !(nonNull && c = .null)).map some
      | none => if nonNull then none else some none

/-- An argument of type `Int`: none if the request fails, and no value if there is none. -/
def coerceArgument (op : Operation) (vars : Variables) : Option Value → Option (Option Coerced)
  | none => some none
  | some (.var name) =>
    match op.variableDefinitions.find? fun d ↦ d.name = name with
    | none => none
    | some d => coerceVariable d (vars.get name)
  | some lit => lit.coerce.map some

/-! ## Execution -/

/-- A field of a selection set with its fragments inlined. -/
inductive Collected (frags : String → Option (List Selection)) : List Selection → Field → Prop
  | field {sel : List Selection} {key name : String} {arguments : List (String × Value)}
      {set : List Selection} (h : .field key name arguments set ∈ sel) :
      Collected frags sel ⟨key, name, arguments, set⟩
  | inline {sel set : List Selection} {f : Field} (h : .inlineFragment set ∈ sel)
      (hf : Collected frags set f) : Collected frags sel f
  | spread {sel set : List Selection} {name : String} {f : Field} (h : .fragmentSpread name ∈ sel)
      (hset : frags name = some set) (hf : Collected frags set f) : Collected frags sel f

/-- A field anywhere below a selection set, with fragments inlined but those to be avoided. -/
inductive Reaches (frags : String → Option (List Selection)) (avoid : List String) :
    List Selection → Field → Prop
  | field {sel : List Selection} {key name : String} {arguments : List (String × Value)}
      {set : List Selection} (h : .field key name arguments set ∈ sel) :
      Reaches frags avoid sel ⟨key, name, arguments, set⟩
  | under {sel : List Selection} {key name : String} {arguments : List (String × Value)}
      {set : List Selection} {f : Field} (h : .field key name arguments set ∈ sel)
      (hf : Reaches frags avoid set f) : Reaches frags avoid sel f
  | inline {sel set : List Selection} {f : Field} (h : .inlineFragment set ∈ sel)
      (hf : Reaches frags avoid set f) : Reaches frags avoid sel f
  | spread {sel set : List Selection} {name : String} {f : Field} (h : .fragmentSpread name ∈ sel)
      (havoid : name ∉ avoid) (hset : frags name = some set) (hf : Reaches frags avoid set f) :
      Reaches frags avoid sel f

/-- The fields that are executed as one have one response key, and a document is only executed if
they have one name and the same arguments. -/
structure Merged (group : List Field) : Prop where
  nonempty : group ≠ []
  same : ∀ f ∈ group, ∀ g ∈ group, f.key = g.key ∧ f.name = g.name ∧
    ∀ arg, f.argument arg = g.argument arg

/-- The groups of fields that are executed as one: those of an operation, and those of the merged
selection sets of such a group. -/
inductive Executed (frags : String → Option (List Selection)) (op : Operation) : List Field → Prop
  | root {group : List Field} (hgroup : Merged group)
      (h : ∀ f ∈ group, Collected frags op.selectionSet f) : Executed frags op group
  | under {parent group : List Field} (hparent : Executed frags op parent) (hgroup : Merged group)
      (h : ∀ f ∈ group, ∃ p ∈ parent, Collected frags p.selectionSet f) : Executed frags op group

/-! ## Reachability -/

section Reaches

variable {frags : String → Option (List Selection)} {avoid : List String} {sel : List Selection}
  {f g : Field}

theorem Collected.reaches (h : Collected frags sel f) : Reaches frags [] sel f := by
  induction h with
  | field h => exact .field h
  | inline h _ ih => exact .inline h ih
  | spread h hset _ ih => exact .spread h List.not_mem_nil hset ih

theorem Reaches.trans (h : Reaches frags avoid sel f) (hg : Reaches frags avoid f.selectionSet g) :
    Reaches frags avoid sel g := by
  induction h with
  | field h => exact .under h hg
  | under h _ ih => exact .under h (ih hg)
  | inline h _ ih => exact .inline h (ih hg)
  | spread h havoid hset _ ih => exact .spread h havoid hset (ih hg)

/-- What is executed is reached from the operation. -/
theorem Executed.reaches {op : Operation} {group : List Field} (h : Executed frags op group) :
    ∀ f ∈ group, Reaches frags [] op.selectionSet f := by
  induction h with
  | root _ h => exact fun f hf ↦ (h f hf).reaches
  | under _ _ h ih =>
    intro f hf
    obtain ⟨p, hp, hcollected⟩ := h f hf
    exact (ih p hp).trans hcollected.reaches

/-- A fragment is left for the last time, or it is never entered. -/
theorem Reaches.avoid_or (h : Reaches frags avoid sel f) (name : String) :
    Reaches frags (name :: avoid) sel f ∨
      ∃ set, frags name = some set ∧ Reaches frags (name :: avoid) set f := by
  induction h with
  | field h => exact .inl (.field h)
  | under h _ ih => exact ih.imp (.under h) fun h ↦ h
  | inline h _ ih => exact ih.imp (.inline h) fun h ↦ h
  | @spread _ set other _ h havoid hset _ ih =>
    by_cases heq : other = name
    · subst heq
      exact .inr (ih.elim (fun h ↦ ⟨set, hset, h⟩) fun h ↦ h)
    · refine ih.imp (.spread h ?_ hset) fun h ↦ h
      rw [List.mem_cons, not_or]
      exact ⟨heq, havoid⟩

/-- **A fragment needs to be entered only once on the way to a field.** -/
theorem Reaches.once {name : String} {set : List Selection} (hset : frags name = some set)
    (h : Reaches frags avoid set f) : Reaches frags (name :: avoid) set f := by
  rcases h.avoid_or name with h | ⟨set', hset', h⟩
  · exact h
  · obtain rfl := Option.some.inj (hset.symm.trans hset')
    exact h

end Reaches

end ClassG.GraphQL
