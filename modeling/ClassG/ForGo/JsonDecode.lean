import ClassG.ForGo.Strings
import ClassG.ForGo.Timestamp
import ClassG.JsonSchema

/-!
# Reading JSON into Go values

`json.Unmarshal` stores a document into a value that is there already.  `null` leaves the value as it
is, or makes a pointer nil; an object goes through its members one after the other, and each goes to
the field of its name, or to one of the same name in another case, or nowhere.  A document of another
type than the value is an error.

The document is one that is parsed already, with numbers as the `float64`s they denote.

What comes in some members need not show in all of the value.  `hide` is what does show, and
`map_members` says that it is what the other members make of it.
-/

set_option autoImplicit false

/-- A string of Go, as its bytes. -/
def GoBytes.ofString (s : String) : GoBytes :=
  s.toList.flatMap fun c ↦ (String.utf8EncodeChar c).map fun b ↦ Fin.ofNat 256 b.toNat

/-- Texts with the same bytes are the same. -/
theorem GoBytes.ofString_injective : Function.Injective GoBytes.ofString := by
  intro s t h
  have hbyte : Function.Injective fun b : UInt8 ↦ (Fin.ofNat 256 b.toNat : Fin 256) := by
    intro a b hab
    have hval : a.toNat % 256 = b.toNat % 256 := congrArg Fin.val hab
    rw [Nat.mod_eq_of_lt a.toNat_lt, Nat.mod_eq_of_lt b.toNat_lt] at hval
    exact UInt8.toNat_inj.mp hval
  have hbytes :
      s.toList.flatMap String.utf8EncodeChar = t.toList.flatMap String.utf8EncodeChar := by
    refine List.map_injective_iff.mpr hbyte ?_
    rw [List.map_flatMap, List.map_flatMap]
    exact h
  have harray : s.toList.utf8Encode = t.toList.utf8Encode := congrArg List.toByteArray hbytes
  rw [← String.toByteArray_ofList, ← String.toByteArray_ofList, String.ofList_toList,
    String.ofList_toList] at harray
  exact String.toByteArray_inj.mp harray

namespace GoJson

/-- Storing a document into a value, with `none` for an error. -/
abbrev Decoder (ν : Type) := ν → Json → Option ν

/-! ## Values -/

def float : Decoder ℚ
  | x, .null => some x
  | _, .num q => some q
  | _, _ => none

def int64 : Decoder ℤ
  | x, .null => some x
  | _, .num q => if q.den = 1 ∧ -2 ^ 63 ≤ q.num ∧ q.num < 2 ^ 63 then some q.num else none
  | _, _ => none

def string : Decoder String
  | x, .null => some x
  | _, .str s => some s
  | _, _ => none

def time : Decoder GoTime
  | x, .null => some x
  | _, .str s => GoTime.parseRFC3339Nano (.ofString s)
  | _, _ => none

variable {ν μ : Type}

/-- A pointer, where `zero` is what it is made to point at. -/
def pointer (zero : ν) (decode : Decoder ν) : Decoder (Option ν)
  | _, .null => some none
  | x, j => (decode (x.getD zero) j).map some

/-! ## Structs -/

/-- A field of a struct, under its name in the document. -/
def field (name : String) (get : ν → μ) (set : μ → ν → ν) (decode : Decoder μ) :
    String × Decoder ν := (name, fun x j ↦ (decode (get x) j).map fun y ↦ set y x)

/-- Two letters outside ASCII fold to one of ASCII. -/
def foldRune (c : Char) : Char :=
  if c = GoString.longS then 's' else if c = GoString.kelvin then 'k' else c

/-- The names are the same up to case. -/
def sameName (name key : String) : Bool := GoString.equalFold foldRune name key

/-- The field that a member goes to. -/
def fieldFor (fields : List (String × Decoder ν)) (key : String) : Option (String × Decoder ν) :=
  (fields.find? fun f ↦ f.1 = key) <|> fields.find? fun f ↦ sameName f.1 key

/-- Storing a member. -/
def member (fields : List (String × Decoder ν)) (x : ν) (m : String × Json) : Option ν :=
  match fieldFor fields m.1 with
  | some f => f.2 x m.2
  | none => some x

/-- Storing members one after the other. -/
def members (fields : List (String × Decoder ν)) (x : ν) (ms : List (String × Json)) : Option ν :=
  ms.foldlM (member fields) x

def struct (fields : List (String × Decoder ν)) : Decoder ν
  | x, .null => some x
  | x, .obj ms => members fields x ms
  | _, _ => none

/-! ## What shows of the value -/

theorem sameName_self (name : String) : sameName name name = true := decide_eq_true rfl

/-- The member goes to one of these fields, if to any. -/
def isOneOf (names : List String) (key : String) : Bool := names.any fun name ↦ sameName name key

/-- Storing comes to the same whether the value is hidden before or after. -/
def Hides (hide : ν → ν) (decode : Decoder ν) : Prop :=
  ∀ x j, (decode x j).map hide = decode (hide x) j

/-- A field that shows. -/
theorem hides_field {hide : ν → ν} {name : String} {get : ν → μ} {set : μ → ν → ν}
    {decode : Decoder μ} (hget : ∀ x, get (hide x) = get x)
    (hset : ∀ y x, hide (set y x) = set y (hide x)) :
    Hides hide (field name get set decode).2 := by
  intro x j
  show ((decode (get x) j).map fun y ↦ set y x).map hide =
    (decode (get (hide x)) j).map fun y ↦ set y (hide x)
  rw [hget, Option.map_map]
  exact congrArg (Option.map · _) (funext fun y ↦ hset y x)

variable {fields : List (String × Decoder ν)} {names : List String} {hide : ν → ν}

theorem mem_of_fieldFor {key : String} {f : String × Decoder ν} (h : fieldFor fields key = some f) :
    f ∈ fields ∧ sameName f.1 key = true := by
  rw [fieldFor, Option.orElse_eq_orElse, Option.orElse_eq_or, Option.or_eq_some_iff] at h
  rcases h with h | ⟨-, h⟩
  · have hname : f.1 = key := by simpa using List.find?_some h
    exact ⟨List.mem_of_find?_eq_some h, hname ▸ sameName_self f.1⟩
  · have hname := List.find?_some (p := fun f : String × Decoder ν ↦ sameName f.1 key) h
    exact ⟨List.mem_of_find?_eq_some h, hname⟩

/-- A member that goes to none of the hidden fields. -/
theorem map_member (hshown : ∀ f ∈ fields, f.1 ∉ names → Hides hide f.2) (x : ν)
    {m : String × Json} (hm : isOneOf names m.1 = false) :
    (member fields x m).map hide = member fields (hide x) m := by
  rw [member, member]
  rcases hf : fieldFor fields m.1 with _ | f
  · rfl
  · obtain ⟨hmem, hname⟩ := mem_of_fieldFor hf
    refine hshown f hmem (fun hhidden ↦ ?_) x m.2
    rw [isOneOf, List.any_eq_false] at hm
    exact hm f.1 hhidden hname

/-- **What shows of the value is what the other members make of it.** -/
theorem map_members (hshown : ∀ f ∈ fields, f.1 ∉ names → Hides hide f.2)
    {ms : List (String × Json)}
    (hhidden : ∀ m ∈ ms, isOneOf names m.1 = true → ∀ x, (member fields x m).map hide = some (hide x))
    (x : ν) :
    (members fields x ms).map hide =
      members fields (hide x) (ms.filter fun m ↦ !isOneOf names m.1) := by
  induction ms generalizing x with
  | nil => rfl
  | cons m ms ih =>
    obtain ⟨hm, hms⟩ := List.forall_mem_cons.mp hhidden
    rw [members, List.foldlM_cons]
    show ((member fields x m).bind (members fields · ms)).map hide = _
    rcases hkey : isOneOf names m.1
    · rw [List.filter_cons_of_pos (by rw [hkey]; rfl), members, List.foldlM_cons]
      show _ = (member fields (hide x) m).bind (members fields · _)
      rw [← map_member hshown x hkey]
      rcases member fields x m with _ | y
      · rfl
      · exact ih hms y
    · rw [List.filter_cons_of_neg (by rw [hkey]; decide)]
      obtain ⟨y, hy, heq⟩ := Option.map_eq_some_iff.mp (hm hkey x)
      rw [hy, Option.bind_some, ih hms, heq]

/-! ## What becomes of a field -/

section values

variable {α : Type} {g : ν → α} {name : String}

/-- The field `name` is the only one that changes `g`. -/
def OnlyIn (fields : List (String × Decoder ν)) (g : ν → α) (name : String) : Prop :=
  ∀ f ∈ fields, f.1 ≠ name → ∀ x j y, f.2 x j = some y → g y = g x

/-- A member that goes elsewhere. -/
theorem OnlyIn.member (h : OnlyIn fields g name) {m : String × Json}
    (hm : sameName name m.1 = false) {x y : ν} (hy : GoJson.member fields x m = some y) :
    g y = g x := by
  rw [GoJson.member] at hy
  rcases hf : fieldFor fields m.1 with _ | f
  · rw [hf] at hy
    rw [Option.some.inj hy]
  · rw [hf] at hy
    obtain ⟨hmem, hname⟩ := mem_of_fieldFor hf
    refine h f hmem ?_ x m.2 y hy
    rintro rfl
    rw [hname] at hm
    cases hm

theorem OnlyIn.members (h : OnlyIn fields g name) {ms : List (String × Json)}
    (hms : ∀ m ∈ ms, sameName name m.1 = false) {x y : ν}
    (hy : GoJson.members fields x ms = some y) : g y = g x := by
  induction ms generalizing x with
  | nil => rw [Option.some.inj hy]
  | cons m ms ih =>
    obtain ⟨hm, hms⟩ := List.forall_mem_cons.mp hms
    rw [GoJson.members, List.foldlM_cons] at hy
    obtain ⟨z, hz, hy⟩ := Option.bind_eq_some_iff.mp hy
    exact (ih hms hy).trans (h.member hm hz)

/-- **The last member of the name counts.** -/
theorem OnlyIn.last (h : OnlyIn fields g name) {pre post : List (String × Json)}
    {m : String × Json} (hpost : ∀ m ∈ post, sameName name m.1 = false) {v : α}
    (hm : ∀ x y, GoJson.member fields x m = some y → g y = v) {x y : ν}
    (hy : GoJson.members fields x (pre ++ m :: post) = some y) : g y = v := by
  rw [GoJson.members, List.foldlM_append] at hy
  obtain ⟨z, -, hz⟩ := Option.bind_eq_some_iff.mp hy
  rw [List.foldlM_cons] at hz
  obtain ⟨z', hz', hpost'⟩ := Option.bind_eq_some_iff.mp hz
  exact (h.members hpost hpost').trans (hm z z' hz')

end values

end GoJson
