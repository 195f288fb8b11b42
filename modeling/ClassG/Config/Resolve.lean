import Mathlib.Data.List.Sort
import ClassG.Config.Registry

/-!
# Resolution and updates of the settings

`Resolve` takes each setting from the highest tier that has a text for it which is not blank:
environment, database, seed, default.  `Update` puts a text that was written to the database into
the settings in effect, blank or not, one key after the other.
-/

set_option autoImplicit false

namespace ClassG.Config

/-! ## Settings in effect -/

/-- `Settings`: each value is one of the setting with the key. -/
structure Settings where
  values : GoMap String Value := .empty
  keyed : values.Owned fun key x ↦ defByKey.get key = some x.definition := by
    exact GoMap.Owned.empty _

namespace Settings

/-- `s.values[key]`. -/
def get (s : Settings) (key : String) : Option Value := s.values.get key

/-- `s.values[key] = x`. -/
def set (s : Settings) (key : String) (x : Value) (h : defByKey.get key = some x.definition) :
    Settings where
  values := s.values.put key x
  keyed := s.keyed.change fun k v hk ↦ by
    rw [GoMap.get_put] at hk
    split at hk
    · rename_i heq
      subst heq
      exact .inr (Option.some.inj hk ▸ h)
    · exact .inl ⟨hk, id⟩

theorem get_set (s : Settings) (key : String) (x : Value)
    (h : defByKey.get key = some x.definition) (k : String) :
    (s.set key x h).get k = if k = key then some x else s.get k :=
  GoMap.get_put ..

end Settings

theorem Settings.get_eq_none (s : Settings) {key : String} (h : defByKey.get key = none) :
    s.get key = none :=
  Option.eq_none_iff_forall_ne_some.mpr fun x hx ↦ by
    have hkey : defByKey.get key = some x.definition := s.keyed key x hx
    rw [h] at hkey
    cases hkey

/-! ## `Resolve` -/

/-- A tier goes before those below it, unless its text is blank. -/
def prefer (tier : Option String) (source : Source) (below : String × Source) : String × Source :=
  match tier with
  | some raw => if blank raw then below else (raw, source)
  | none => below

/-- The text that decides, and where it is from. -/
def Def.choose (d : Def) (db seed : GoMap String String) (getenv : String → String) :
    String × Source :=
  let chosen := prefer (db.get d.key) .db (prefer (seed.get d.key) .seed (d.default, .default))
  let v := GoString.trimSpace (getenv d.env)
  if d.env ≠ "" ∧ v ≠ "" then (v, .env) else chosen

def Source.text : Source → String
  | env => "env"
  | db => "db"
  | seed => "seed"
  | default => "default"

/-- A step of the loop over `Defs`: the problems so far, and the values. -/
def resolveOne (v : Verbs) (db seed : GoMap String String) (getenv : String → String)
    (acc : List String × Settings) (d : { d // d ∈ defs }) : List String × Settings :=
  let chosen := d.val.choose db seed getenv
  match h : d.val.read chosen.1 chosen.2 with
  | .error err =>
    (acc.1 ++ [d.val.key ++ " (" ++ chosen.2.text ++ "): " ++ err.text v], acc.2)
  | .ok x => (acc.1, acc.2.set d.val.key x (by rw [(Def.of_read h).1, defByKey_key d.property]))

/-- The problems with keys that no setting has. -/
def unknownKeys (v : Verbs) (src : String) (vals : GoMap String String) : List String :=
  ((vals.keys.filter fun k ↦ (defByKey.get k).isNone).insertionSort (· ≤ ·)).map fun k ↦
    src ++ ": unknown setting " ++ v.q k

theorem unknownKeys_eq_nil {v : Verbs} {src : String} {vals : GoMap String String} :
    unknownKeys v src vals = [] ↔ ∀ k, (vals.get k).isSome → (defByKey.get k).isSome := by
  rw [unknownKeys, List.map_eq_nil_iff, ← List.length_eq_zero_iff,
    (List.perm_insertionSort _ _).length_eq, List.length_eq_zero_iff, List.filter_eq_nil_iff]
  refine forall_congr' fun k ↦ ?_
  rw [GoMap.mem_keys, ← Option.isSome_iff_exists, Option.isNone_iff_eq_none, ← ne_eq,
    Option.ne_none_iff_isSome]

/-- `Resolve`: the settings, or the problems. -/
def resolve (v : Verbs) (db seed : GoMap String String) (getenv : String → String) :
    Except (List String) Settings :=
  let (problems, s) := defs.attach.foldl (resolveOne v db seed getenv) ([], {})
  let problems := problems ++ unknownKeys v "seed" seed ++ unknownKeys v "database" db
  if problems = [] then .ok s else .error (problems.insertionSort (· ≤ ·))

section Spec

variable {v : Verbs} {db seed : GoMap String String} {getenv : String → String}

/-- The setting is read from its tiers as `x`. -/
def Def.Reads (d : Def) (db seed : GoMap String String) (getenv : String → String) (x : Value) :
    Prop :=
  d.read (d.choose db seed getenv).1 (d.choose db seed getenv).2 = .ok x

theorem resolveOne_problems {acc : List String × Settings} {d : { d // d ∈ defs }} :
    (resolveOne v db seed getenv acc d).1 = [] ↔
      acc.1 = [] ∧ ∃ x, d.val.Reads db seed getenv x := by
  unfold resolveOne
  dsimp only
  split
  · rename_i err herr
    simp [Def.Reads, herr]
  · rename_i x hx
    simp [Def.Reads, hx]

theorem resolveOne_get {acc : List String × Settings} {d : { d // d ∈ defs }} {x : Value}
    (h : d.val.Reads db seed getenv x) :
    (resolveOne v db seed getenv acc d).2.get d.val.key = some x := by
  unfold resolveOne
  dsimp only
  split
  · rename_i err herr
    rw [Def.Reads, herr] at h
    cases h
  · rename_i x' hx'
    rw [Def.Reads, hx'] at h
    rw [Settings.get_set, if_pos rfl, Except.ok.inj h]

theorem resolveOne_get_of_ne {acc : List String × Settings} {d : { d // d ∈ defs }} {k : String}
    (h : k ≠ d.val.key) : (resolveOne v db seed getenv acc d).2.get k = acc.2.get k := by
  unfold resolveOne
  dsimp only
  split
  · rfl
  · rw [Settings.get_set, if_neg h]

theorem foldl_problems : ∀ {l : List { d // d ∈ defs }} {acc : List String × Settings},
    (l.foldl (resolveOne v db seed getenv) acc).1 = [] ↔
      acc.1 = [] ∧ ∀ d ∈ l, ∃ x, d.val.Reads db seed getenv x
  | [], acc => by simp
  | d :: l, acc => by
    rw [List.foldl_cons, foldl_problems, resolveOne_problems, and_assoc, List.forall_mem_cons]

/-- The loop leaves each setting with what it was read as. -/
theorem foldl_get {d : { d // d ∈ defs }} {x : Value} (hx : d.val.Reads db seed getenv x) :
    ∀ {l : List { d // d ∈ defs }} {acc : List String × Settings},
      d ∈ l ∨ acc.2.get d.val.key = some x →
      (l.foldl (resolveOne v db seed getenv) acc).2.get d.val.key = some x
  | [], acc, h => h.resolve_left (by simp)
  | e :: l, acc, h => by
    rw [List.foldl_cons]
    refine foldl_get hx ?_
    by_cases hkey : d.val.key = e.val.key
    · have heq : d.val = e.val := by
        have hd := defByKey_key d.property
        rw [hkey, defByKey_key e.property] at hd
        exact (Option.some.inj hd).symm
      obtain rfl := Subtype.ext heq
      exact .inr (resolveOne_get hx)
    · rw [resolveOne_get_of_ne hkey]
      refine h.imp_left fun hmem ↦ (List.mem_cons.mp hmem).resolve_left fun heq ↦ hkey ?_
      rw [heq]

/-- **`Resolve`.**  It succeeds if every setting is read and every key is known. -/
theorem exists_resolve_iff : (∃ s, resolve v db seed getenv = .ok s) ↔
    (∀ d ∈ defs, ∃ x, d.Reads db seed getenv x) ∧
      (∀ k, (seed.get k).isSome → (defByKey.get k).isSome) ∧
      ∀ k, (db.get k).isSome → (defByKey.get k).isSome := by
  have hprob : (defs.attach.foldl (resolveOne v db seed getenv) ([], {})).1 ++
      unknownKeys v "seed" seed ++ unknownKeys v "database" db = [] ↔
      (∀ d ∈ defs, ∃ x, d.Reads db seed getenv x) ∧
        (∀ k, (seed.get k).isSome → (defByKey.get k).isSome) ∧
        ∀ k, (db.get k).isSome → (defByKey.get k).isSome := by
    rw [List.append_eq_nil_iff, List.append_eq_nil_iff, unknownKeys_eq_nil, unknownKeys_eq_nil,
      foldl_problems, and_assoc]
    simp
  rw [← hprob, resolve]
  dsimp only
  split
  · rename_i h
    exact ⟨fun _ ↦ h, fun _ ↦ ⟨_, rfl⟩⟩
  · rename_i h
    exact ⟨fun ⟨s, hs⟩ ↦ (nomatch hs), fun hnil ↦ absurd hnil h⟩

/-- What it returns has each setting as it is read. -/
theorem get_of_resolve {s : Settings} (h : resolve v db seed getenv = .ok s) {d : Def}
    (hd : d ∈ defs) : ∃ x, d.Reads db seed getenv x ∧ s.get d.key = some x := by
  obtain ⟨x, hx⟩ := (exists_resolve_iff.mp ⟨s, h⟩).1 d hd
  refine ⟨x, hx, ?_⟩
  rw [resolve] at h
  dsimp only at h
  split at h
  · rw [← Except.ok.inj h]
    exact foldl_get (d := ⟨d, hd⟩) hx (.inl (List.mem_attach ..))
  · cases h

end Spec

/-! ## `Update` -/

/-- A step of the loop of `Update`: a key that is not known, or that the environment holds, is
passed over. -/
def Settings.store (s : Settings) (key raw : String) : Except ParseError Settings :=
  match s.get key with
  | none => .ok s
  | some current =>
    if current.source = .env then .ok s
    else
      match hd : defByKey.get key with
      | none => .ok s
      | some d =>
        match h : d.read raw .db with
        | .error err => .error err
        | .ok x => .ok (s.set key x (by rw [(Def.of_read h).1, hd]))

/-- `Update` of a map whose pairs are visited in this order: the settings it leaves, and the error,
if there is one.  Its text is the key, a colon and the error of `parse`. -/
def Settings.update (s : Settings) : List (String × String) →
    Settings × Option (String × ParseError)
  | [] => (s, none)
  | (key, raw) :: rest =>
    match s.store key raw with
    | .error err => (s, some (key, err))
    | .ok s' => s'.update rest

/-! ## Writes to the database -/

inductive ValidateError
  | unknown (key : String)
  | immutable (key : String)
  | parse (err : ParseError)
  deriving DecidableEq

def ValidateError.text (v : Verbs) : ValidateError → String
  | unknown key => "unknown setting " ++ v.q key
  | immutable key => v.q key ++ " is not changeable at runtime; it is read once at startup"
  | parse err => err.text v

/-- `ValidateOne`. -/
def validateOne (key raw : String) : Except ValidateError Unit :=
  match defByKey.get key with
  | none => .error (.unknown key)
  | some d =>
    if !d.isMutable then .error (.immutable key)
    else
      match d.parse raw with
      | .error err => .error (.parse err)
      | .ok _ => .ok ()

/-- The first loop of `PutMany`. -/
def validateAll (updates : GoMap String String) : List String → Except ValidateError Unit
  | [] => .ok ()
  | k :: keys =>
    match validateOne k ((updates.get k).getD "") with
    | .error err => .error err
    | .ok () => validateAll updates keys

/-- `PutMany`, on the map that is stored: every pair is validated before one is written. -/
def putMany (db updates : GoMap String String) : Except ValidateError (GoMap String String) :=
  let keys := updates.keys.insertionSort (· ≤ ·)
  match validateAll updates keys with
  | .error err => .error err
  | .ok () => .ok (keys.foldl (fun m k ↦ m.put k ((updates.get k).getD "")) db)

end ClassG.Config
