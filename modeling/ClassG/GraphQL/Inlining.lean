import ClassG.GraphQL.Walk
import Mathlib.Logic.Relation

/-!
# Inlining fragments

Whether a query is written out or in fragments is not to make a difference to the limits.  `inlined`
is a selection set with every spread of a known fragment replaced by what is in it, all the way
down.  If no fragment is in itself that leaves no such spread (`inlined_unknown`), and a walk comes
to the same (`Walker.value_inlined`).
-/

set_option autoImplicit false

namespace ClassG.GraphQL

/-! ## Which fragments are spread -/

/-- A fragment is spread somewhere in a selection set. -/
inductive Mentions : List Selection → String → Prop
  | spread {sel : List Selection} {name : String} (h : .fragmentSpread name ∈ sel) :
      Mentions sel name
  | field {sel set : List Selection} {key other name : String} {arguments : List (String × Value)}
      (h : .field key other arguments set ∈ sel) (hm : Mentions set name) : Mentions sel name
  | inline {sel set : List Selection} {name : String} (h : .inlineFragment set ∈ sel)
      (hm : Mentions set name) : Mentions sel name

/-- A selection set of a field, somewhere in another. -/
inductive Under : List Selection → List Selection → Prop
  | here {sel set : List Selection} {key name : String} {arguments : List (String × Value)}
      (h : .field key name arguments set ∈ sel) : Under sel set
  | field {sel set inner : List Selection} {key name : String} {arguments : List (String × Value)}
      (h : .field key name arguments set ∈ sel) (hu : Under set inner) : Under sel inner
  | inline {sel set inner : List Selection} (h : .inlineFragment set ∈ sel)
      (hu : Under set inner) : Under sel inner

theorem Mentions.cons {sel : List Selection} {name : String} (h : Mentions sel name)
    (s : Selection) : Mentions (s :: sel) name := by
  cases h with
  | spread h => exact .spread (List.mem_cons_of_mem _ h)
  | field h hm => exact .field (List.mem_cons_of_mem _ h) hm
  | inline h hm => exact .inline (List.mem_cons_of_mem _ h) hm

theorem mentions_nil (name : String) : ¬Mentions [] name := by
  rintro (h | ⟨h, -⟩ | ⟨h, -⟩) <;> cases h

theorem mentions_field {key other name : String} {arguments : List (String × Value)}
    {set rest : List Selection} : Mentions (.field key other arguments set :: rest) name ↔
      Mentions set name ∨ Mentions rest name := by
  constructor
  · rintro (h | ⟨h, hm⟩ | ⟨h, hm⟩) <;> rcases List.mem_cons.mp h with heq | h
    · cases heq
    · exact .inr (.spread h)
    · cases heq
      exact .inl hm
    · exact .inr (.field h hm)
    · cases heq
    · exact .inr (.inline h hm)
  · rintro (hm | hm)
    · exact .field List.mem_cons_self hm
    · exact hm.cons _

theorem mentions_inline {name : String} {set rest : List Selection} :
    Mentions (.inlineFragment set :: rest) name ↔ Mentions set name ∨ Mentions rest name := by
  constructor
  · rintro (h | ⟨h, hm⟩ | ⟨h, hm⟩) <;> rcases List.mem_cons.mp h with heq | h
    · cases heq
    · exact .inr (.spread h)
    · cases heq
    · exact .inr (.field h hm)
    · cases heq
      exact .inl hm
    · exact .inr (.inline h hm)
  · rintro (hm | hm)
    · exact .inline List.mem_cons_self hm
    · exact hm.cons _

theorem mentions_spread {name other : String} {rest : List Selection} :
    Mentions (.fragmentSpread other :: rest) name ↔ other = name ∨ Mentions rest name := by
  constructor
  · rintro (h | ⟨h, hm⟩ | ⟨h, hm⟩) <;> rcases List.mem_cons.mp h with heq | h
    · cases heq
      exact .inl rfl
    · exact .inr (.spread h)
    · cases heq
    · exact .inr (.field h hm)
    · cases heq
    · exact .inr (.inline h hm)
  · rintro (rfl | hm)
    · exact .spread List.mem_cons_self
    · exact hm.cons _

theorem Under.cons {sel inner : List Selection} (h : Under sel inner) (s : Selection) :
    Under (s :: sel) inner := by
  cases h with
  | here h => exact .here (List.mem_cons_of_mem _ h)
  | field h hu => exact .field (List.mem_cons_of_mem _ h) hu
  | inline h hu => exact .inline (List.mem_cons_of_mem _ h) hu

theorem Under.mentions {sel inner : List Selection} {name : String} (h : Under sel inner)
    (hm : Mentions inner name) : Mentions sel name := by
  induction h with
  | here h => exact .field h hm
  | field h _ ih => exact .field h (ih hm)
  | inline h _ ih => exact .inline h (ih hm)

variable (frags : Fragments)

/-- One fragment is spread in another. -/
def Spreads (name other : String) : Prop := ∃ set, frags name = some set ∧ Mentions set other

/-- A fragment is spread in a selection set, or in a fragment that is, and so on. -/
def Reached (sel : List Selection) (name : String) : Prop :=
  ∃ first, Mentions sel first ∧ Relation.ReflTransGen (Spreads frags) first name

/-- No fragment that is reached is in itself. -/
def Acyclic (sel : List Selection) : Prop :=
  ∀ name, Reached frags sel name → ¬Relation.TransGen (Spreads frags) name name

/-- And none of them is on the path of the walk. -/
structure Clear (path : List String) (sel : List Selection) : Prop where
  acyclic : Acyclic frags sel
  fresh : ∀ name, Reached frags sel name → name ∉ path

variable {frags} {path : List String} {sel set : List Selection} {name : String}

theorem Clear.under (h : Clear frags path sel) (hu : Under sel set) : Clear frags path set := by
  have hreached : ∀ name, Reached frags set name → Reached frags sel name :=
    fun name ⟨first, hm, hpath⟩ ↦ ⟨first, hu.mentions hm, hpath⟩
  exact ⟨fun name hr ↦ h.acyclic name (hreached name hr),
    fun name hr ↦ h.fresh name (hreached name hr)⟩

theorem Clear.not_mem (h : Clear frags path sel) (hm : Mentions sel name) : name ∉ path :=
  h.fresh name ⟨name, hm, .refl⟩

/-- A fragment that is entered does not come again. -/
theorem Clear.enter (h : Clear frags path sel) (hm : Mentions sel name)
    (hset : frags name = some set) : Clear frags (name :: path) set := by
  have hreached : ∀ other, Reached frags set other → Reached frags sel other ∧
      Relation.TransGen (Spreads frags) name other := fun other ⟨first, hfirst, hpath⟩ ↦
    have hspread : Spreads frags name first := ⟨set, hset, hfirst⟩
    ⟨⟨name, hm, hpath.head hspread⟩, .head' hspread hpath⟩
  refine ⟨fun other hr ↦ h.acyclic other (hreached other hr).1, fun other hr ↦ ?_⟩
  rw [List.mem_cons, not_or]
  refine ⟨?_, h.fresh other (hreached other hr).1⟩
  rintro rfl
  exact h.acyclic other (hreached other hr).1 (hreached other hr).2

/-! ## Inlining -/

section replace

variable (sub : String → Option (List Selection))

mutual

/-- Replace the spreads that there is something for. -/
def Selection.replace : Selection → Selection
  | .field key name arguments set => .field key name arguments (replaceAll set)
  | .inlineFragment set => .inlineFragment (replaceAll set)
  | .fragmentSpread name =>
    match sub name with
    | some set => .inlineFragment set
    | none => .fragmentSpread name

/-- Replace them in a selection set. -/
def replaceAll : List Selection → List Selection
  | [] => []
  | s :: rest => s.replace :: replaceAll rest

end

end replace

variable (frags) in
/-- Replace the spreads of known fragments by what is in them, so many times. -/
def inlineSpreads : ℕ → List Selection → List Selection
  | 0, set => set
  | fuel + 1, set => replaceAll (fun name ↦ (frags name).map (inlineSpreads fuel)) set

/-- Every known spread replaced, as often as there are fragments. -/
def inlined (frags : GoMap String (List Selection)) (set : List Selection) : List Selection :=
  inlineSpreads frags.get frags.len set

theorem replaceAll_isEmpty (sub : String → Option (List Selection)) (set : List Selection) :
    (replaceAll sub set).isEmpty = set.isEmpty := by
  cases set with
  | nil => rfl
  | cons s rest => rw [replaceAll, List.isEmpty_cons, List.isEmpty_cons]

variable {sub sub' : String → Option (List Selection)}

/-- Only what is spread matters. -/
theorem replaceAll_congr (h : ∀ name, Mentions set name → sub name = sub' name) :
    replaceAll sub set = replaceAll sub' set := by
  induction set using selections_induction with
  | nil => rfl
  | field key other arguments set rest ihset ihrest =>
    rw [replaceAll, replaceAll, ihrest fun name hm ↦ h name (hm.cons _), Selection.replace,
      Selection.replace, ihset fun name hm ↦ h name (.field List.mem_cons_self hm)]
  | inline set rest ihset ihrest =>
    rw [replaceAll, replaceAll, ihrest fun name hm ↦ h name (hm.cons _), Selection.replace,
      Selection.replace, ihset fun name hm ↦ h name (.inline List.mem_cons_self hm)]
  | spread name rest ih =>
    rw [replaceAll, replaceAll, ih fun name hm ↦ h name (hm.cons _), Selection.replace,
      Selection.replace, h name (.spread List.mem_cons_self)]

theorem replaceAll_none (set : List Selection) : replaceAll (fun _ ↦ none) set = set := by
  induction set using selections_induction with
  | nil => rfl
  | field key other arguments set rest ihset ihrest =>
    rw [replaceAll, Selection.replace, ihset, ihrest]
  | inline set rest ihset ihrest => rw [replaceAll, Selection.replace, ihset, ihrest]
  | spread name rest ih => rw [replaceAll, Selection.replace, ih]

/-- What is spread afterwards had nothing to replace it, or is in what has replaced something. -/
theorem mentions_replaceAll (h : Mentions (replaceAll sub set) name) :
    Mentions set name ∧ sub name = none ∨
      ∃ other inner, Mentions set other ∧ sub other = some inner ∧ Mentions inner name := by
  have hcons : ∀ {rest : List Selection} (s : Selection),
      (Mentions rest name ∧ sub name = none ∨
        ∃ other inner, Mentions rest other ∧ sub other = some inner ∧ Mentions inner name) →
      Mentions (s :: rest) name ∧ sub name = none ∨
        ∃ other inner, Mentions (s :: rest) other ∧ sub other = some inner ∧ Mentions inner name :=
    fun s h ↦ h.imp (And.imp_left fun hm ↦ hm.cons s)
      fun ⟨other, inner, hm, h⟩ ↦ ⟨other, inner, hm.cons s, h⟩
  induction set using selections_induction with
  | nil => exact absurd h (mentions_nil name)
  | field key other arguments set rest ihset ihrest =>
    rw [replaceAll, Selection.replace, mentions_field] at h
    rcases h with h | h
    · refine (ihset h).imp (And.imp_left fun hm ↦ mentions_field.mpr (.inl hm)) ?_
      exact fun ⟨other, inner, hm, h⟩ ↦ ⟨other, inner, mentions_field.mpr (.inl hm), h⟩
    · exact hcons _ (ihrest h)
  | inline set rest ihset ihrest =>
    rw [replaceAll, Selection.replace, mentions_inline] at h
    rcases h with h | h
    · refine (ihset h).imp (And.imp_left fun hm ↦ mentions_inline.mpr (.inl hm)) ?_
      exact fun ⟨other, inner, hm, h⟩ ↦ ⟨other, inner, mentions_inline.mpr (.inl hm), h⟩
    · exact hcons _ (ihrest h)
  | spread other rest ih =>
    rw [replaceAll, Selection.replace] at h
    rcases hsub : sub other with _ | inner <;> rw [hsub] at h <;> dsimp only at h
    · rw [mentions_spread] at h
      rcases h with rfl | h
      · exact .inl ⟨.spread List.mem_cons_self, hsub⟩
      · exact hcons _ (ih h)
    · rw [mentions_inline] at h
      rcases h with h | h
      · exact .inr ⟨other, inner, .spread List.mem_cons_self, hsub, h⟩
      · exact hcons _ (ih h)

/-! ### It is done -/

section done

variable {frags : GoMap String (List Selection)}

/-- With no fragments left, nothing known is spread. -/
theorem Clear.unknown (h : Clear frags.get path set) (hleft : left frags path = 0)
    (hm : Mentions set name) : frags.get name = none := by
  rcases hget : frags.get name with _ | inner
  · rfl
  · have hlt := left_cons_lt hget (h.not_mem hm)
    omega

theorem Clear.inlineSpreads_eq (h : Clear frags.get path set) (hleft : left frags path = 0)
    (fuel : ℕ) : inlineSpreads frags.get fuel set = set := by
  cases fuel with
  | zero => rfl
  | succ fuel =>
    have hnone : ∀ name, Mentions set name →
        (frags.get name).map (inlineSpreads frags.get fuel) = none := fun name hm ↦ by
      rw [h.unknown hleft hm, Option.map_none]
    rw [inlineSpreads, replaceAll_congr hnone, replaceAll_none]

/-- More steps than there are fragments left change nothing. -/
theorem inlineSpreads_stable {fuel fuel' : ℕ} (h : Clear frags.get path set)
    (hfuel : left frags path ≤ fuel) (hfuel' : left frags path ≤ fuel') :
    inlineSpreads frags.get fuel set = inlineSpreads frags.get fuel' set := by
  induction fuel generalizing fuel' path set with
  | zero => rw [h.inlineSpreads_eq (by omega), h.inlineSpreads_eq (by omega)]
  | succ fuel ih =>
    cases fuel' with
    | zero => rw [h.inlineSpreads_eq (by omega), h.inlineSpreads_eq (by omega)]
    | succ fuel' =>
      rw [inlineSpreads, inlineSpreads]
      refine replaceAll_congr fun name hm ↦ ?_
      rcases hget : frags.get name with _ | inner
      · rfl
      · have hlt := left_cons_lt hget (h.not_mem hm)
        have hsame : inlineSpreads frags.get fuel inner = inlineSpreads frags.get fuel' inner :=
          ih (h.enter hm hget) (by omega) (by omega)
        rw [Option.map_some, Option.map_some, hsame]

/-- **Nothing known is spread any more.** -/
theorem inlineSpreads_unknown {fuel : ℕ} (h : Clear frags.get path set)
    (hfuel : left frags path ≤ fuel) (hm : Mentions (inlineSpreads frags.get fuel set) name) :
    frags.get name = none := by
  induction fuel generalizing path set with
  | zero => exact h.unknown (by omega) hm
  | succ fuel ih =>
    rw [inlineSpreads] at hm
    obtain ⟨-, hnone⟩ | ⟨other, inner, hother, hsome, hm⟩ := mentions_replaceAll hm
    · exact Option.map_eq_none_iff.mp hnone
    · obtain ⟨set', hget, rfl⟩ := Option.map_eq_some_iff.mp hsome
      have hlt := left_cons_lt hget (h.not_mem hother)
      exact ih (h.enter hother hget) (by omega) hm

/-! ## What a walk comes to -/

variable {V : Type} {W : Walker V} {before before' : Before V} {g g' : ℕ → String → V}

/-- Where a walk comes to the same at every spread, it does so altogether. -/
theorem valueAll_replaceAll
    (hspread : ∀ level name, Mentions set name → g level name =
      ((sub name).map (valueAll W before' g' level)).getD (g' level name))
    (hbefore : ∀ inner, Under set inner → ∀ name arguments,
      before name arguments inner = before' name arguments (replaceAll sub inner)) (level : ℕ) :
    valueAll W before g level set = valueAll W before' g' level (replaceAll sub set) := by
  induction set using selections_induction generalizing level with
  | nil => rfl
  | field key name arguments inner rest ihinner ihrest =>
    have hinner := ihinner (fun level name hm ↦ hspread level name (.field List.mem_cons_self hm))
      (fun set hu ↦ hbefore set (.field List.mem_cons_self hu)) (level + 1)
    have hrest := ihrest (fun level name hm ↦ hspread level name (hm.cons _))
      (fun set hu ↦ hbefore set (hu.cons _)) level
    rw [valueAll, replaceAll, valueAll, hrest, Selection.replace, Selection.value, Selection.value,
      hbefore inner (.here List.mem_cons_self), hinner,
      W.field_congr inner (replaceAll sub inner) _ _ (replaceAll_isEmpty sub inner).symm]
  | inline inner rest ihinner ihrest =>
    have hinner := ihinner (fun level name hm ↦ hspread level name (.inline List.mem_cons_self hm))
      (fun set hu ↦ hbefore set (.inline List.mem_cons_self hu)) level
    have hrest := ihrest (fun level name hm ↦ hspread level name (hm.cons _))
      (fun set hu ↦ hbefore set (hu.cons _)) level
    rw [valueAll, replaceAll, valueAll, hrest, Selection.replace, Selection.value, Selection.value,
      hinner]
  | spread name rest ih =>
    have hrest := ih (fun level name hm ↦ hspread level name (hm.cons _))
      (fun set hu ↦ hbefore set (hu.cons _)) level
    rw [valueAll, replaceAll, valueAll, hrest, Selection.replace, Selection.value,
      hspread level name (.spread List.mem_cons_self)]
    rcases sub name with _ | inner
    · rfl
    · dsimp only
      rw [Selection.value]
      rfl

/-- **A walk comes to what it comes to with the fragments inlined.** -/
theorem Walker.value_inlined {fuel : ℕ}
    (hbefore : ∀ inner, Acyclic frags.get inner → ∀ name arguments,
      before name arguments inner = before name arguments (inlined frags inner))
    (h : Clear frags.get path set) (hfuel : left frags path ≤ fuel) (level : ℕ) :
    W.value before frags.get fuel level path set =
      valueAll W before (fun level _ ↦ W.nothing level) level
        (inlineSpreads frags.get fuel set) := by
  induction fuel generalizing path set level with
  | zero => rw [Walker.value, inlineSpreads]
  | succ fuel ih =>
    rw [Walker.value, inlineSpreads]
    refine valueAll_replaceAll (fun level name hm ↦ ?_) (fun inner hu name arguments ↦ ?_) level
    · rcases hget : frags.get name with _ | inner
      · rw [walkFragment, enterFragment, if_neg (h.not_mem hm), hget]
        rfl
      · have hlt := left_cons_lt hget (h.not_mem hm)
        rw [walkFragment_of_some hget (h.not_mem hm), ih (h.enter hm hget) (by omega)]
        rfl
    · have hinner := h.under hu
      have hstable : inlineSpreads frags.get (fuel + 1) inner = inlined frags inner :=
        inlineSpreads_stable hinner hfuel (left_le frags path)
      rw [← inlineSpreads, hstable]
      exact hbefore inner hinner.acyclic name arguments

theorem valueAll_congr
    (hspread : ∀ level name, Mentions set name → g level name = g' level name)
    (hbefore : ∀ inner, Under set inner → ∀ name arguments,
      before name arguments inner = before' name arguments inner) (level : ℕ) :
    valueAll W before g level set = valueAll W before' g' level set := by
  calc valueAll W before g level set
    _ = valueAll W before' g' level (replaceAll (fun _ ↦ none) set) := by
      refine valueAll_replaceAll hspread (fun inner hu name arguments ↦ ?_) level
      rw [replaceAll_none, hbefore inner hu]
    _ = valueAll W before' g' level set := by rw [replaceAll_none]

/-- Where nothing known is spread, it does not matter what is known. -/
theorem Walker.value_of_unknown {fuel : ℕ}
    (hunknown : ∀ name, Mentions set name → frags.get name = none)
    (hbefore : ∀ inner, Under set inner → ∀ name arguments,
      before name arguments inner = before' name arguments inner) (level : ℕ) :
    W.value before frags.get fuel level path set =
      valueAll W before' (fun level _ ↦ W.nothing level) level set := by
  cases fuel with
  | zero => exact valueAll_congr (fun _ _ _ ↦ rfl) hbefore level
  | succ fuel =>
    refine valueAll_congr (fun level name hm ↦ ?_) hbefore level
    rw [walkFragment, enterFragment, hunknown name hm, Option.map_none, ite_self]

theorem Walker.value_of_left {fuel : ℕ} (hleft : left frags path = 0) (level : ℕ) :
    W.value before frags.get fuel level path set =
      valueAll W before (fun level _ ↦ W.nothing level) level set := by
  cases fuel with
  | zero => rfl
  | succ fuel =>
    refine valueAll_congr (fun level name _ ↦ ?_) (fun _ _ _ _ ↦ rfl) level
    rw [walkFragment, enterFragment]
    split_ifs with hname
    · rfl
    · rcases hget : frags.get name with _ | inner
      · rfl
      · have hlt := left_cons_lt hget hname
        omega

/-- More steps than there are fragments left come to the same. -/
theorem Walker.value_stable {fuel fuel' : ℕ}
    (hbefore : ∀ name arguments inner, before name arguments inner = before' name arguments inner)
    (hfuel : left frags path ≤ fuel) (hfuel' : left frags path ≤ fuel') (level : ℕ) :
    W.value before frags.get fuel level path set =
      W.value before' frags.get fuel' level path set := by
  obtain rfl : before = before' := funext fun name ↦ funext fun args ↦ funext (hbefore name args)
  induction fuel generalizing fuel' path set level with
  | zero => rw [Walker.value_of_left (by omega), Walker.value_of_left (by omega)]
  | succ fuel ih =>
    cases fuel' with
    | zero => rw [Walker.value_of_left (by omega), Walker.value_of_left (by omega)]
    | succ fuel' =>
      refine valueAll_congr (fun level name _ ↦ ?_) (fun _ _ _ _ ↦ rfl) level
      rw [walkFragment, walkFragment, enterFragment]
      split_ifs with hname
      · rfl
      · rcases hget : frags.get name with _ | inner
        · rfl
        · have hlt := left_cons_lt hget hname
          exact ih (by omega) (by omega) level

/-- **Nor does it matter where the fragments were.** -/
theorem Walker.value_inlined_eq {others : GoMap String (List Selection)} {path' : List String}
    {fuel fuel' : ℕ} (h : Clear frags.get path set) (hfuel : left frags path ≤ fuel)
    (hunknown : ∀ name, Mentions (inlined frags set) name → others.get name = none)
    (hinlined : ∀ inner, Acyclic frags.get inner → ∀ name arguments,
      before name arguments inner = before name arguments (inlined frags inner))
    (hbefore : ∀ inner, Under (inlined frags set) inner → ∀ name arguments,
      before' name arguments inner = before name arguments inner) (level : ℕ) :
    W.value before' others.get fuel' level path' (inlined frags set) =
      W.value before frags.get fuel level path set := by
  rw [Walker.value_inlined hinlined h hfuel, Walker.value_of_unknown hunknown hbefore, inlined,
    inlineSpreads_stable h hfuel (left_le frags path)]

/-! ## The walks of the handler -/

/-- Of the fragments that are spread, none is known. -/
def Unknown (frags : GoMap String (List Selection)) (set : List Selection) : Prop :=
  ∀ name, Mentions set name → frags.get name = none

section walks

variable {others : GoMap String (List Selection)} {path' : List String} {fuel fuel' : ℕ}

theorem countSelections_stable (hfuel : left frags path ≤ fuel) (hfuel' : left frags path ≤ fuel') :
    countSelections frags.get fuel path set = countSelections frags.get fuel' path set := by
  rw [countSelections_eq 0, countSelections_eq 0]
  exact Walker.value_stable (fun _ _ _ ↦ rfl) hfuel hfuel' 0

theorem depth_stable (hfuel : left frags path ≤ fuel) (hfuel' : left frags path ≤ fuel')
    (level : ℕ) : depth frags.get fuel level path set = depth frags.get fuel' level path set := by
  rw [depth_eq, depth_eq]
  exact Walker.value_stable (fun _ _ _ ↦ rfl) hfuel hfuel' level

theorem selectionSubtreeHas_stable (hfuel : left frags path ≤ fuel)
    (hfuel' : left frags path ≤ fuel') (name : String) :
    selectionSubtreeHas frags.get name fuel path set =
      selectionSubtreeHas frags.get name fuel' path set := by
  rw [selectionSubtreeHas_eq name 0, selectionSubtreeHas_eq name 0]
  exact Walker.value_stable (fun _ _ _ ↦ rfl) hfuel hfuel' 0

theorem checkFanOut_stable {wide wide' : List Selection → Bool}
    (hwide : ∀ set, wide set = wide' set) (hfuel : left frags path ≤ fuel)
    (hfuel' : left frags path ≤ fuel') (limit : List (String × Value) → ℤ) :
    checkFanOut frags.get wide limit fuel path set =
      checkFanOut frags.get wide' limit fuel' path set := by
  rw [checkFanOut_eq _ _ 0, checkFanOut_eq _ _ 0]
  refine Walker.value_stable (fun name arguments inner ↦ ?_) hfuel hfuel' 0
  rw [fanOutBefore, fanOutBefore, hwide]

theorem Clear.nil (h : Acyclic frags.get set) : Clear frags.get [] set :=
  ⟨h, fun _ _ ↦ List.not_mem_nil⟩

theorem Acyclic.unknown (h : Acyclic frags.get set) : Unknown frags (inlined frags set) :=
  fun _ hm ↦ inlineSpreads_unknown (Clear.nil h) (left_nil frags).le hm

/-- What is inlined in the fragments is inlined where they are spread. -/
theorem Acyclic.inlined_eq (h : Acyclic frags.get set) :
    inlined frags set = replaceAll (fun name ↦ (frags.get name).map (inlined frags)) set :=
  inlineSpreads_stable (Clear.nil h) (left_nil frags).le ((left_nil frags).le.trans (Nat.le_succ _))

theorem countSelections_inlined (h : Clear frags.get path set) (hfuel : left frags path ≤ fuel)
    (hunknown : Unknown others (inlined frags set)) :
    countSelections others.get fuel' path' (inlined frags set) =
      countSelections frags.get fuel path set := by
  rw [countSelections_eq 0, countSelections_eq 0]
  exact Walker.value_inlined_eq h hfuel hunknown (fun _ _ _ _ ↦ rfl) (fun _ _ _ _ ↦ rfl) 0

theorem depth_inlined (h : Clear frags.get path set) (hfuel : left frags path ≤ fuel)
    (hunknown : Unknown others (inlined frags set)) (level : ℕ) :
    depth others.get fuel' level path' (inlined frags set) =
      depth frags.get fuel level path set := by
  rw [depth_eq, depth_eq]
  exact Walker.value_inlined_eq h hfuel hunknown (fun _ _ _ _ ↦ rfl) (fun _ _ _ _ ↦ rfl) level

theorem selectionSubtreeHas_inlined (h : Clear frags.get path set)
    (hfuel : left frags path ≤ fuel) (hunknown : Unknown others (inlined frags set))
    (name : String) : selectionSubtreeHas others.get name fuel' path' (inlined frags set) =
      selectionSubtreeHas frags.get name fuel path set := by
  rw [selectionSubtreeHas_eq name 0, selectionSubtreeHas_eq name 0]
  exact Walker.value_inlined_eq h hfuel hunknown (fun _ _ _ _ ↦ rfl) (fun _ _ _ _ ↦ rfl) 0

/-- With whatever is looked for under `tracks`, as long as it is looked for so. -/
theorem checkFanOut_inlined {n n' : ℕ} (h : Clear frags.get path set)
    (hfuel : left frags path ≤ fuel) (hn : frags.len ≤ n)
    (hunknown : Unknown others (inlined frags set)) (name : String)
    (limit : List (String × Value) → ℤ) :
    checkFanOut others.get (selectionSubtreeHas others.get name n' []) limit fuel' path'
        (inlined frags set) =
      checkFanOut frags.get (selectionSubtreeHas frags.get name n []) limit fuel path set := by
  have hwide : ∀ inner, Acyclic frags.get inner →
      selectionSubtreeHas frags.get name n [] inner =
        selectionSubtreeHas frags.get name n [] (inlined frags inner) := fun inner hinner ↦
    (selectionSubtreeHas_inlined (Clear.nil hinner) ((left_nil frags).le.trans hn)
      (Acyclic.unknown hinner) name).symm
  have hsame : ∀ inner, Under (inlined frags set) inner →
      selectionSubtreeHas others.get name n' [] inner =
        selectionSubtreeHas frags.get name n [] inner := fun inner hu ↦ by
    have hknown := Acyclic.unknown h.acyclic
    rw [selectionSubtreeHas_eq name 0, selectionSubtreeHas_eq name 0,
      Walker.value_of_unknown (fun name hm ↦ hunknown name (hu.mentions hm)) fun _ _ _ _ ↦ rfl,
      Walker.value_of_unknown (fun name hm ↦ hknown name (hu.mentions hm)) fun _ _ _ _ ↦ rfl]
  rw [checkFanOut_eq _ _ 0, checkFanOut_eq _ _ 0]
  refine Walker.value_inlined_eq h hfuel hunknown (fun inner hinner name arguments ↦ ?_)
    (fun inner hu name arguments ↦ ?_) 0
  · rw [fanOutBefore, fanOutBefore, hwide inner hinner]
  · rw [fanOutBefore, fanOutBefore, hsame inner hu]

end walks

/-- **The walks terminate, restore the set, and do not see where the fragments are.** -/
theorem walks_inlined (frags : GoMap String (List Selection)) (set : List Selection)
    (seen : Finset String) (level : ℕ) (name : String) (limit : List (String × Value) → ℤ) :
    (∃ fields deepest found err, ∀ fuel, frags.len ≤ fuel →
      Seen.countSelections frags.get fuel set seen = some (fields, seen) ∧
      Seen.depth frags.get fuel set level seen = some (deepest, seen) ∧
      Seen.selectionSubtreeHas frags.get fuel set name seen = some (found, seen) ∧
      Seen.checkFanOut frags.get fuel limit set seen = some (err, seen)) ∧
    (Acyclic frags.get set → (∀ name, Reached frags.get set name → name ∉ seen) →
      Unknown frags (inlined frags set) ∧
      inlined frags set = replaceAll (fun name ↦ (frags.get name).map (inlined frags)) set ∧
      ∀ (others : GoMap String (List Selection)) (fuel fuel' : ℕ),
        Unknown others (inlined frags set) → frags.len ≤ fuel → others.len ≤ fuel' →
        Seen.countSelections others.get fuel' (inlined frags set) seen =
          Seen.countSelections frags.get fuel set seen ∧
        Seen.depth others.get fuel' (inlined frags set) level seen =
          Seen.depth frags.get fuel set level seen ∧
        Seen.selectionSubtreeHas others.get fuel' (inlined frags set) name seen =
          Seen.selectionSubtreeHas frags.get fuel set name seen ∧
        Seen.checkFanOut others.get fuel' limit (inlined frags set) seen =
          Seen.checkFanOut frags.get fuel limit set seen) := by
  have hseen : ∀ name, name ∈ seen ↔ name ∈ seen.toList := fun name ↦ Finset.mem_toList.symm
  have hleft : ∀ (frags : GoMap String (List Selection)) {fuel : ℕ}, frags.len ≤ fuel →
      left frags seen.toList ≤ fuel := fun frags _ hfuel ↦ (left_le frags _).trans hfuel
  constructor
  · refine ⟨countSelections frags.get frags.len seen.toList set,
      depth frags.get frags.len level seen.toList set,
      selectionSubtreeHas frags.get name frags.len seen.toList set,
      checkFanOut frags.get (selectionSubtreeHas frags.get "detections" frags.len []) limit
        frags.len seen.toList set, fun fuel hfuel ↦ ?_⟩
    have hlen := hleft frags le_rfl
    have hwide : ∀ set, selectionSubtreeHas frags.get "detections" fuel [] set =
        selectionSubtreeHas frags.get "detections" frags.len [] set := fun set ↦
      selectionSubtreeHas_stable (left_nil frags ▸ hfuel) (left_nil frags).le _
    rw [Seen.countSelections_eq (hleft frags hfuel) hseen,
      Seen.depth_eq (hleft frags hfuel) hseen,
      Seen.selectionSubtreeHas_eq (hleft frags hfuel) hseen,
      Seen.checkFanOut_eq (hleft frags hfuel) hseen set hfuel,
      countSelections_stable (hleft frags hfuel) hlen, depth_stable (hleft frags hfuel) hlen,
      selectionSubtreeHas_stable (hleft frags hfuel) hlen,
      checkFanOut_stable hwide (hleft frags hfuel) hlen]
    exact ⟨rfl, rfl, rfl, rfl⟩
  · intro hacyclic hfresh
    have hclear : Clear frags.get seen.toList set :=
      ⟨hacyclic, fun name hr ↦ (hseen name).not.mp (hfresh name hr)⟩
    refine ⟨Acyclic.unknown hacyclic, Acyclic.inlined_eq hacyclic,
      fun others fuel fuel' hunknown hfuel hfuel' ↦ ?_⟩
    refine ⟨?_, ?_, ?_, ?_⟩
    · rw [Seen.countSelections_eq (hleft others hfuel') hseen,
        Seen.countSelections_eq (hleft frags hfuel) hseen,
        countSelections_inlined hclear (hleft frags hfuel) hunknown]
    · rw [Seen.depth_eq (hleft others hfuel') hseen, Seen.depth_eq (hleft frags hfuel) hseen,
        depth_inlined hclear (hleft frags hfuel) hunknown]
    · rw [Seen.selectionSubtreeHas_eq (hleft others hfuel') hseen,
        Seen.selectionSubtreeHas_eq (hleft frags hfuel) hseen,
        selectionSubtreeHas_inlined hclear (hleft frags hfuel) hunknown]
    · rw [Seen.checkFanOut_eq (hleft others hfuel') hseen _ hfuel',
        Seen.checkFanOut_eq (hleft frags hfuel) hseen _ hfuel,
        checkFanOut_inlined hclear (hleft frags hfuel) hfuel hunknown]

end done

/-- Fragments that only spread others of a lower rank are in no cycle. -/
theorem Acyclic.of_rank {frags : Fragments} (rank : String → ℕ)
    (h : ∀ name other, Spreads frags name other → rank other < rank name)
    (sel : List Selection) : Acyclic frags sel := by
  intro name _ hcycle
  have hrank : ∀ {other}, Relation.TransGen (Spreads frags) name other → rank other < rank name :=
    fun hpath ↦ by
      induction hpath with
      | single hs => exact h _ _ hs
      | tail _ hs ih => exact (h _ _ hs).trans ih
  exact absurd (hrank hcycle) (lt_irrefl _)

/-- The detections of the tracks, in two fragments; a third is missing. -/
def latest : GoMap String (List Selection) :=
  (GoMap.empty.put "Latest" [.field "tracks" "tracks" [] [.fragmentSpread "Seen"]]).put "Seen"
    [.field "detections" "detections" [] [.fragmentSpread "Missing"]]

theorem latest_acyclic (sel : List Selection) : Acyclic latest.get sel := by
  refine Acyclic.of_rank (fun name ↦ if name = "Latest" then 2 else if name = "Seen" then 1 else 0)
    ?_ sel
  rintro name other ⟨set, hset, hm⟩
  rw [latest, GoMap.get_put, GoMap.get_put, GoMap.get_empty] at hset
  split_ifs at hset with hseen hlatest
  · cases hset
    obtain rfl : other = "Missing" := by
      simpa [mentions_field, mentions_spread, mentions_nil, eq_comm] using hm
    simp [hseen]
  · cases hset
    obtain rfl : other = "Seen" := by
      simpa [mentions_field, mentions_spread, mentions_nil, eq_comm] using hm
    simp [hlatest]

theorem walks_inlined_latest (limit : List (String × Value) → ℤ) :
    Seen.checkFanOut latest.get 2 limit [.fragmentSpread "Latest"] ∅ =
      Seen.checkFanOut GoMap.empty.get 0 limit [.inlineFragment [.field "tracks" "tracks" []
        [.inlineFragment [.field "detections" "detections" [] [.fragmentSpread "Missing"]]]]] ∅ := by
  have h := (walks_inlined latest [.fragmentSpread "Latest"] ∅ 0 "detections" limit).2
    (latest_acyclic _) fun name _ ↦ Finset.notMem_empty name
  exact (h.2.2 .empty 2 0 (fun name _ ↦ GoMap.get_empty name) le_rfl le_rfl).2.2.2.symm

end ClassG.GraphQL
