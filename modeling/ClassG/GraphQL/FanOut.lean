import ClassG.GraphQL.Cost

/-!
# The gate on fan-out

A walk enters a fragment only if it is not on its path.  It still comes to every field that the
executor comes to (`Reaches.once`), so whatever shape a document has, each `tracks` that is executed
over `detections` was checked with the limit that the gate makes of its arguments.  That limit is the
one it runs with, but for a variable that takes its declared default.
-/

set_option autoImplicit false

namespace ClassG.GraphQL

/-! ## What a walk comes to -/

/-- How many fragments a walk may still enter. -/
def left (frags : GoMap String (List Selection)) (seen : List String) : ℕ :=
  (frags.keys.filter (· ∉ seen)).length

theorem left_nil (frags : GoMap String (List Selection)) : left frags [] = frags.len := by
  simp [left, GoMap.keys, GoMap.len, AList.keys, List.keys]

theorem left_le (frags : GoMap String (List Selection)) (seen : List String) :
    left frags seen ≤ frags.len := by
  rw [← left_nil, left, left]
  refine (List.Sublist.length_le ?_)
  exact List.monotone_filter_right _ fun name _ ↦ by simp

/-- A fragment that is entered is one that is left. -/
theorem left_cons_lt {frags : GoMap String (List Selection)} {seen : List String} {name : String}
    {set : List Selection} (hset : frags.get name = some set) (hseen : name ∉ seen) :
    left frags (name :: seen) < left frags seen := by
  have hkey : name ∈ frags.keys := GoMap.mem_keys.mpr ⟨set, hset⟩
  have hsub : frags.keys.filter (· ∉ name :: seen) =
      (frags.keys.filter (· ∉ seen)).filter (· ≠ name) := by
    rw [List.filter_filter]
    refine List.filter_congr fun k _ ↦ ?_
    simp [not_or]
  rw [left, left, hsub]
  refine lt_of_le_of_ne (List.length_filter_le _ _) fun heq ↦ ?_
  have hall := List.length_filter_eq_length_iff.mp heq
  have hmem : name ∈ frags.keys.filter (· ∉ seen) := by simpa using ⟨hkey, hseen⟩
  simpa using hall name hmem

theorem walkFragment_of_some {α : Type} {frags : Fragments} {seen : List String} {name : String}
    {set : List Selection} (hset : frags name = some set) (hseen : name ∉ seen) (nothing : α)
    (walk : List String → List Selection → α) :
    walkFragment frags nothing walk seen name = walk (name :: seen) set := by
  rw [walkFragment, enterFragment, if_neg hseen, hset]
  rfl

theorem hasAny_of_mem {spread : String → Bool} {name : String} {s : Selection}
    {set : List Selection} (h : s ∈ set) (hs : s.has spread name = true) :
    hasAny spread name set = true := by
  induction set with
  | nil => exact absurd h List.not_mem_nil
  | cons t rest ih =>
    rw [hasAny, Bool.or_eq_true]
    rcases List.mem_cons.mp h with rfl | h
    · exact .inl hs
    · exact .inr (ih h)

/-- A walk finds what it finds in the fragments that it enters. -/
theorem hasAny_of_reaches {frags : Fragments} {seen : List String} {spread : String → Bool}
    {set : List Selection} {f : Field} (h : Reaches frags seen set f)
    (hspread : ∀ name inner, name ∉ seen → frags name = some inner → Reaches frags seen inner f →
      spread name = true) : hasAny spread f.name set = true := by
  induction h with
  | field h => exact hasAny_of_mem h (by simp [Selection.has])
  | under h _ ih => exact hasAny_of_mem h (by simp [Selection.has, ih hspread])
  | inline h _ ih => exact hasAny_of_mem h (by simp [Selection.has, ih hspread])
  | spread h havoid hset hf _ => exact hasAny_of_mem h (hspread _ _ havoid hset hf)

/-- **`selectionSubtreeHas` finds every field there is.** -/
theorem selectionSubtreeHas_of_reaches {frags : GoMap String (List Selection)} {fuel : ℕ}
    {seen : List String} (hfuel : left frags seen ≤ fuel) {set : List Selection} {f : Field}
    (h : Reaches frags.get seen set f) :
    selectionSubtreeHas frags.get f.name fuel seen set = true := by
  induction fuel generalizing seen set with
  | zero =>
    refine hasAny_of_reaches h fun name inner hseen hset _ ↦ ?_
    exact absurd (left_cons_lt hset hseen) (by omega)
  | succ fuel ih =>
    refine hasAny_of_reaches h fun name inner hseen hset hf ↦ ?_
    have hlt := left_cons_lt hset hseen
    rw [walkFragment_of_some hset hseen]
    exact ih (by omega) (hf.once hset)

section Check

variable {spread : String → Except String Unit} {wide : List Selection → Bool}
  {limit : List (String × Value) → ℤ}

theorem checkFanOut_of_mem {s : Selection} {set : List Selection} (h : s ∈ set)
    (hok : checkFanOutAll spread wide limit set = .ok ()) :
    s.checkFanOut spread wide limit = .ok () := by
  induction set with
  | nil => exact absurd h List.not_mem_nil
  | cons t rest ih =>
    rw [checkFanOutAll] at hok
    cases ht : t.checkFanOut spread wide limit with
    | error e =>
      rw [ht] at hok
      cases hok
    | ok u =>
      rw [ht] at hok
      rcases List.mem_cons.mp h with rfl | h
      · exact ht
      · exact ih h hok

/-- A field that is not refused: it is within the limit, and so is what is below it. -/
theorem checkFanOut_field {key name : String} {arguments : List (String × Value)}
    {set : List Selection}
    (hok : (Selection.field key name arguments set).checkFanOut spread wide limit = .ok ()) :
    (name = "tracks" → wide set = true → limit arguments ≤ maxTracksWithDetections) ∧
      checkFanOutAll spread wide limit set = .ok () := by
  rw [Selection.checkFanOut] at hok
  split at hok
  · cases hok
  · rename_i hnot
    exact ⟨fun hname hover ↦ not_lt.mp fun hlt ↦ hnot ⟨hname, hover, hlt⟩, hok⟩

/-- A walk checks what it checks in the fragments that it enters. -/
theorem limit_le_of_reaches {frags : Fragments} {seen : List String} {set : List Selection}
    {f : Field} (h : Reaches frags seen set f) (hok : checkFanOutAll spread wide limit set = .ok ())
    (hname : f.name = "tracks") (hover : wide f.selectionSet = true)
    (hspread : ∀ name inner, name ∉ seen → frags name = some inner → Reaches frags seen inner f →
      spread name = .ok () → limit f.arguments ≤ maxTracksWithDetections) :
    limit f.arguments ≤ maxTracksWithDetections := by
  induction h with
  | field h => exact (checkFanOut_field (checkFanOut_of_mem h hok)).1 hname hover
  | under h _ ih =>
    exact ih (checkFanOut_field (checkFanOut_of_mem h hok)).2 hname hover hspread
  | inline h _ ih => exact ih (checkFanOut_of_mem h hok) hname hover hspread
  | spread h havoid hset hf _ => exact hspread _ _ havoid hset hf (checkFanOut_of_mem h hok)

/-- **`checkFanOut` checks every field there is.** -/
theorem limit_le_of_checkFanOut {frags : GoMap String (List Selection)} {fuel : ℕ}
    {seen : List String} (hfuel : left frags seen ≤ fuel) {set : List Selection} {f : Field}
    (h : Reaches frags.get seen set f)
    (hok : checkFanOut frags.get wide limit fuel seen set = .ok ()) (hname : f.name = "tracks")
    (hover : wide f.selectionSet = true) : limit f.arguments ≤ maxTracksWithDetections := by
  induction fuel generalizing seen set with
  | zero =>
    refine limit_le_of_reaches h hok hname hover fun name inner hseen hset _ _ ↦ ?_
    exact absurd (left_cons_lt hset hseen) (by omega)
  | succ fuel ih =>
    refine limit_le_of_reaches h hok hname hover fun name inner hseen hset hf hspread ↦ ?_
    have hlt := left_cons_lt hset hseen
    rw [walkFragment_of_some hset hseen] at hspread
    exact ih (by omega) (hf.once hset) hspread

end Check

theorem checkOperation_of_mem {overflow : ℚ → ℤ} {frags : GoMap String (List Selection)}
    {vars : Variables} {op : Operation} {defs : List Definition} (h : .operation op ∈ defs)
    (hok : checkDefinitions overflow frags vars defs = .ok ()) :
    checkOperation overflow frags vars op = .ok () := by
  induction defs with
  | nil => exact absurd h List.not_mem_nil
  | cons d rest ih =>
    cases d with
    | fragment name set =>
      exact ih ((List.mem_cons.mp h).resolve_left fun heq ↦ nomatch heq) hok
    | operation other =>
      rw [checkDefinitions] at hok
      cases hother : checkOperation overflow frags vars other with
      | error e =>
        rw [hother] at hok
        cases hok
      | ok u =>
        rw [hother] at hok
        rcases List.mem_cons.mp h with heq | h
        · cases heq
          exact hother
        · exact ih h hok

/-- **What the gate accepts**: the limit that it makes of the arguments of a field is small enough,
if the field is over detections. -/
theorem limitArgument_le {overflow : ℚ → ℤ} {doc : Document} {vars : Variables} {op : Operation}
    (hop : .operation op ∈ doc) (hok : checkCost overflow doc vars = .ok ()) {f d : Field}
    (hf : Reaches (fragments doc).get [] op.selectionSet f) (hname : f.name = "tracks")
    (hd : Reaches (fragments doc).get [] f.selectionSet d) (hdname : d.name = "detections") :
    limitArgument overflow f.arguments vars ≤ maxTracksWithDetections := by
  have hcheck := checkOperation_of_mem hop hok
  rw [checkOperation] at hcheck
  split at hcheck
  · cases hcheck
  split at hcheck
  · cases hcheck
  have hfuel : left (fragments doc) [] ≤ (fragments doc).len := (left_nil _).le
  exact limit_le_of_checkFanOut hfuel hf hcheck hname
    (hdname ▸ selectionSubtreeHas_of_reaches hfuel hd)

/-! ## Limits -/

/-- The limit is that of a variable which is not given, and whose declared default is larger than the
gate allows, and not too large for the resolver. -/
def FallsBack (op : Operation) (vars : Variables) (f : Field) : Prop :=
  ∃ (name : String) (d : VariableDefinition) (nonNull : Bool) (n : ℤ),
    f.argument "limit" = some (.var name) ∧ vars.get name = none ∧
      (op.variableDefinitions.find? fun d ↦ d.name = name) = some d ∧ d.type = .int nonNull ∧
      d.default = some (.int n) ∧ maxTracksWithDetections < n ∧ n ≤ maxLimit

theorem coerceInt_eq_some {n : ℤ} {c : Coerced} (h : coerceInt n = some c) :
    c = .int n ∧ IsInt n := by
  rw [coerceInt] at h
  split at h
  · rename_i hn
    exact ⟨(Option.some.inj h).symm, hn⟩
  · cases h

/-- A page that the resolver does not refuse. -/
theorem limitArg_eq_some {c : Option Coerced} {l : ℤ} (h : limitArg c = some l) :
    l = defaultLimit ∨ c = some (.int l) ∧ 0 < l ∧ l ≤ maxLimit := by
  match c with
  | none => exact .inl (Option.some.inj h).symm
  | some .null => exact .inl (Option.some.inj h).symm
  | some (.int n) =>
    rw [limitArg, normaliseLimit] at h
    split at h
    · cases h
    split at h
    · cases h
    obtain rfl := Option.some.inj h
    exact .inr ⟨rfl, by omega, by omega⟩

/-- A literal is the limit that the gate sees. -/
theorem limitOf_int (overflow : ℚ → ℤ) (vars : Variables) {n l : ℤ}
    (h : coerceInt n = some (.int l)) (hpos : 0 < l) : limitOf overflow vars (some (.int n)) = l := by
  obtain ⟨hint, hn⟩ := coerceInt_eq_some h
  cases hint
  have hatoi : atoi n = some n := if_pos ⟨by linarith [hn.1], by linarith [hn.2]⟩
  simp only [limitOf, hatoi, if_pos hpos]

/-- So is the value of a variable. -/
theorem limitOf_var (overflow : ℚ → ℤ) {vars : Variables} {name : String} {v : Variable} {l : ℤ}
    (hvar : vars.get name = some v) (h : v.coerce = some (.int l)) (hpos : 0 < l) :
    limitOf overflow vars (some (.var name)) = l := by
  cases v with
  | null => cases h
  | other => cases h
  | int n =>
    obtain ⟨hint, -⟩ := coerceInt_eq_some h
    cases hint
    simp only [limitOf, hvar, if_pos hpos]
  | number q =>
    rw [Variable.coerce] at h
    split at h
    · rename_i hden
      obtain ⟨hint, hn⟩ := coerceInt_eq_some h
      obtain rfl : l = q.num := by simpa using hint
      have hfloor : ⌊q⌋ = q.num := by
        rw [← (Rat.den_eq_one_iff q).mp hden]
        simp
      simp only [limitOf, hvar, if_pos (Rat.num_pos.mp hpos)]
      rw [truncate, hfloor, if_pos (by linarith [hn.2])]
    · cases h

/-- An integer comes from the variables object, or it is the declared default of a variable that is
not there. -/
theorem coerceVariable_eq_some {d : VariableDefinition} {v : Option Variable} {l : ℤ}
    (h : coerceVariable d v = some (some (.int l))) : ∃ nonNull, d.type = .int nonNull ∧
      ((∃ w, v = some w ∧ w.coerce = some (.int l)) ∨ v = none ∧ d.default = some (.int l)) := by
  rw [coerceVariable] at h
  split at h
  · cases h
  rename_i nonNull htype
  refine ⟨nonNull, htype, ?_⟩
  split at h
  · rename_i w
    obtain ⟨c, hc, heq⟩ := Option.map_eq_some_iff.mp h
    cases heq
    exact .inl ⟨w, rfl, (Option.filter_eq_some_iff.mp hc).1⟩
  · split at h
    · rename_i lit hdefault
      obtain ⟨c, hc, heq⟩ := Option.map_eq_some_iff.mp h
      cases heq
      have hcoerce := (Option.filter_eq_some_iff.mp hc).1
      cases lit with
      | int n =>
        obtain ⟨hint, -⟩ := coerceInt_eq_some hcoerce
        cases hint
        exact .inr ⟨rfl, hdefault⟩
      | _ => cases hcoerce
    · split at h <;> cases h

/-- **A limit that is given is the one that the gate sees.** -/
theorem limitOf_of_coerced {overflow : ℚ → ℤ} {op : Operation} {vars : Variables} {f : Field}
    {l : ℤ} (h : coerceArgument op vars (f.argument "limit") = some (some (.int l))) (hpos : 0 < l)
    (hle : l ≤ maxLimit) (hnot : ¬FallsBack op vars f) :
    limitOf overflow vars (f.argument "limit") = l ∨ l ≤ maxTracksWithDetections := by
  cases harg : f.argument "limit" with
  | none =>
    rw [harg] at h
    cases h
  | some v =>
    rw [harg] at h
    cases v with
    | null => cases h
    | other => cases h
    | int n =>
      obtain ⟨c, hc, heq⟩ := Option.map_eq_some_iff.mp h
      cases heq
      exact .inl (limitOf_int overflow vars hc hpos)
    | var name =>
      rw [coerceArgument] at h
      split at h
      · cases h
      rename_i d hd
      obtain ⟨nonNull, htype, ⟨w, hvar, hcoerce⟩ | ⟨hvar, hdefault⟩⟩ := coerceVariable_eq_some h
      · exact .inl (limitOf_var overflow hvar hcoerce hpos)
      · refine .inr (not_lt.mp fun hlt ↦ hnot ?_)
        exact ⟨name, d, nonNull, l, harg, hvar, hd, htype, hdefault, hlt, hle⟩

/-- A default that is larger than the gate allows is the limit. -/
theorem effectiveLimit_of_fallsBack {op : Operation} {vars : Variables} {f : Field}
    (h : FallsBack op vars f) : ∃ l, effectiveLimit op vars f = some l ∧
      maxTracksWithDetections < l := by
  obtain ⟨name, d, nonNull, n, harg, hvar, hd, htype, hdefault, hlt, hle⟩ := h
  refine ⟨n, ?_, hlt⟩
  have hlt' : 100 < n := hlt
  have hle' : n ≤ 1000 := hle
  have hint : coerceInt n = some (.int n) := if_pos ⟨by omega, by omega⟩
  have hcoerce : coerceArgument op vars (f.argument "limit") = some (some (.int n)) := by
    rw [harg, coerceArgument, hd]
    simp only [coerceVariable, htype, hvar, hdefault, Value.coerce, hint]
    simp [Option.filter]
  rw [effectiveLimit, hcoerce]
  show normaliseLimit n = some n
  rw [normaliseLimit, if_neg (by omega), if_neg (not_lt.mpr hle)]

/-! ## The gate -/

/-- A `tracks` that is executed over detections. -/
def FansOut (frags : Fragments) (group : List Field) : Prop :=
  ∃ f ∈ group, f.name = "tracks" ∧
    ∃ d, Reaches frags [] f.selectionSet d ∧ d.name = "detections"

/-- The limit that fields which are executed as one run with: that of the first of them. -/
def groupLimit (op : Operation) (vars : Variables) (group : List Field) : Option ℤ :=
  group.head?.bind (effectiveLimit op vars)

theorem Executed.merged {frags : Fragments} {op : Operation} {group : List Field}
    (h : Executed frags op group) : Merged group := by
  cases h with
  | root hgroup _ => exact hgroup
  | under _ hgroup _ => exact hgroup

/-- Fields that are executed as one have one limit. -/
theorem groupLimit_eq {op : Operation} {vars : Variables} {group : List Field}
    (hgroup : Merged group) {f : Field} (hf : f ∈ group) :
    groupLimit op vars group = effectiveLimit op vars f := by
  cases group with
  | nil => exact absurd rfl hgroup.nonempty
  | cons g rest =>
    show effectiveLimit op vars g = effectiveLimit op vars f
    rw [effectiveLimit, effectiveLimit, (hgroup.same g List.mem_cons_self f hf).2.2]

/-- **The gate on fan-out.**  Of a query that the gate accepts, every `tracks` that is executed over
detections runs with a limit that the gate allows, just if none of them takes a larger limit from the
declared default of a variable that is not given. -/
theorem fanOut_le_iff {overflow : ℚ → ℤ} {doc : Document} {vars : Variables}
    (hok : checkCost overflow doc vars = .ok ()) {op : Operation} (hop : .operation op ∈ doc) :
    (∀ group, Executed (fragments doc).get op group → FansOut (fragments doc).get group →
        ∀ l, groupLimit op vars group = some l → l ≤ maxTracksWithDetections) ↔
      ∀ group, Executed (fragments doc).get op group → FansOut (fragments doc).get group →
        ∀ f ∈ group, ¬FallsBack op vars f := by
  constructor
  · intro h group hexec hfan f hf hback
    obtain ⟨l, hl, hlt⟩ := effectiveLimit_of_fallsBack hback
    exact absurd (h group hexec hfan l ((groupLimit_eq hexec.merged hf).trans hl)) (not_le.mpr hlt)
  · intro h group hexec hfan l hl
    obtain ⟨f, hf, hname, d, hd, hdname⟩ := hfan
    have hgate := limitArgument_le hop hok (hexec.reaches f hf) hname hd hdname
    rw [groupLimit_eq hexec.merged hf, effectiveLimit, Option.bind_eq_some_iff] at hl
    obtain ⟨c, hc, hlimit⟩ := hl
    have hnot := h group hexec ⟨f, hf, hname, d, hd, hdname⟩ f hf
    rcases limitArg_eq_some hlimit with rfl | ⟨rfl, hpos, hle⟩
    · decide
    · exact (limitOf_of_coerced hc hpos hle hnot).elim (fun heq ↦ heq.symm.le.trans hgate) fun h ↦ h

/-- `{ tracks(limit: $n) { tracks { detections } } }`, as the selection of an operation. -/
def wideTracks : Field where
  key := "tracks"
  name := "tracks"
  arguments := [("limit", .var "n")]
  selectionSet := [.field "tracks" "tracks" [] [.field "detections" "detections" [] []]]

/-- `query ($n: Int = 1000) { tracks(limit: $n) { tracks { detections } } }`. -/
def wideByDefault : Operation where
  variableDefinitions := [⟨"n", .int false, some (.int 1000)⟩]
  selectionSet := [.field wideTracks.key wideTracks.name wideTracks.arguments
    wideTracks.selectionSet]

theorem executed_wideTracks (frags : Fragments) : Executed frags wideByDefault [wideTracks] := by
  refine .root ⟨List.cons_ne_nil _ _, ?_⟩ ?_
  · intro f hf g hg
    rw [List.mem_singleton.mp hf, List.mem_singleton.mp hg]
    exact ⟨rfl, rfl, fun _ ↦ rfl⟩
  · intro f hf
    rw [List.mem_singleton.mp hf]
    exact .field List.mem_cons_self

theorem fansOut_wideTracks (frags : Fragments) : FansOut frags [wideTracks] :=
  ⟨wideTracks, List.mem_singleton_self _, rfl, ⟨"detections", "detections", [], []⟩,
    .under List.mem_cons_self (.field List.mem_cons_self), rfl⟩

/-- **A page of a thousand tracks over detections** gets through the gate without variables, by a
default that the operation declares. -/
theorem default_steps_around :
    checkCost (fun _ ↦ 0) [.operation wideByDefault] .empty = .ok () ∧
      ∃ group, Executed (fragments [.operation wideByDefault]).get wideByDefault group ∧
        FansOut (fragments [.operation wideByDefault]).get group ∧
        groupLimit wideByDefault .empty group = some 1000 :=
  ⟨by decide, [wideTracks], executed_wideTracks _, fansOut_wideTracks _, by decide⟩

/-- The same operation with its variable given as 50. -/
theorem fanOut_le_sample :
    groupLimit wideByDefault (.put .empty "n" (.number 50)) [wideTracks] = some 50 ∧
      (50 : ℤ) ≤ maxTracksWithDetections := by
  have hok : checkCost (fun _ ↦ 0) [.operation wideByDefault] (.put .empty "n" (.number 50)) =
      .ok () := by decide
  have hlimit : groupLimit wideByDefault (.put .empty "n" (.number 50)) [wideTracks] = some 50 := by
    decide
  refine ⟨hlimit, (fanOut_le_iff hok List.mem_cons_self).mpr ?_ [wideTracks]
    (executed_wideTracks _) (fansOut_wideTracks _) 50 hlimit⟩
  rintro group - - f - ⟨name, d, nonNull, n, -, hvar, hd, -⟩
  obtain rfl : "n" = name := of_decide_eq_true (List.find?_cons_eq_some.mp hd |>.elim (·.1) (by simp))
  exact nomatch hvar

end ClassG.GraphQL
