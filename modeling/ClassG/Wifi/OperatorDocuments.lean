import ClassG.Fusion.Decode
import ClassG.Model.Detection
import ClassG.Wifi.OperatorFrames

/-!
# Detections that differ in the operator

What fusion and the API make of the detections of twins (`SentTwins`).  The members `operator` and
`raw` are all that differs in them.  Fusion reads one of these, which is `Detection.operator`
(`SentTwins.unmarshal`); the API keeps both, so it tells the two detections apart by the element that
is in `raw` if by nothing else (`SentTwins.redact_ne`).
-/

set_option autoImplicit false

namespace ClassG.Wifi

open GoJson Odid Fusion

/-! ## Members -/

/-- Members that are the same, but for those that tell where the operator is. -/
def MembersTwins (ms ms' : List (String × Json)) : Prop :=
  List.Forall₂ (fun m m' ↦ m.1 = m'.1 ∧ (m.2 = m'.2 ∨ m.1 ∈ operatorNames)) ms ms'

variable {ms ms' : List (String × Json)}

theorem isOneOf_of_mem {names : List String} {key : String} (h : key ∈ names) :
    isOneOf names key = true :=
  List.any_eq_true.mpr ⟨key, h, sameName_self key⟩

theorem MembersTwins.filter (h : MembersTwins ms ms') :
    ms.filter (fun m ↦ !isOneOf operatorNames m.1) =
      ms'.filter fun m ↦ !isOneOf operatorNames m.1 := by
  induction h with
  | nil => rfl
  | @cons m m' ms ms' hm _ ih =>
    obtain ⟨key, value⟩ := m
    obtain ⟨key', value'⟩ := m'
    obtain ⟨rfl, hvalue⟩ := hm
    rw [List.filter_cons, List.filter_cons, ih]
    cases hkey : isOneOf operatorNames key with
    | true => rfl
    | false =>
      have hne : key ∉ operatorNames := fun hmem ↦ by rw [isOneOf_of_mem hmem] at hkey; cases hkey
      rw [show value = value' from hvalue.resolve_right hne]

theorem MembersTwins.lookup (h : MembersTwins ms ms') {name : String} (hname : name ∉ operatorNames) :
    ms.lookup name = ms'.lookup name := by
  induction h with
  | nil => rfl
  | @cons m m' ms ms' hm _ ih =>
    obtain ⟨key, value⟩ := m
    obtain ⟨key', value'⟩ := m'
    obtain ⟨rfl, hvalue⟩ := hm
    rw [List.lookup_cons, List.lookup_cons, ih]
    cases hkey : name == key with
    | false => rfl
    | true => rw [show value = value' from hvalue.resolve_right (beq_iff_eq.mp hkey ▸ hname)]

theorem MembersTwins.any (h : MembersTwins ms ms') (name : String) :
    (ms.any fun m ↦ m.1 = name) = ms'.any fun m ↦ m.1 = name := by
  induction h with
  | nil => rfl
  | cons hm _ ih => rw [List.any_cons, List.any_cons, ih, hm.1]

theorem MembersTwins.setItem (h : MembersTwins ms ms') {name : String} {value value' : Json}
    (hvalue : value = value' ∨ name ∈ operatorNames) :
    MembersTwins (setItem ms name value) (setItem ms' name value') := by
  rw [Wifi.setItem, Wifi.setItem, h.any]
  split
  · rw [MembersTwins, List.forall₂_map_left_iff, List.forall₂_map_right_iff]
    refine List.Forall₂.imp (fun m m' hm ↦ ?_) h
    rw [← hm.1]
    split
    · exact ⟨rfl, hvalue⟩
    · exact hm
  · exact List.rel_append h (.cons ⟨rfl, hvalue⟩ .nil)

theorem forall_mem_setItem {P : String × Json → Prop} (h : ∀ m ∈ ms, P m) {name : String}
    {value : Json} (hvalue : P (name, value)) : ∀ m ∈ setItem ms name value, P m := by
  rw [setItem]
  split
  · rw [List.forall_mem_map]
    intro m hm
    split
    · exact hvalue
    · exact h m hm
  · exact List.forall_mem_append.mpr ⟨h, List.forall_mem_singleton.mpr hvalue⟩

/-! ## What fusion reads -/

/-- A member that goes to no field. -/
theorem member_of_unknown {ν : Type} {fields : List (String × Decoder ν)} {key : String}
    (h : ∀ name ∈ fields.map Prod.fst, sameName name key = false) (x : ν) (j : Json) :
    member fields x (key, j) = some x := by
  rcases hfield : fieldFor fields key with _ | f
  · rw [member, hfield]
  · obtain ⟨hmem, hname⟩ := mem_of_fieldFor hfield
    rw [h f.1 (List.mem_map_of_mem hmem)] at hname
    cases hname

/-- A member that does not tell where the operator is, or can be read. -/
def ReadableMember {ν : Type} (fields : List (String × Decoder ν)) (hide : ν → ν)
    (m : String × Json) : Prop :=
  isOneOf operatorNames m.1 = true → ∀ x, (member fields x m).map hide = some (hide x)

theorem readable_of_other {ν : Type} (fields : List (String × Decoder ν)) (hide : ν → ν)
    {key : String} (h : isOneOf operatorNames key = false) (j : Json) :
    ReadableMember fields hide (key, j) := by
  intro (hname : isOneOf operatorNames key = true)
  rw [h] at hname
  cases hname

/-- Fusion does not read the element. -/
theorem readable_raw (j : Json) : ReadableMember detectionFields Detection.blind ("raw", j) := by
  intro _ x
  rw [member_of_unknown (by decide)]
  rfl

/-- It reads the operator's position. -/
theorem readable_operator (lat lon alt : Option ℚ) :
    ReadableMember detectionFields Detection.blind
      ("operator", position lat lon [("alt_m", .numOrNull alt)]) := by
  intro _ x
  have hmember : member detectionFields x
        ("operator", position lat lon [("alt_m", .numOrNull alt)]) =
      (pointer ⟨0, 0⟩ (struct operatorFields) x.operator
        (position lat lon [("alt_m", .numOrNull alt)])).map fun v ↦ { x with operator := v } := rfl
  have hdecode : ∃ v, pointer ⟨0, 0⟩ (struct operatorFields) x.operator
      (position lat lon [("alt_m", .numOrNull alt)]) = some v := by
    rcases lat with _ | lat
    · exact ⟨_, rfl⟩
    rcases lon with _ | lon
    · exact ⟨_, rfl⟩
    cases alt <;> exact ⟨_, rfl⟩
  obtain ⟨v, hv⟩ := hdecode
  rw [hmember, hv]
  rfl

/-! ## Twins -/

/-- The members of a detection of Open Drone ID, but for the operator's. -/
def aircraftMembers (sensorID : String) (b : Beacon) (p : OdidPayload) (ie : List Byte)
    (draw : Draw) : List (String × Json) :=
  let d := setItem (base sensorID "A" b draw ie s!"odid/{p.protocolVersion}") "identity"
    (.obj (odidIdentity b p))
  match p.location with
  | some loc => setLocation d loc
  | none => d

/-- The members of a detection of Open Drone ID. -/
def odidMembers (sensorID : String) (b : Beacon) (p : OdidPayload) (ie : List Byte) (draw : Draw) :
    List (String × Json) :=
  match p.system with
  | some m => setItem (aircraftMembers sensorID b p ie draw) "operator"
      (position m.operatorLat m.operatorLon [("alt_m", .numOrNull m.operatorAltM)])
  | none => aircraftMembers sensorID b p ie draw

theorem fromOdid_eq (sensorID : String) (b : Beacon) (p : OdidPayload) (ie : List Byte) (draw : Draw) :
    fromOdid sensorID b p ie draw = .obj (odidMembers sensorID b p ie draw) := by
  unfold fromOdid odidMembers aircraftMembers
  cases p.system <;> rfl

variable {sensorID : String} {b : Beacon} {p p' : OdidPayload} {ie ie' : List Byte} {draw : Draw}

/-- The block `raw`. -/
def rawBlock (ie : List Byte) (parser : String) : Json :=
  .obj [("encoding", .str "base64"), ("bytes", .str (b64encode ie)), ("parser", .str parser)]

/-- The members, one by one: two of them tell where the operator is. -/
theorem forall_odidMembers {P : String × Json → Prop}
    (hother : ∀ key j, isOneOf operatorNames key = false → P (key, j))
    (hraw : ∀ ie parser, P ("raw", rawBlock ie parser))
    (hoperator : ∀ lat lon alt, P ("operator", position lat lon [("alt_m", .numOrNull alt)])) :
    ∀ m ∈ odidMembers sensorID b p ie draw, P m := by
  have hbase : ∀ m ∈ base sensorID "A" b draw ie s!"odid/{p.protocolVersion}", P m := by
    rw [base]
    simp only [List.forall_mem_cons]
    refine ⟨?_, ?_, ?_, ?_, ?_, ?_, ?_, hraw ie _, List.forall_mem_nil _⟩ <;>
      exact hother _ _ (by decide)
  have haircraft : ∀ m ∈ aircraftMembers sensorID b p ie draw, P m := by
    have hidentity : ∀ m ∈ setItem (base sensorID "A" b draw ie s!"odid/{p.protocolVersion}")
        "identity" (.obj (odidIdentity b p)), P m :=
      forall_mem_setItem hbase (hother _ _ (by decide))
    rw [aircraftMembers]
    cases p.location with
    | none => exact hidentity
    | some loc =>
      exact forall_mem_setItem (forall_mem_setItem hidentity (hother _ _ (by decide)))
        (hother _ _ (by decide))
  rw [odidMembers]
  cases p.system with
  | none => exact haircraft
  | some m => exact forall_mem_setItem haircraft (hoperator _ _ _)

theorem readable_odidMembers : Readable (odidMembers sensorID b p ie draw) :=
  forall_odidMembers (fun _ j h ↦ readable_of_other detectionFields Detection.blind h j)
    (fun _ _ ↦ readable_raw _) readable_operator

theorem membersTwins_base (sensorID cls : String) (b : Beacon) (draw : Draw) (ie ie' : List Byte)
    (parser : String) :
    MembersTwins (base sensorID cls b draw ie parser) (base sensorID cls b draw ie' parser) := by
  rw [base, base]
  repeat' refine .cons ⟨rfl, .inl rfl⟩ ?_
  exact .cons ⟨rfl, .inr (List.mem_cons_of_mem _ List.mem_cons_self)⟩ .nil

theorem membersTwins_aircraft : MembersTwins (aircraftMembers sensorID b p ie draw)
    (aircraftMembers sensorID b p ie' draw) := by
  rw [aircraftMembers, aircraftMembers]
  have hbase : MembersTwins
      (setItem (base sensorID "A" b draw ie s!"odid/{p.protocolVersion}") "identity"
        (.obj (odidIdentity b p)))
      (setItem (base sensorID "A" b draw ie' s!"odid/{p.protocolVersion}") "identity"
        (.obj (odidIdentity b p))) :=
    (membersTwins_base ..).setItem (.inl rfl)
  cases p.location with
  | none => exact hbase
  | some loc => exact (hbase.setItem (.inl rfl)).setItem (.inl rfl)

theorem membersTwins_odid (h : p.blind = p'.blind) :
    MembersTwins (odidMembers sensorID b p ie draw) (odidMembers sensorID b p' ie' draw) := by
  obtain ⟨heq, hsystem⟩ := OdidPayload.eq_of_blind h
  have haircraft : MembersTwins (aircraftMembers sensorID b p ie draw)
      (aircraftMembers sensorID b p' ie' draw) := by
    rw [heq]
    exact membersTwins_aircraft
  rw [odidMembers, odidMembers]
  cases hs : p.system <;> cases hs' : p'.system <;> rw [hs, hs'] at hsystem
  · exact haircraft
  · cases hsystem
  · cases hsystem
  · exact haircraft.setItem (.inr List.mem_cons_self)

/-- What a detection is published under. -/
def classOf : Json → String
  | .obj ms =>
    match ms.lookup "detection_class" with
    | some (.str cls) => cls
    | _ => ""
  | _ => ""

/-- **Twins are the same to fusion**, but for the operator's position. -/
theorem SentTwins.unmarshal {m m' : Sent} (h : SentTwins sensorID m m') :
    (Fusion.unmarshal m.document).map Detection.blind =
      (Fusion.unmarshal m'.document).map Detection.blind := by
  cases h with
  | refl => rfl
  | odid b draw hmade hmade' h =>
    rw [fromOdid_eq, fromOdid_eq]
    exact map_blind_unmarshal readable_odidMembers readable_odidMembers (membersTwins_odid h).filter

theorem SentTwins.classOf {m m' : Sent} (h : SentTwins sensorID m m') :
    Wifi.classOf m.document = Wifi.classOf m'.document := by
  cases h with
  | refl => rfl
  | odid b draw hmade hmade' h =>
    rw [fromOdid_eq, fromOdid_eq, Wifi.classOf, Wifi.classOf,
      (membersTwins_odid h).lookup (by decide)]

/-- Twins that are made of the same element are the same. -/
theorem SentTwins.document_eq {m m' : Sent} (h : SentTwins sensorID m m')
    (heq : m.element = m'.element) : m.document = m'.document := by
  cases h with
  | refl => rfl
  | odid b draw hmade hmade' h =>
    obtain rfl := Option.some.inj heq
    obtain rfl := Sum.inl.inj (Option.some.inj (hmade.symm.trans hmade'))
    rfl

/-! ## What the API keeps -/

/-- The element is among the members, and nothing else goes to its field after it. -/
def HasRaw (raw : Json) (ms : List (String × Json)) : Prop :=
  ∃ pre post, ms = pre ++ ("raw", raw) :: post ∧ (∀ m ∈ pre, m.1 ≠ "raw") ∧
    ∀ m ∈ post, sameName "raw" m.1 = false

theorem HasRaw.setItem {raw : Json} {ms : List (String × Json)} (h : HasRaw raw ms) {name : String}
    (hname : sameName "raw" name = false) (value : Json) : HasRaw raw (setItem ms name value) := by
  obtain ⟨pre, post, rfl, hpre, hpost⟩ := h
  have hne : "raw" ≠ name := by
    rintro rfl
    rw [sameName_self] at hname
    cases hname
  rw [Wifi.setItem]
  split
  · refine ⟨pre.map fun f ↦ if f.1 = name then (name, value) else f,
      post.map fun f ↦ if f.1 = name then (name, value) else f, ?_, ?_, ?_⟩
    · rw [List.map_append, List.map_cons, if_neg hne]
    · rw [List.forall_mem_map]
      intro m hm
      split
      · exact hne.symm
      · exact hpre m hm
    · rw [List.forall_mem_map]
      intro m hm
      split
      · exact hname
      · exact hpost m hm
  · refine ⟨pre, post ++ [(name, value)], by simp, hpre, ?_⟩
    exact List.forall_mem_append.mpr ⟨hpost, List.forall_mem_singleton.mpr hname⟩

theorem hasRaw_odidMembers :
    HasRaw (rawBlock ie s!"odid/{p.protocolVersion}") (odidMembers sensorID b p ie draw) := by
  have hbase : HasRaw (rawBlock ie s!"odid/{p.protocolVersion}")
      (base sensorID "A" b draw ie s!"odid/{p.protocolVersion}") := by
    refine ⟨(base sensorID "A" b draw ie s!"odid/{p.protocolVersion}").dropLast, [], rfl, ?_,
      List.forall_mem_nil _⟩
    rw [base]
    simp only [List.dropLast, List.forall_mem_cons]
    refine ⟨?_, ?_, ?_, ?_, ?_, ?_, ?_, List.forall_mem_nil _⟩ <;> simp
  have haircraft : HasRaw (rawBlock ie s!"odid/{p.protocolVersion}")
      (aircraftMembers sensorID b p ie draw) := by
    rw [aircraftMembers]
    cases p.location with
    | none => exact hbase.setItem (by decide) _
    | some loc =>
      exact ((hbase.setItem (by decide) _).setItem (by decide) _).setItem (by decide) _
  rw [odidMembers]
  cases p.system with
  | none => exact haircraft
  | some m => exact haircraft.setItem (by decide) _

/-- No other field has anything to do with the element. -/
theorem onlyIn_raw : OnlyIn Model.detectionFields (·.raw) "raw" := by
  intro f hf hne x j y hy
  simp only [Model.detectionFields, List.mem_cons, List.not_mem_nil, or_false] at hf
  rcases hf with rfl | rfl | rfl | rfl | rfl | rfl | rfl | rfl | rfl | rfl | rfl | rfl | rfl | rfl
  case inr.inr.inr.inr.inr.inr.inr.inr.inr.inr.inr.inr.inr => exact absurd rfl hne
  all_goals
    obtain ⟨v, -, rfl⟩ := Option.map_eq_some_iff.mp hy
    rfl

theorem raw_of_member {parser : String} (x y : Model.Detection)
    (h : member Model.detectionFields x ("raw", rawBlock ie parser) = some y) :
    y.raw = some ⟨"base64", b64encode ie, parser⟩ := by
  have hmember : member Model.detectionFields x ("raw", rawBlock ie parser) =
      some { x with raw := some ⟨"base64", b64encode ie, parser⟩ } := rfl
  rw [hmember] at h
  rw [← Option.some.inj h]

/-- A detection that says no version is of this one. -/
def versioned (d : Model.Detection) : Model.Detection :=
  if d.schemaVersion = "" then { d with schemaVersion := Model.schemaVersion } else d

/-- What `DecodeDetection` does once the document is read. -/
def finish (d : Model.Detection) : Option Model.Detection :=
  if (versioned d).sensorID = "" ∨ (versioned d).detectionClass ∉ Store.detectionClasses then none
  else
    some { versioned d with
      position := (versioned d).position.filter fun p ↦ ¬(p.lat = 0 ∧ p.lon = 0)
      operator := (versioned d).operator.filter fun p ↦ ¬(p.lat = 0 ∧ p.lon = 0) }

theorem decodeDetection_eq (j : Json) :
    Model.decodeDetection j = (struct Model.detectionFields {} j).bind finish := rfl

theorem raw_of_finish {d d' : Model.Detection} (h : finish d = some d') : d'.raw = d.raw := by
  have hraw : (versioned d).raw = d.raw := by
    rw [versioned]
    split <;> rfl
  rw [finish, Option.ite_none_left_eq_some] at h
  rw [← Option.some.inj h.2]
  exact hraw

/-- **The element is kept.** -/
theorem raw_of_decodeDetection {d : Model.Detection}
    (h : Model.decodeDetection (fromOdid sensorID b p ie draw) = some d) :
    d.raw = some ⟨"base64", b64encode ie, s!"odid/{p.protocolVersion}"⟩ := by
  have hkept : HasRaw (rawBlock ie s!"odid/{p.protocolVersion}")
      (odidMembers sensorID b p ie draw) := hasRaw_odidMembers
  obtain ⟨pre, post, hms, -, hpost⟩ := hkept
  rw [decodeDetection_eq, fromOdid_eq, hms] at h
  obtain ⟨x, hx, hfinish⟩ := Option.bind_eq_some_iff.mp h
  rw [raw_of_finish hfinish]
  exact onlyIn_raw.last hpost raw_of_member hx

/-! ## Base64 -/

/-- The characters of base64. -/
def b64Chars : List Char :=
  "ABCDEFGHIJKLMNOPQRSTUVWXYZabcdefghijklmnopqrstuvwxyz0123456789+/".toList

theorem b64Chars_eq : b64Chars =
    ['A', 'B', 'C', 'D', 'E', 'F', 'G', 'H', 'I', 'J', 'K', 'L', 'M', 'N', 'O', 'P', 'Q', 'R', 'S',
      'T', 'U', 'V', 'W', 'X', 'Y', 'Z', 'a', 'b', 'c', 'd', 'e', 'f', 'g', 'h', 'i', 'j', 'k', 'l',
      'm', 'n', 'o', 'p', 'q', 'r', 's', 't', 'u', 'v', 'w', 'x', 'y', 'z', '0', '1', '2', '3', '4',
      '5', '6', '7', '8', '9', '+', '/'] := by decide

theorem length_b64Chars : b64Chars.length = 64 := by rw [b64Chars_eq]; rfl

theorem nodup_b64Chars : b64Chars.Nodup := by rw [b64Chars_eq]; decide

theorem b64Char_eq {n : ℕ} (h : n < b64Chars.length) : b64Char n = b64Chars[n] := by
  rw [b64Char, List.getD_eq_getElem?_getD]
  exact congrArg (Option.getD · 'A') (List.getElem?_eq_getElem h)

theorem idxOf_b64Char {n : ℕ} (h : n < 64) : b64Chars.idxOf (b64Char n) = n := by
  rw [← length_b64Chars] at h
  rw [b64Char_eq h]
  exact nodup_b64Chars.idxOf_getElem n h

theorem b64Char_ne_pad {n : ℕ} (h : n < 64) : b64Char n ≠ '=' := by
  rw [← length_b64Chars] at h
  intro heq
  have hmem : '=' ∈ b64Chars := heq ▸ b64Char_eq h ▸ List.getElem_mem h
  rw [b64Chars_eq] at hmem
  revert hmem
  decide

theorem takeWhile_b64 (raw : List Byte) (pad : ℕ) :
    ((Base64.toSextets raw).map b64Char ++ List.replicate pad '=').takeWhile (· ≠ '=') =
      (Base64.toSextets raw).map b64Char := by
  rw [List.takeWhile_append_of_pos]
  · cases pad with
    | zero => simp
    | succ pad => simp [List.replicate_succ]
  · intro c hc
    obtain ⟨n, hn, rfl⟩ := List.mem_map.mp hc
    exact decide_eq_true (b64Char_ne_pad (Base64.lt_of_mem_toSextets hn))

theorem map_idxOf_b64Char (raw : List Byte) :
    ((Base64.toSextets raw).map b64Char).map b64Chars.idxOf = Base64.toSextets raw := by
  rw [List.map_map]
  exact (List.map_congr_left fun n hn ↦ idxOf_b64Char (Base64.lt_of_mem_toSextets hn)).trans
    (List.map_id _)

theorem b64encode_injective : Function.Injective b64encode := by
  intro raw raw' h
  have hchars := congrArg (·.toList.takeWhile (· ≠ '=')) h
  simp only [b64encode, String.toList_ofList, takeWhile_b64] at hchars
  have hsextets := congrArg (List.map b64Chars.idxOf) hchars
  rw [map_idxOf_b64Char, map_idxOf_b64Char] at hsextets
  exact Option.some.inj <| calc
    some raw = Base64.ofSextets (Base64.toSextets raw) := (Base64.ofSextets_toSextets raw).symm
    _ = Base64.ofSextets (Base64.toSextets raw') := by rw [hsextets]
    _ = some raw' := Base64.ofSextets_toSextets raw'

/-! ## What the API makes of twins -/

/-- A detection without the operator's position, and without the element that it was decoded from. -/
def bare (d : Model.Detection) : Model.Detection := { d with operator := none, raw := none }

theorem hides_bare : ∀ f ∈ Model.detectionFields, f.1 ∉ operatorNames → Hides bare f.2 := by
  intro f hf hne
  simp only [Model.detectionFields, List.mem_cons, List.not_mem_nil, or_false] at hf
  rcases hf with rfl | rfl | rfl | rfl | rfl | rfl | rfl | rfl | rfl | rfl | rfl | rfl | rfl | rfl
  case inr.inr.inr.inr.inr.inr.inr.inr.inr.inr.inl => exact absurd List.mem_cons_self hne
  case inr.inr.inr.inr.inr.inr.inr.inr.inr.inr.inr.inr.inr =>
    exact absurd (List.mem_cons_of_mem _ List.mem_cons_self) hne
  all_goals exact hides_field (fun _ ↦ rfl) fun _ _ ↦ rfl

theorem kept_raw (ie : List Byte) (parser : String) :
    ReadableMember Model.detectionFields bare ("raw", rawBlock ie parser) :=
  fun _ _ ↦ rfl

theorem kept_operator (lat lon alt : Option ℚ) :
    ReadableMember Model.detectionFields bare
      ("operator", position lat lon [("alt_m", .numOrNull alt)]) := by
  intro _ x
  have hmember : member Model.detectionFields x
        ("operator", position lat lon [("alt_m", .numOrNull alt)]) =
      (pointer {} (struct Model.operatorFields) x.operator
        (position lat lon [("alt_m", .numOrNull alt)])).map fun v ↦ { x with operator := v } := rfl
  have hdecode : ∃ v, pointer {} (struct Model.operatorFields) x.operator
      (position lat lon [("alt_m", .numOrNull alt)]) = some v := by
    rcases lat with _ | lat
    · exact ⟨_, rfl⟩
    rcases lon with _ | lon
    · exact ⟨_, rfl⟩
    cases alt <;> exact ⟨_, rfl⟩
  obtain ⟨v, hv⟩ := hdecode
  rw [hmember, hv]
  rfl

theorem versioned_bare (d : Model.Detection) : versioned (bare d) = bare (versioned d) := by
  rw [versioned, versioned]
  show (if d.schemaVersion = "" then _ else _) = _
  split <;> rfl

theorem bare_finish (d : Model.Detection) : (finish d).map bare = finish (bare d) := by
  rw [finish, finish, versioned_bare]
  generalize versioned d = d
  show (if d.sensorID = "" ∨ d.detectionClass ∉ Store.detectionClasses then none else _).map bare =
    if d.sensorID = "" ∨ d.detectionClass ∉ Store.detectionClasses then none else _
  split <;> rfl

theorem bare_decode {ms ms' : List (String × Json)}
    (h : ∀ m ∈ ms, ReadableMember Model.detectionFields bare m)
    (h' : ∀ m ∈ ms', ReadableMember Model.detectionFields bare m) (hms : MembersTwins ms ms') :
    (Model.decodeDetection (.obj ms)).map bare = (Model.decodeDetection (.obj ms')).map bare := by
  have hmap (o : Option Model.Detection) : (o.bind finish).map bare = (o.map bare).bind finish := by
    cases o with
    | none => rfl
    | some d => exact bare_finish d
  rw [decodeDetection_eq, decodeDetection_eq, hmap, hmap]
  show ((members Model.detectionFields {} ms).map bare).bind finish =
    ((members Model.detectionFields {} ms').map bare).bind finish
  rw [map_members hides_bare h, map_members hides_bare h', hms.filter]

/-- **Twins are the same to the API**, but for the operator's position and the element. -/
theorem SentTwins.decode {m m' : Sent} (h : SentTwins sensorID m m') :
    (Model.decodeDetection m.document).map bare = (Model.decodeDetection m'.document).map bare := by
  cases h with
  | refl => rfl
  | odid b draw hmade hmade' h =>
    have hreadable (p : OdidPayload) (ie : List Byte) :
        ∀ m ∈ odidMembers sensorID b p ie draw, ReadableMember Model.detectionFields bare m :=
      forall_odidMembers (fun _ j h ↦ readable_of_other Model.detectionFields bare h j)
        kept_raw kept_operator
    rw [fromOdid_eq, fromOdid_eq]
    exact bare_decode (hreadable _ _) (hreadable _ _) (membersTwins_odid h)

/-- **The API tells twins apart** that are made of different elements. -/
theorem SentTwins.redact_ne {m m' : Sent} (h : SentTwins sensorID m m') (hne : m.element ≠ m'.element)
    {d d' : Model.Detection} (hd : Model.decodeDetection m.document = some d)
    (hd' : Model.decodeDetection m'.document = some d') : d.redact false ≠ d'.redact false := by
  cases h with
  | refl => exact absurd rfl hne
  | odid b draw hmade hmade' h =>
    intro heq
    have hraw : (d.redact false).raw = d.raw := rfl
    have hraw' : (d'.redact false).raw = d'.raw := rfl
    have hbytes := (hraw.symm.trans (congrArg Model.Detection.raw heq)).trans hraw'
    rw [raw_of_decodeDetection hd, raw_of_decodeDetection hd'] at hbytes
    have hie := b64encode_injective (congrArg Model.Raw.bytes (Option.some.inj hbytes))
    exact hne (congrArg some hie)

end ClassG.Wifi
