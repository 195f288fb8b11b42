import ClassG.Truncation
import ClassG.Wifi.Dji

/-!
# DroneID elements that are cut short

`classg_wifi/parsers/dji.py`.  A frame is cut off where the capture ends.  A reader that does not
find all of a field goes to the end of the buffer, so that what comes after is not read from the
wrong place.
-/

set_option autoImplicit false

namespace ClassG.Wifi.Dji

open PyBytes PyFloat Truncation

/-! ## The fields in their order -/

/-- What a field holds. -/
inductive Value
  | number (q : ℚ)
  | text (s : String)
  deriving DecidableEq

/-- A field that is `0` where it is absent. -/
def present (n : ℕ) : Option Value := if n = 0 then none else some (.number n)

/-- What `raw` has under a key. -/
def DjiTelemetry.rawField (t : DjiTelemetry) (key : String) : Option Value :=
  (t.raw.lookup key).join.map fun raw : ℤ ↦ .number raw

/-- The fields of a record, in the order they have in an element: what is made of several is where
the last of them is. -/
def DjiTelemetry.wire (t : DjiTelemetry) : List (Option Value) :=
  [present t.version, present t.sequence, present t.stateInfo, t.serial.map .text,
    t.rawField "lon", t.rawField "lat", t.lat.map .number, t.lon.map .number,
    t.rawField "altitude", t.altitudeM.map .number, t.rawField "height", t.heightM.map .number,
    t.rawField "v_north", t.vNorthMPS.map .number, t.rawField "v_east", t.vEastMPS.map .number,
    t.rawField "v_up", t.vUpMPS.map .number, t.rawField "pitch", t.pitchDeg.map .number,
    t.rawField "roll", t.rollDeg.map .number, t.rawField "yaw", t.yawDeg.map .number,
    t.rawField "operator_lat", t.operatorLat.map .number,
    t.rawField "operator_lon", t.operatorLon.map .number,
    t.homeLon.map .number, t.homeLat.map .number,
    t.productType.map fun n : ℕ ↦ .number n, t.uuid.map .text]

/-- The fields of a record, in the order they have in an element. -/
def DjiFlightPurpose.wire (p : DjiFlightPurpose) : List (Option Value) :=
  [p.serial.map .text, p.purpose.map .text]

/-! ## Two readers -/

/-- Readers of a buffer and of a prefix of it: where the second has not run out, they are at the
same place, and where it has, it is at its end. -/
def Behind (b : Bool) (r r' : Reader) : Prop :=
  if b then r'.buf <+: r.buf ∧ r'.pos = r.pos ∧ r'.pos ≤ r'.buf.length
  else r'.pos = r'.buf.length

/-- A read of one field. -/
abbrev Reads {α : Type} (b : Bool) (x : StateM Reader (Option α)) : Prop := Cut Behind b x x Kept

theorem slice_of_prefix {buf' buf : List Byte} (h : buf' <+: buf) {i j : ℕ} (hj : j ≤ buf'.length) :
    slice buf' i j = slice buf i j := by
  obtain ⟨rest, rfl⟩ := h
  rw [slice, slice, List.take_append_of_le_length hj]

/-- **A field that is cut is not read, and none is after it.** -/
theorem reads_take (b : Bool) {n : ℕ} (hn : 0 < n) : Reads b (take n) := by
  intro r r' h
  by_cases hcut : r'.buf.length < r'.pos + n
  · refine ⟨false, by simp, ?_⟩
    rw [take, take, if_pos hcut]
    exact ⟨rfl, rfl⟩
  cases b with
  | false =>
    have hpos : r'.pos = r'.buf.length := h
    omega
  | true =>
    obtain ⟨hpre, hpos, hle⟩ := h
    have hlen := hpre.length_le
    refine ⟨true, id, ?_⟩
    rw [take, take, if_neg hcut, if_neg (by omega), slice_of_prefix hpre (by omega), hpos]
    exact ⟨⟨hpre, rfl, by dsimp only; omega⟩, rfl⟩

theorem Reads.map {α β : Type} {b : Bool} {x : StateM Reader (Option α)} (hx : Reads b x)
    {f : Option α → Option β} (hf : f none = none) : Reads b (do return f (← x)) :=
  Cut.bind hx fun _ _ _ _ h ↦ Cut.pure (h.comp hf)

theorem reads_u8 (b : Bool) : Reads b u8 := (reads_take b one_pos).map rfl

theorem reads_u16 (b : Bool) : Reads b u16 := (reads_take b two_pos).map rfl

theorem reads_i16 (b : Bool) : Reads b i16 := (reads_take b two_pos).map rfl

theorem reads_i32 (b : Bool) : Reads b i32 := (reads_take b four_pos).map rfl

theorem reads_text (b : Bool) {n : ℕ} (hn : 0 < n) : Reads b (text n) := (reads_take b hn).map rfl

/-- A text whose length is cut is not read. -/
theorem reads_textOf {b : Bool} {length length' : Option ℕ} (h : Kept b length length') :
    Cut Behind b (textOf (length.getD 0)) (textOf (length'.getD 0)) Kept := by
  cases b with
  | true =>
    obtain rfl : length' = length := h
    rw [textOf]
    split
    · exact reads_text true (by omega)
    · exact Cut.pure (Kept.none true)
  | false =>
    obtain rfl : length' = none := h
    exact fun _ _ hR ↦ ⟨false, id, hR, rfl⟩

/-! ## Two records -/

theorem kept_present {b : Bool} {v v' : Option ℕ} (h : Kept b v v') :
    Kept b (present (v.getD 0)) (present (v'.getD 0)) :=
  h.comp (f := fun v ↦ present (v.getD 0)) rfl

theorem kept_scaled {b : Bool} {v v' : Option ℤ} (h : Kept b v v') (key : Scale) :
    Kept b ((scaled v key).map Value.number) ((scaled v' key).map Value.number) :=
  h.comp (f := fun v ↦ (scaled v key).map Value.number) rfl

theorem kept_angle {b : Bool} {v v' : Option ℤ} (h : Kept b v v') (limitDeg : ℚ) :
    Kept b ((angle v limitDeg).map Value.number) ((angle v' limitDeg).map Value.number) :=
  h.comp (f := fun v ↦ (angle v limitDeg).map Value.number) rfl

/-- A position is kept as the later of its angles is. -/
theorem kept_both {b b' : Bool} {lon lon' lat lat' : Option ℤ} (hle : b' → b)
    (hlon : Kept b lon lon') (hlat : Kept b' lat lat') :
    Kept b' (both (angle lat 90) (angle lon)).1 (both (angle lat' 90) (angle lon')).1 ∧
      Kept b' (both (angle lat 90) (angle lon)).2 (both (angle lat' 90) (angle lon')).2 := by
  cases b' with
  | true =>
    obtain rfl : b = true := hle rfl
    obtain rfl : lon' = lon := hlon
    obtain rfl : lat' = lat := hlat
    exact ⟨rfl, rfl⟩
  | false =>
    obtain rfl : lat' = none := hlat
    exact ⟨rfl, rfl⟩

theorem both_together (lat lon : Option ℚ) :
    (both lat lon).1.isSome ↔ (both lat lon).2.isSome := by
  rw [both]
  split
  · rfl
  · rename_i h
    obtain ⟨hlat, hlon⟩ := not_or.mp h
    simp [Option.isSome_iff_ne_none, hlat, hlon]

/-- What holds of a record and of what is made of the element cut short. -/
structure DjiTelemetry.CutTo (t t' : DjiTelemetry) : Prop where
  fields : Fields true t.wire t'.wire
  keys : t'.raw.map Prod.fst = t.raw.map Prod.fst
  position : t'.lat.isSome ↔ t'.lon.isSome

/-- **A record of which a part is cut off keeps the fields before.** -/
theorem cut_parseTelemetry :
    Cut Behind true parseTelemetry parseTelemetry fun _ ↦ DjiTelemetry.CutTo := by
  refine (reads_u8 _).bind fun b₁ _ _ h₁ version ↦ ?_
  refine (reads_u16 _).bind fun b₂ _ _ h₂ sequence ↦ ?_
  refine (reads_u16 _).bind fun b₃ _ _ h₃ stateInfo ↦ ?_
  refine (reads_text _ (by norm_num)).bind fun b₄ _ _ h₄ serial ↦ ?_
  refine (reads_i32 _).bind fun b₅ _ _ h₅ rawLon ↦ ?_
  refine (reads_i32 _).bind fun b₆ _ _ h₆ rawLat ↦ ?_
  refine (reads_i16 _).bind fun b₇ _ _ h₇ altitude ↦ ?_
  refine (reads_i16 _).bind fun b₈ _ _ h₈ height ↦ ?_
  refine (reads_i16 _).bind fun b₉ _ _ h₉ vNorth ↦ ?_
  refine (reads_i16 _).bind fun b₁₀ _ _ h₁₀ vEast ↦ ?_
  refine (reads_i16 _).bind fun b₁₁ _ _ h₁₁ vUp ↦ ?_
  refine (reads_i16 _).bind fun b₁₂ _ _ h₁₂ pitch ↦ ?_
  refine (reads_i16 _).bind fun b₁₃ _ _ h₁₃ roll ↦ ?_
  refine (reads_i16 _).bind fun b₁₄ _ _ h₁₄ yaw ↦ ?_
  refine (reads_i32 _).bind fun b₁₅ _ _ h₁₅ rawOpLat ↦ ?_
  refine (reads_i32 _).bind fun b₁₆ _ _ h₁₆ rawOpLon ↦ ?_
  refine (reads_i32 _).bind fun b₁₇ _ _ h₁₇ rawHomeLon ↦ ?_
  refine (reads_i32 _).bind fun b₁₈ _ _ h₁₈ rawHomeLat ↦ ?_
  refine (reads_u8 _).bind fun b₁₉ _ _ h₁₉ productType ↦ ?_
  refine (reads_u8 _).bind fun b₂₀ _ _ h₂₀ uuidLen ↦ ?_
  refine (reads_textOf uuidLen).bind fun b₂₁ _ _ h₂₁ uuid ↦ Cut.pure ?_
  obtain ⟨lat, lon⟩ := kept_both h₆ rawLon rawLat
  refine ⟨?_, rfl, both_together _ _⟩
  simp only [DjiTelemetry.wire, DjiTelemetry.rawField, List.lookup_cons, String.reduceBEq,
    Option.join_some]
  refine .cons h₁ (kept_present version) <| .cons h₂ (kept_present sequence) <|
    .cons h₃ (kept_present stateInfo) <| .cons h₄ (serial.map _) <| .cons h₅ (rawLon.map _) <|
    .cons h₆ (rawLat.map _) <| .cons id (lat.map _) <| .cons id (lon.map _) <|
    .cons h₇ (altitude.map _) <| .cons id (kept_scaled altitude _) <|
    .cons h₈ (height.map _) <| .cons id (kept_scaled height _) <|
    .cons h₉ (vNorth.map _) <| .cons id (kept_scaled vNorth _) <|
    .cons h₁₀ (vEast.map _) <| .cons id (kept_scaled vEast _) <|
    .cons h₁₁ (vUp.map _) <| .cons id (kept_scaled vUp _) <|
    .cons h₁₂ (pitch.map _) <| .cons id (kept_scaled pitch _) <|
    .cons h₁₃ (roll.map _) <| .cons id (kept_scaled roll _) <|
    .cons h₁₄ (yaw.map _) <| .cons id (kept_scaled yaw _) <|
    .cons h₁₅ (rawOpLat.map _) <| .cons id (kept_angle rawOpLat _) <|
    .cons h₁₆ (rawOpLon.map _) <| .cons id (kept_angle rawOpLon _) <|
    .cons h₁₇ (kept_angle rawHomeLon _) <| .cons h₁₈ (kept_angle rawHomeLat _) <|
    .cons h₁₉ (productType.map _) <| .cons (fun h ↦ h₂₀ (h₂₁ h)) (uuid.map _) <| .nil b₂₁

theorem cut_parseFlightPurpose :
    Cut Behind true parseFlightPurpose parseFlightPurpose
      fun _ p p' ↦ Fields true p.wire p'.wire := by
  refine (reads_text _ (by norm_num)).bind fun b₁ _ _ h₁ serial ↦ ?_
  refine (reads_u8 _).bind fun b₂ _ _ h₂ length ↦ ?_
  refine (reads_textOf length).bind fun b₃ _ _ h₃ purpose ↦ Cut.pure ?_
  exact .cons h₁ (serial.map _) <| .cons (fun h ↦ h₂ (h₃ h)) (purpose.map _) <| .nil b₃

/-! ## Two elements -/

/-- What is made of an element cut short: the fields that are there, of a record of the same
kind. -/
def DjiPayload.IsCutOf : DjiPayload → DjiPayload → Prop
  | .telemetry t', .telemetry t =>
    IsCut t'.wire t.wire ∧ t'.raw.map Prod.fst = t.raw.map Prod.fst ∧
      (t'.lat.isSome ↔ t'.lon.isSome)
  | .flightPurpose p', .flightPurpose p => IsCut p'.wire p.wire
  | _, _ => False

/-- What is answered for an element cut short, and for the element. -/
def Answered : Except Raised (Option DjiPayload) → Except Raised (Option DjiPayload) → Prop
  | .ok none, .ok none => True
  | .ok (some payload'), .ok (some payload) => payload'.IsCutOf payload
  | .error (.parse text'), .error (.parse text) => text' = text
  | _, _ => False

/-- **An element that is cut short after its subcommand gives the fields that are there**, none of
them read from the wrong place, and an error only where the element does. -/
theorem parseVendorIE_of_cut {body ieBody : List Byte} (hpre : body <+: ieBody)
    (hsub : 7 ≤ body.length) : Answered (parseVendorIE body) (parseVendorIE ieBody) := by
  have hlen := hpre.length_le
  have hitem : item body 6 = item ieBody 6 := by
    obtain ⟨rest, rfl⟩ := hpre
    rw [item, item, List.getElem?_append_left (by omega)]
  have hbehind : Behind true ⟨ieBody, 7⟩ ⟨body, 7⟩ := ⟨hpre, rfl, hsub⟩
  rw [parseVendorIE, parseVendorIE, slice_of_prefix hpre (by omega), hitem]
  by_cases houi : slice ieBody 0 3 ≠ oui
  · rw [if_pos (.inr houi), if_pos (.inr houi)]
    exact trivial
  rw [if_neg (not_or.mpr ⟨by omega, houi⟩), if_neg (not_or.mpr ⟨by omega, houi⟩),
    item_of_lt (by omega)]
  dsimp only [Except.bind, bind, pure, Except.pure]
  split
  · obtain ⟨b, -, -, h⟩ := cut_parseTelemetry _ _ hbehind
    exact ⟨h.fields.isCut, h.keys, h.position⟩
  split
  · obtain ⟨b, -, -, h⟩ := cut_parseFlightPurpose _ _ hbehind
    exact h.isCut
  · rfl

/-- Telemetry, up to the first byte of a serial. -/
def headOfTelemetry : List Byte := oui ++ [0, 0, 0, 16, 2, 7, 1, 0, 0, 65]

/-- The serial goes on, and the capture has not kept all of it. -/
theorem headOfTelemetry_cut :
    Answered (parseVendorIE headOfTelemetry) (parseVendorIE (headOfTelemetry ++ [66, 67])) ∧
      ∃ t, parseVendorIE headOfTelemetry = .ok (some (.telemetry t)) ∧
        t.version = 2 ∧ t.sequence = 263 ∧ t.serial = none ∧ t.lat = none := by
  refine ⟨parseVendorIE_of_cut (List.prefix_append _ _) (by decide), _, rfl, ?_⟩
  exact ⟨rfl, rfl, rfl, rfl⟩

end ClassG.Wifi.Dji
