import ClassG.Api.Export

/-!
# The path in an export

What another program reads of the three exports of a track, and whether it is the path of the track.

* `readGeoJSON`, `readCSV`, `readKML`: the path, as its format has it.
* `ExportsAgree`: the exports are well formed, and all have the path of the track.
* `exportsAgree_redact_iff`: when they do.

That a number is read back from how it is written is assumed of the numbers of the track.
-/

set_option autoImplicit false

namespace ClassG.Api

open Model GoStrconv JsonSchema

/-- A position of a path. -/
structure PathPoint where
  lat : ℚ
  lon : ℚ
  alt : Option ℚ
  deriving DecidableEq

/-- What of a position is in a path. -/
def pathPoint (p : Position) : PathPoint := ⟨p.lat, p.lon, p.altGeodeticM⟩

/-- The path of a track. -/
def path (t : Track) : List PathPoint := t.history.map pathPoint

/-- If each of a list is read, the list is. -/
theorem mapM_map_eq_some {α β γ : Type} {f : α → β} {g : β → Option γ} {h : α → γ} {l : List α}
    (hread : ∀ a ∈ l, g (f a) = some (h a)) : (l.map f).mapM g = some (l.map h) := by
  induction l with
  | nil => rfl
  | cons a l ih =>
    obtain ⟨ha, hl⟩ := List.forall_mem_cons.mp hread
    rw [List.map_cons, List.mapM_cons, ha, ih hl]
    rfl

/-! ## GeoJSON -/

/-- A property of an object. -/
def property (name : String) : Json → Option Json
  | .obj fields => (fields.find? fun f ↦ f.1 = name).map Prod.snd
  | _ => none

/-- A position: longitude, latitude, and possibly an altitude. -/
def readPosition : Json → Option PathPoint
  | .arr [.num lon, .num lat] => some ⟨lat, lon, none⟩
  | .arr [.num lon, .num lat, .num alt] => some ⟨lat, lon, some alt⟩
  | _ => none

/-- The positions of a geometry. -/
def readGeometry (j : Json) : Option (List PathPoint) :=
  match j, property "type" j, property "coordinates" j with
  | .null, _, _ => some []
  | _, some (.str "Point"), some c => (readPosition c).map fun p ↦ [p]
  | _, some (.str "LineString"), some (.arr cs) => cs.mapM readPosition
  | _, _, _ => none

/-- The path is in the first feature. -/
def readGeoJSON (j : Json) : Option (List PathPoint) :=
  match property "features" j with
  | some (.arr (feature :: _)) => (property "geometry" feature).bind readGeometry
  | _ => none

/-- A position has two numbers at least. -/
def IsPosition : Json → Prop
  | .arr items => 2 ≤ items.length ∧ ∀ i ∈ items, IsNumber (fun _ ↦ True) i
  | _ => False

/-- The coordinates of a line have two positions at least. -/
def IsLine : Json → Prop
  | .arr items => 2 ≤ items.length ∧ ∀ i ∈ items, IsPosition i
  | _ => False

def IsPointGeometry : Json → Prop :=
  IsObject [⟨"type", IsString (· = "Point"), true⟩, ⟨"coordinates", IsPosition, true⟩]

def IsLineGeometry : Json → Prop :=
  IsObject [⟨"type", IsString (· = "LineString"), true⟩, ⟨"coordinates", IsLine, true⟩]

/-- An object, whatever its properties. -/
def IsMap : Json → Prop
  | .obj _ => True
  | _ => False

def IsFeature : Json → Prop :=
  IsObject
    [⟨"type", IsString (· = "Feature"), true⟩,
      ⟨"geometry", OrNull fun j ↦ IsPointGeometry j ∨ IsLineGeometry j, true⟩,
      ⟨"properties", IsMap, true⟩]

def IsFeatures : Json → Prop
  | .arr items => ∀ i ∈ items, IsFeature i
  | _ => False

/-- A GeoJSON document. -/
def IsFeatureCollection : Json → Prop :=
  IsObject [⟨"type", IsString (· = "FeatureCollection"), true⟩, ⟨"features", IsFeatures, true⟩]

theorem readPosition_position3D (p : Position) :
    readPosition (position3D p) = some (pathPoint p) := by
  rw [position3D, pathPoint]
  rcases p.altGeodeticM with _ | alt <;> rfl

theorem isPosition_position3D (p : Position) : IsPosition (position3D p) := by
  rw [position3D]
  rcases p.altGeodeticM with _ | alt <;> simp [IsPosition]

/-- **The path is in the GeoJSON.** -/
theorem readGeoJSON_trackGeoJSON (t : Track) : readGeoJSON (trackGeoJSON t) = some (path t) := by
  change readGeometry (pathGeometry (t.history.map position3D)) = some (t.history.map pathPoint)
  rcases t.history with _ | ⟨p, _ | ⟨p', ps⟩⟩
  · rfl
  · change (readPosition (position3D p)).map _ = _
    rw [readPosition_position3D]
    rfl
  · change ((p :: p' :: ps).map position3D).mapM readPosition = _
    exact mapM_map_eq_some fun q _ ↦ readPosition_position3D q

theorem isPointGeometry_geometry {c : Json} (h : IsPosition c) :
    IsPointGeometry (geometry "Point" c) := by
  simp [IsPointGeometry, geometry, isObject_obj, Checked, h]

theorem isLineGeometry_geometry {c : Json} (h : IsLine c) :
    IsLineGeometry (geometry "LineString" c) := by
  simp [IsLineGeometry, geometry, isObject_obj, Checked, h]

theorem isFeature_geoFeature {j : Json} (properties : List (String × Json))
    (h : OrNull (fun j ↦ IsPointGeometry j ∨ IsLineGeometry j) j) :
    IsFeature (geoFeature j properties) := by
  simp [IsFeature, geoFeature, isObject_obj, Checked, h, IsMap]

/-- The geometry of a path is a line only if there are two positions. -/
theorem pathGeometry_ok (ps : List Position) :
    OrNull (fun j ↦ IsPointGeometry j ∨ IsLineGeometry j) (pathGeometry (ps.map position3D)) := by
  rcases ps with _ | ⟨p, _ | ⟨p', ps⟩⟩
  · trivial
  · exact .inl (isPointGeometry_geometry (isPosition_position3D p))
  · refine .inr (isLineGeometry_geometry ⟨by simp, fun j hj ↦ ?_⟩)
    obtain ⟨q, -, rfl⟩ := List.mem_map.mp (List.map_cons ▸ hj : j ∈ (p :: p' :: ps).map position3D)
    exact isPosition_position3D q

/-- **The GeoJSON is well formed.** -/
theorem isFeatureCollection_trackGeoJSON (t : Track) : IsFeatureCollection (trackGeoJSON t) := by
  have hfeatures : IsFeatures (.arr (geoFeature (pathGeometry (t.history.map position3D))
      (trackProperties t) :: t.operator.toList.map (operatorFeature t))) := by
    refine List.forall_mem_cons.mpr ⟨isFeature_geoFeature _ (pathGeometry_ok _), fun j hj ↦ ?_⟩
    obtain ⟨o, -, rfl⟩ := List.mem_map.mp hj
    exact isFeature_geoFeature _ (.inl (isPointGeometry_geometry (by simp [IsPosition])))
  simp [IsFeatureCollection, trackGeoJSON, isObject_obj, Checked, hfeatures]

/-! ## CSV -/

/-- A number. -/
def readNumber (s : String) : Option ℚ :=
  match parseFloat s with
  | some (.fin q) => some q
  | _ => none

/-- A field that may be empty. -/
def readOptional (s : String) : Option (Option ℚ) :=
  if s = "" then some none else (readNumber s).map some

/-- The field of a record under a header. -/
def column (header record : List String) (name : String) : Option String :=
  record[header.idxOf name]?

/-- A record, read by the names of its columns. -/
def readRecord (header record : List String) : Option PathPoint := do
  let lat ← (column header record "lat").bind readNumber
  let lon ← (column header record "lon").bind readNumber
  let alt ← (column header record "alt_geodetic_m").bind readOptional
  return ⟨lat, lon, alt⟩

def readCSV : List (List String) → Option (List PathPoint)
  | [] => none
  | header :: records => records.mapM (readRecord header)

/-- A table: no two columns have one name, and each record has a field for each. -/
def CsvWellFormed : List (List String) → Prop
  | [] => False
  | header :: records => header.Nodup ∧ ∀ r ∈ records, r.length = header.length

variable {fmt : FloatFormat}

theorem csvWellFormed_trackCSV (t : Track) : CsvWellFormed (trackCSV fmt t) := by
  have hnodup : csvHeader.Nodup := by decide
  refine ⟨hnodup, fun r hr ↦ ?_⟩
  obtain ⟨p, -, rfl⟩ := List.mem_map.mp hr
  rw [csvRecord, csvHeader]
  simp only [List.length_cons, List.length_nil]

theorem readNumber_f {v : ℚ} (h : fmt.RoundTrips v) : readNumber (fmt.f v) = some v := by
  rw [readNumber, h.f]

theorem readNumber_g {v : ℚ} (h : fmt.RoundTrips v) : readNumber (fmt.g v) = some v := by
  rw [readNumber, h.g]

/-- What is absent is read as absent. -/
theorem readOptional_optFloat {v : Option ℚ} (h : ∀ q ∈ v, fmt.RoundTrips q) :
    readOptional (optFloat fmt v) = some v := by
  rcases v with _ | q
  · rfl
  · have hq := h q rfl
    rw [optFloat, readOptional, if_neg hq.f_ne_empty, readNumber_f hq]
    rfl

/-- The numbers of a position that are in a path. -/
def pathNumbers (p : Position) : List ℚ := [p.lat, p.lon] ++ p.altGeodeticM.toList

theorem readRecord_csvRecord {t : Track} {p : Position}
    (h : ∀ v ∈ pathNumbers p, fmt.RoundTrips v) :
    readRecord csvHeader (csvRecord fmt t p) = some (pathPoint p) := by
  have hlat := readNumber_f (h p.lat (by simp [pathNumbers]))
  have hlon := readNumber_f (h p.lon (by simp [pathNumbers]))
  have halt := readOptional_optFloat (v := p.altGeodeticM) fun q hq ↦
    h q (by simp [pathNumbers, Option.mem_def.mp hq])
  have hcolumns : column csvHeader (csvRecord fmt t p) "lat" = some (fmt.f p.lat) ∧
      column csvHeader (csvRecord fmt t p) "lon" = some (fmt.f p.lon) ∧
      column csvHeader (csvRecord fmt t p) "alt_geodetic_m" = some (optFloat fmt p.altGeodeticM) :=
    ⟨rfl, rfl, rfl⟩
  rw [readRecord, hcolumns.1, hcolumns.2.1, hcolumns.2.2]
  simp [hlat, hlon, halt, pathPoint]

/-- **The path is in the CSV.** -/
theorem readCSV_trackCSV {t : Track}
    (h : ∀ p ∈ t.history, ∀ v ∈ pathNumbers p, fmt.RoundTrips v) :
    readCSV (trackCSV fmt t) = some (path t) :=
  mapM_map_eq_some fun p hp ↦ readRecord_csvRecord (h p hp)

/-! ## KML -/

/-- A tuple: longitude, latitude, and possibly an altitude. -/
def readTuple (s : String) : Option PathPoint :=
  match (GoString.split s ',').mapM readNumber with
  | some [lon, lat] => some ⟨lat, lon, none⟩
  | some [lon, lat, alt] => some ⟨lat, lon, some alt⟩
  | _ => none

/-- Tuples, with white space between them. -/
def readCoordinates (s : String) : Option (List PathPoint) := (GoString.fields s).mapM readTuple

/-- The positions of a shape. -/
def shapePoints (shape : Xml) : Option (List PathPoint) :=
  match Xml.named "coordinates" shape.children with
  | [c] => c.content.bind readCoordinates
  | _ => none

/-- The shapes of a kind in the placemarks. -/
def shapes (kind : String) (doc : Xml) : List Xml :=
  (Xml.named "Placemark" doc.children).flatMap fun placemark ↦ Xml.named kind placemark.children

/-- The path is in the lines. -/
def readKML (doc : Xml) : Option (List PathPoint) :=
  ((shapes "LineString" doc).mapM shapePoints).map List.flatten

/-- What KML asks of the shapes.  A line has two positions at least. -/
structure KmlWellFormed (doc : Xml) : Prop where
  root : Xml.named "kml" [doc] = [doc]
  line : ∀ shape ∈ shapes "LineString" doc, ∃ ps, shapePoints shape = some ps ∧ 2 ≤ ps.length
  point : ∀ shape ∈ shapes "Point" doc, ∃ p, shapePoints shape = some [p]

theorem shapes_line (t : Track) : shapes "LineString" (trackKML fmt t) =
    if t.history = [] then []
    else [kmlLine "absolute" 1 ("\n".intercalate (t.history.map (kmlPosition fmt)))] := by
  rw [trackKML]
  rcases t.operator with _ | o <;> split <;> rfl

theorem shapes_point (t : Track) : shapes "Point" (trackKML fmt t) =
    t.operator.toList.map fun o ↦ kmlPointEl (fmt.g o.lon ++ "," ++ fmt.g o.lat ++ ",0") := by
  rw [trackKML]
  rcases t.operator with _ | o <;> split <;> rfl

/-! ### Tuples -/

theorem separator_of_mem {s : String} {v : ℚ} (h : readNumber s = some v) {c : Char}
    (hc : c ∈ s.toList) : c ≠ ',' ∧ GoString.isSpace c = false := by
  refine separator_of_isNumberChar ?_
  rcases hparse : parseFloat s with _ | x
  · rw [readNumber, hparse] at h
    exact absurd h (by simp)
  · exact numeric_of_parseFloat hparse c hc

/-- **Three numbers in a text** are read as a position. -/
theorem readTuple_three {a b c : String} {lat lon alt : ℚ} (ha : readNumber a = some lon)
    (hb : readNumber b = some lat) (hc : readNumber c = some alt) :
    readTuple (a ++ "," ++ b ++ "," ++ c) = some ⟨lat, lon, some alt⟩ := by
  have hjoin : a ++ "," ++ b ++ "," ++ c = (String.singleton ',').intercalate [a, b, c] := by
    simp only [String.intercalate_cons_cons, String.intercalate_singleton, String.append_assoc]
    rfl
  have hcomma : ∀ s ∈ [a, b, c], ',' ∉ s.toList := by
    intro s hs hmem
    simp only [List.mem_cons, List.not_mem_nil, or_false] at hs
    rcases hs with rfl | rfl | rfl
    · exact (separator_of_mem ha hmem).1 rfl
    · exact (separator_of_mem hb hmem).1 rfl
    · exact (separator_of_mem hc hmem).1 rfl
  rw [readTuple, hjoin, GoString.split_intercalate (by simp) hcomma]
  simp [ha, hb, hc]

theorem plain_three {a b c : String} {lat lon alt : ℚ} (ha : readNumber a = some lon)
    (hb : readNumber b = some lat) (hc : readNumber c = some alt) :
    a ++ "," ++ b ++ "," ++ c ≠ "" ∧
      ∀ x ∈ (a ++ "," ++ b ++ "," ++ c).toList, GoString.isSpace x = false := by
  constructor
  · intro hempty
    have hlength := congrArg String.toList hempty
    simp at hlength
  · intro x hx
    simp only [String.toList_append, List.mem_append] at hx
    rcases hx with (((hx | hx) | hx) | hx) | hx
    · exact (separator_of_mem ha hx).2
    · obtain rfl : x = ',' := by simpa using hx
      rfl
    · exact (separator_of_mem hb hx).2
    · obtain rfl : x = ',' := by simpa using hx
      rfl
    · exact (separator_of_mem hc hx).2

/-- Positions on lines of their own. -/
theorem readCoordinates_lines {α : Type} {l : List α} {text : α → String} (point : α → PathPoint)
    (hread : ∀ a ∈ l, readTuple (text a) = some (point a))
    (hplain : ∀ a ∈ l, text a ≠ "" ∧ ∀ x ∈ (text a).toList, GoString.isSpace x = false) :
    readCoordinates ("\n".intercalate (l.map text)) = some (l.map point) := by
  rw [readCoordinates, GoString.fields_intercalate (by simpa using hplain)]
  exact mapM_map_eq_some hread

/-! ### The line -/

/-- What is read of a position in KML. -/
def kmlPoint (p : Position) : PathPoint := ⟨p.lat, p.lon, some (p.altGeodeticM.getD 0)⟩

/-- An altitude that is absent is read as 0. -/
theorem kmlPoint_eq_pathPoint (p : Position) :
    kmlPoint p = pathPoint p ↔ p.altGeodeticM ≠ none := by
  rw [kmlPoint, pathPoint, PathPoint.mk.injEq]
  rcases p.altGeodeticM with _ | alt <;> simp

/-- What is read of the operator in KML. -/
def operatorPoint (o : OperatorPosition) : PathPoint := ⟨o.lat, o.lon, some 0⟩

/-- The numbers of an export. -/
def exportNumbers (t : Track) : List ℚ :=
  0 :: t.history.flatMap pathNumbers ++ t.operator.toList.flatMap fun o ↦ [o.lat, o.lon]

variable {t : Track} (h : ∀ v ∈ exportNumbers t, fmt.RoundTrips v)
include h

theorem roundTrips_path {p : Position} (hp : p ∈ t.history) :
    ∀ v ∈ pathNumbers p, fmt.RoundTrips v := by
  intro v hv
  have hhistory : v ∈ t.history.flatMap pathNumbers := List.mem_flatMap.mpr ⟨p, hp, hv⟩
  exact h v (List.mem_append_left _ (List.mem_cons_of_mem _ hhistory))

theorem readNumber_kmlPosition {p : Position} (hp : p ∈ t.history) :
    readNumber (fmt.g p.lon) = some p.lon ∧ readNumber (fmt.g p.lat) = some p.lat ∧
      readNumber (fmt.g (p.altGeodeticM.getD 0)) = some (p.altGeodeticM.getD 0) := by
  have hpath := roundTrips_path h hp
  refine ⟨readNumber_g (hpath _ (by simp [pathNumbers])),
    readNumber_g (hpath _ (by simp [pathNumbers])), readNumber_g ?_⟩
  rcases halt : p.altGeodeticM with _ | alt
  · exact h 0 (List.mem_append_left _ List.mem_cons_self)
  · exact hpath alt (by simp [pathNumbers, halt])

theorem readCoordinates_path :
    readCoordinates ("\n".intercalate (t.history.map (kmlPosition fmt))) =
      some (t.history.map kmlPoint) := by
  refine readCoordinates_lines kmlPoint (fun p hp ↦ ?_) fun p hp ↦ ?_
  · obtain ⟨hlon, hlat, halt⟩ := readNumber_kmlPosition h hp
    exact readTuple_three hlon hlat halt
  · obtain ⟨hlon, hlat, halt⟩ := readNumber_kmlPosition h hp
    exact plain_three hlon hlat halt

theorem shapePoints_line : shapePoints (kmlLine "absolute" 1
    ("\n".intercalate (t.history.map (kmlPosition fmt)))) = some (t.history.map kmlPoint) :=
  readCoordinates_path h

/-- **The path in the KML**: no altitude is absent. -/
theorem readKML_trackKML : readKML (trackKML fmt t) = some (t.history.map kmlPoint) := by
  rw [readKML, shapes_line]
  split
  · rename_i hnil
    rw [hnil]
    rfl
  · rw [List.mapM_cons, shapePoints_line h]
    simp

theorem shapePoints_operator {o : OperatorPosition} (ho : o ∈ t.operator) :
    shapePoints (kmlPointEl (fmt.g o.lon ++ "," ++ fmt.g o.lat ++ ",0")) =
      some [operatorPoint o] := by
  have hmem : ∀ v ∈ [o.lat, o.lon], fmt.RoundTrips v := fun v hv ↦
    h v (List.mem_append_right _ (List.mem_flatMap.mpr ⟨o, by simpa using ho, hv⟩))
  have hlat := readNumber_g (hmem o.lat (by simp))
  have hlon := readNumber_g (hmem o.lon (by simp))
  have hzero : readNumber "0" = some 0 := by decide +kernel
  have htext : fmt.g o.lon ++ "," ++ fmt.g o.lat ++ ",0" =
      "\n".intercalate ([o].map fun o ↦ fmt.g o.lon ++ "," ++ fmt.g o.lat ++ "," ++ "0") := by
    have hzeroText : ",0" = "," ++ "0" := rfl
    rw [List.map_singleton, String.intercalate_singleton, hzeroText, ← String.append_assoc]
  change readCoordinates (fmt.g o.lon ++ "," ++ fmt.g o.lat ++ ",0") = _
  rw [htext]
  refine readCoordinates_lines operatorPoint (fun o' ho' ↦ ?_) fun o' ho' ↦ ?_
  · obtain rfl := List.mem_singleton.mp ho'
    exact readTuple_three hlon hlat hzero
  · obtain rfl := List.mem_singleton.mp ho'
    exact plain_three hlon hlat hzero

/-- **The KML is well formed**, unless there is one position. -/
theorem kmlWellFormed_trackKML_iff : KmlWellFormed (trackKML fmt t) ↔ t.history.length ≠ 1 := by
  have hlines : (∀ shape ∈ shapes "LineString" (trackKML fmt t),
      ∃ ps, shapePoints shape = some ps ∧ 2 ≤ ps.length) ↔ t.history.length ≠ 1 := by
    rw [shapes_line]
    split
    · rename_i hnil
      simp [hnil]
    · rename_i hne
      have hpos := List.length_pos_iff.mpr hne
      simp only [List.mem_singleton, forall_eq, shapePoints_line h, Option.some.injEq,
        exists_eq_left', List.length_map]
      omega
  constructor
  · exact fun hkml ↦ hlines.mp hkml.line
  · intro hlength
    refine ⟨rfl, hlines.mpr hlength, fun shape hshape ↦ ?_⟩
    rw [shapes_point] at hshape
    obtain ⟨o, ho, rfl⟩ := List.mem_map.mp hshape
    exact ⟨_, shapePoints_operator h (by simpa using ho)⟩

omit h

/-! ## The three exports -/

/-- **The exports agree**: each is well formed, and the path of the track is read from it. -/
structure ExportsAgree (fmt : FloatFormat) (t : Track) : Prop where
  geoJSON : IsFeatureCollection (trackGeoJSON t)
  csv : CsvWellFormed (trackCSV fmt t)
  kml : KmlWellFormed (trackKML fmt t)
  geoJSON_path : readGeoJSON (trackGeoJSON t) = some (path t)
  csv_path : readCSV (trackCSV fmt t) = some (path t)
  kml_path : readKML (trackKML fmt t) = some (path t)

theorem readKML_eq_path_iff (h : ∀ v ∈ exportNumbers t, fmt.RoundTrips v) :
    readKML (trackKML fmt t) = some (path t) ↔ ∀ p ∈ t.history, p.altGeodeticM ≠ none := by
  rw [readKML_trackKML h, Option.some.injEq, path, List.map_inj_left]
  exact forall₂_congr fun p _ ↦ kmlPoint_eq_pathPoint p

/-- GeoJSON and CSV are never wrong, so it is KML that decides. -/
theorem exportsAgree_iff_kml (h : ∀ v ∈ exportNumbers t, fmt.RoundTrips v) :
    ExportsAgree fmt t ↔
      KmlWellFormed (trackKML fmt t) ∧ readKML (trackKML fmt t) = some (path t) := by
  constructor
  · exact fun hagree ↦ ⟨hagree.kml, hagree.kml_path⟩
  · rintro ⟨hkml, hpath⟩
    exact ⟨isFeatureCollection_trackGeoJSON t, csvWellFormed_trackCSV t, hkml,
      readGeoJSON_trackGeoJSON t, readCSV_trackCSV fun p hp ↦ roundTrips_path h hp, hpath⟩

@[simp] theorem history_redact (t : Track) (expose : Bool) :
    (t.redact expose).history = t.history := by
  rw [Track.redact]
  split <;> rfl

/-- **When the exports of a redacted track agree**: there is not one position alone, and no position
is without its altitude. -/
theorem exportsAgree_redact_iff (fmt : FloatFormat) (t : Track) (expose : Bool)
    (h : ∀ v ∈ exportNumbers (t.redact expose), fmt.RoundTrips v) :
    ExportsAgree fmt (t.redact expose) ↔
      t.history.length ≠ 1 ∧ ∀ p ∈ t.history, p.altGeodeticM ≠ none := by
  rw [exportsAgree_iff_kml h, kmlWellFormed_trackKML_iff h, readKML_eq_path_iff h, history_redact]

/-! ### Whole numbers below a million -/

/-- Both formats write such a number in the same way. -/
def wholeFormat : FloatFormat := ⟨fun v ↦ toString v.num, fun v ↦ toString v.num⟩

/-- A track that stays over one place, with the altitudes of its positions. -/
def climb (alts : List (Option ℚ)) : Track where
  trackID := "trk-1"
  history := alts.map fun alt ↦ { lat := 46, lon := -122, altGeodeticM := alt }
  operator := some { lat := 45, lon := -121 }

theorem roundTrips_climb {alts : List (Option ℚ)}
    (halts : exportNumbers (climb alts) ⊆ [0, 46, -122, 120, 121, 45, -121]) :
    ∀ v ∈ exportNumbers (climb alts), wholeFormat.RoundTrips v := by
  have hread : ∀ v ∈ ([0, 46, -122, 120, 121, 45, -121] : List ℚ),
      parseFloat (toString v.num) = some (.fin v) := by decide +kernel
  exact fun v hv ↦ ⟨hread v (halts hv), hread v (halts hv)⟩

theorem exportsAgree_climb : ExportsAgree wholeFormat ((climb [some 120, some 121]).redact true) :=
  (exportsAgree_redact_iff _ _ true (roundTrips_climb (by decide))).mpr ⟨by decide, by decide⟩

/-- A position without an altitude is at sea level in KML, and a single position is a line. -/
theorem not_exportsAgree_climb :
    readKML (trackKML wholeFormat ((climb [some 120, none]).redact true)) =
        some [⟨46, -122, some 120⟩, ⟨46, -122, some 0⟩] ∧
      ¬ ExportsAgree wholeFormat ((climb [some 120, none]).redact true) ∧
        ¬ ExportsAgree wholeFormat ((climb [some 120]).redact true) := by
  refine ⟨?_, fun h ↦ ?_, fun h ↦ ?_⟩
  · exact readKML_trackKML (roundTrips_climb (by decide))
  · exact absurd ((readKML_eq_path_iff (roundTrips_climb (by decide))).mp h.kml_path) (by decide)
  · exact (kmlWellFormed_trackKML_iff (roundTrips_climb (by decide))).mp h.kml rfl

end ClassG.Api
