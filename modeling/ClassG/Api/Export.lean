import ClassG.ForGo.FloatText
import ClassG.ForGo.Timestamp
import ClassG.JsonSchema
import ClassG.Model.Track

/-!
# Exports of a track

`httpapi/export.go`: a track as GeoJSON, as CSV and as KML.  An export is the document that is
given to `encoding/json`, `encoding/csv` or `encoding/xml`: a value, records of fields, a tree.  What
these make of it can be taken back, and is left out.

The three are written each for itself.  `Api.ExportPaths` compares them.
-/

set_option autoImplicit false

/-- A node of an XML document, without the white space that indents it. -/
inductive Xml
  | text (s : String)
  | element (name : String) (attributes : List (String × String)) (children : List Xml)

namespace Xml

/-- An element that holds a text. -/
def leaf (name content : String) : Xml := .element name [] [.text content]

/-- The elements with a name. -/
def named (name : String) (nodes : List Xml) : List Xml :=
  nodes.filter fun
    | .element name' _ _ => name' = name
    | .text _ => false

/-- What is in a node. -/
def children : Xml → List Xml
  | .element _ _ nodes => nodes
  | .text _ => []

/-- The text of an element that holds nothing else. -/
def content : Xml → Option String
  | .element _ _ [.text s] => some s
  | _ => none

end Xml

namespace ClassG.Api

open Model GoStrconv

/-- `Format("2006-01-02T15:04:05.000Z")`, of a time in UTC. -/
def formatMillis (t : GoTime) : String :=
  let s := GoTime.stamp t
  .ofList ((GoTime.formatSeconds s ++ 46 :: GoBytes.decimals 3 (s.nanos.toNat / 1000000) ++
    [90]).map fun b : Byte ↦ Char.ofNat b.val)

/-! ## GeoJSON -/

/-- `geoFeature`. -/
def geoFeature (geometry : Json) (properties : List (String × Json)) : Json :=
  .obj [("type", .str "Feature"), ("geometry", geometry), ("properties", .obj properties)]

/-- A geometry.  The keys of a map are written in the order of the alphabet. -/
def geometry (kind : String) (coordinates : Json) : Json :=
  .obj [("coordinates", coordinates), ("type", .str kind)]

/-- `position3D`. -/
def position3D (p : Position) : Json :=
  match p.altGeodeticM with
  | some alt => .arr [.num p.lon, .num p.lat, .num alt]
  | none => .arr [.num p.lon, .num p.lat]

/-- `trackProperties`. -/
def trackProperties (t : Track) : List (String × Json) :=
  [("adsb_correlated", .bool t.adsbCorrelated), ("confidence", .num t.confidence),
    ("detection_count", .num t.detectionCount), ("first_seen", .str (formatMillis t.firstSeen)),
    ("last_seen", .str (formatMillis t.lastSeen))] ++
  (if t.identity.macs = [] then [] else [("macs", .arr (t.identity.macs.map .str))]) ++
  (if t.identity.operatorID = "" then [] else [("operator_id", .str t.identity.operatorID)]) ++
  (if t.identity.serial = "" then [] else [("serial", .str t.identity.serial)]) ++
  [("state", .str t.state), ("track_id", .str t.trackID)] ++
  (if t.identity.vendor = "" then [] else [("vendor", .str t.identity.vendor)])

/-- The geometry of the path. -/
def pathGeometry (coords : List Json) : Json :=
  match coords with
  | [] => .null
  | [c] => geometry "Point" c
  | coords => geometry "LineString" (.arr coords)

/-- The feature of the operator. -/
def operatorFeature (t : Track) (o : OperatorPosition) : Json :=
  geoFeature (geometry "Point" (.arr [.num o.lon, .num o.lat]))
    [("kind", .str "operator"), ("track_id", .str t.trackID)]

def trackGeoJSON (t : Track) : Json :=
  let path := geoFeature (pathGeometry (t.history.map position3D)) (trackProperties t)
  .obj [("features", .arr (path :: t.operator.toList.map (operatorFeature t))),
    ("type", .str "FeatureCollection")]

/-! ## CSV -/

variable (fmt : FloatFormat)

/-- `optFloat`. -/
def optFloat (v : Option ℚ) : String :=
  match v with
  | none => ""
  | some v => fmt.f v

/-- The first record. -/
def csvHeader : List String :=
  ["track_id", "at", "lat", "lon", "alt_geodetic_m", "height_agl_m", "speed_mps", "track_deg"]

/-- The record of a position. -/
def csvRecord (t : Track) (p : Position) : List String :=
  [t.trackID, formatMillis p.atTime, fmt.f p.lat, fmt.f p.lon, optFloat fmt p.altGeodeticM,
    optFloat fmt p.heightAGLM, optFloat fmt p.speedMPS, optFloat fmt p.trackDeg]

def trackCSV (t : Track) : List (List String) := csvHeader :: t.history.map (csvRecord fmt t)

/-! ## KML -/

/-- `kmlPlacemark`. -/
def kmlPlacemark (name description : String) (shape : Xml) : Xml :=
  .element "Placemark" [] [.leaf "name" name, .leaf "description" description, shape]

/-- `kmlLine`. -/
def kmlLine (altitudeMode : String) (tessellate : ℕ) (coordinates : String) : Xml :=
  .element "LineString" []
    [.leaf "altitudeMode" altitudeMode, .leaf "tessellate" (toString tessellate),
      .leaf "coordinates" coordinates]

/-- `kmlPointEl`. -/
def kmlPointEl (coordinates : String) : Xml :=
  .element "Point" [] [.leaf "coordinates" coordinates]

/-- `trackLabel`. -/
def trackLabel (t : Track) : String :=
  if t.identity.serial ≠ "" then t.identity.serial else t.trackID

/-- A position of the line.  One without an altitude is given the altitude 0. -/
def kmlPosition (p : Position) : String :=
  fmt.g p.lon ++ "," ++ fmt.g p.lat ++ "," ++ fmt.g (p.altGeodeticM.getD 0)

/-- The placemark of the path. -/
def pathPlacemark (t : Track) : Xml :=
  kmlPlacemark (trackLabel t)
    ("ClassG track " ++ t.trackID ++ ", " ++ toString t.detectionCount ++ " detections")
    (kmlLine "absolute" 1 ("\n".intercalate (t.history.map (kmlPosition fmt))))

/-- The placemark of the operator. -/
def operatorPlacemark (o : OperatorPosition) : Xml :=
  kmlPlacemark "Operator" "Reported operator ground position"
    (kmlPointEl (fmt.g o.lon ++ "," ++ fmt.g o.lat ++ ",0"))

def trackKML (t : Track) : Xml :=
  .element "kml" [("xmlns", "http://www.opengis.net/kml/2.2")]
    ((if t.history = [] then [] else [pathPlacemark fmt t]) ++
      t.operator.toList.map (operatorPlacemark fmt))

end ClassG.Api
