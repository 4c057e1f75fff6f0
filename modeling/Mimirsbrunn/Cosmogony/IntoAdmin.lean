import Mimirsbrunn.Places.Codec

namespace Mimirsbrunn.Places
open Regex Std

-- What is used of a zone; `Shape` stands for its boundary.
structure Zone (Shape : Type) where
  id : Nat
  osm_id : Text
  admin_level : Option UInt32
  zone_type : Option ZoneType
  name : Text
  label : Text
  center : Option Coord
  boundary : Option Shape
  bbox : Option Rect
  tags : StringMap
  center_tags : StringMap
  parent : Option Nat
  international_labels : StringMap

def readInsee (tags : StringMap) : Option Text := tags["ref:INSEE".toList]?

def readZipCodes (tags : StringMap) : List Text :=
  let zip_code := (tags["addr:postcode".toList]?.or tags["postal_code".toList]?).getD []
  ((zip_code.splitOn ';').filter (fun s => !s.isEmpty)).mergeSort (fun a b => (compare a b).isLE)

def getOsmCodesFromTags (tags : StringMap) : StringMap :=
  tags.filter (fun k _ =>
    "ISO3166".toList.isPrefixOf k || "ref:".toList.isPrefixOf k || k == "wikidata".toList)

def getNamesFromTags (tags : StringMap) (langs : List Text) : I18nProperties :=
  ((tags.toList.filter (fun property => "name:".toList.isPrefixOf property.1)).map
    (fun property => (⟨property.1.drop 5, property.2⟩ : Property))).filter
      (fun p => langs.contains p.key)

def ADMIN_MAX_WEIGHT : Float := 1400000000

def clamp (x min max : Float) : Float :=
  let x := if x < min then min else x
  if max < x then max else x

def normalizeWeight (weight max_weight : Float) : Float := clamp (weight / max_weight) 0 1

def unsigned : Text → Bool × Text
  | '+' :: s => (false, s)
  | '-' :: s => (true, s)
  | s => (false, s)

-- Reading of an `f64`: `decimal` reads the decimal numbers.
def f64FromStr (decimal : Text → Option Float) (s : Text) : Option Float :=
  let (negative, word) := unsigned s
  match String.ofList (word.map Char.toLower) with
  | "nan" => some (0 / 0)
  | "inf" | "infinity" => some (if negative then -(1 / 0) else 1 / 0)
  | _ => decimal s

variable {Shape Geometry Color : Type} (crates : Crates Shape Geometry Color)
variable (decimal : Text → Option Float)

def getWeight (tags center_tags : StringMap) : Float :=
  ((tags["population".toList]?.bind (f64FromStr decimal)).or
    (center_tags["population".toList]?.bind (f64FromStr decimal))).getD 0

abbrev ZonesOsmId := ExtTreeMap Nat (Text × Option Text)

def formatId (french_id_retrocompatibility : Bool) (id : Text) (insee : Option Text) : Text :=
  match insee with
  | some insee =>
      if french_id_retrocompatibility then "admin:fr:".toList ++ insee
      else "admin:osm:".toList ++ id
  | none => "admin:osm:".toList ++ id

namespace Zone

variable (zones_osm_id : ZonesOsmId) (langs : List Text) (max_weight : Float)
  (french_id_retrocompatibility : Bool)

-- A zone that is not in `zones_osm_id` makes the import panic.
def asAdmin (zone : Zone Shape) : Option (Admin Shape Geometry) := do
  let formatted := fun entry : Text × Option Text =>
    formatId french_id_retrocompatibility entry.1 entry.2
  let center := zone.center.getD Coord.default
  let codes := getOsmCodesFromTags zone.tags
  let id ← zones_osm_id[zone.id]?.map formatted
  return {
    id
    insee := (readInsee zone.tags).getD []
    level := zone.admin_level.getD 0
    label := zone.label
    name := zone.name
    zip_codes := readZipCodes zone.tags
    weight := normalizeWeight (getWeight decimal zone.tags zone.center_tags) max_weight
    approx_coord := some (crates.point center.lon center.lat)
    coord := center
    boundary := zone.boundary
    administrative_regions := []
    bbox := zone.bbox
    zone_type := zone.zone_type
    parent_id := (zone.parent.bind (zones_osm_id[·]?)).map formatted
    country_codes := (getCountryCode codes).toList
    codes
    names := getNamesFromTags zone.tags langs
    labels := (zone.international_labels.toList.filter (fun l => langs.contains l.1)).map
      (fun l => ⟨l.1, l.2⟩)
    distance := none
    context := none }

def parentIds (admins : ExtTreeMap Text (Admin Shape Geometry)) :
    Nat → Option Text → Option (List Text)
  | _, none => some []
  | 0, some _ => none
  | fuel + 1, some id =>
      match admins[id]? with
      | some par => (parentIds admins fuel par.parent_id).map (id :: ·)
      | none => some [id]

def intoAdmin (all_admins : Option (ExtTreeMap Text (Admin Shape Geometry))) (fuel : Nat)
    (zone : Zone Shape) : Option (Admin Shape Geometry) := do
  let admin ← zone.asAdmin crates decimal zones_osm_id langs max_weight french_id_retrocompatibility
  match all_admins with
  | none => return admin
  | some admins =>
      let parent_ids ← parentIds admins fuel admin.parent_id
      return { admin with administrative_regions := parent_ids.filterMap (admins[·]?) }

def cityInsee (zone : Zone Shape) : Option Text :=
  if zone.zone_type = some .City then readInsee zone.tags else none

end Zone

def cosmogonyIdToOsmId (zones : List (Zone Shape)) : ZonesOsmId :=
  ExtTreeMap.ofList (zones.map (fun z => (z.id, (z.osm_id, z.cityInsee))))

variable (langs : List Text) (french_id_retrocompatibility : Bool)

def firstAdmin (zones : List (Zone Shape)) (zone : Zone Shape) : Option (Admin Shape Geometry) :=
  { zone with boundary := none }.intoAdmin crates decimal (cosmogonyIdToOsmId zones) langs
    ADMIN_MAX_WEIGHT french_id_retrocompatibility none 0

def adminsWithoutBoundaries (zones : List (Zone Shape)) :
    Option (ExtTreeMap Text (Admin Shape Geometry)) :=
  (zones.mapM (firstAdmin crates decimal langs french_id_retrocompatibility zones)).map
    (fun admins => ExtTreeMap.ofList (admins.map (fun admin => (admin.id, admin))))

def indexCosmogony (fuel : Nat) (zones : List (Zone Shape)) :
    Option (List (Admin Shape Geometry)) := do
  let admins ← adminsWithoutBoundaries crates decimal langs french_id_retrocompatibility zones
  zones.mapM (Zone.intoAdmin crates decimal (cosmogonyIdToOsmId zones) langs ADMIN_MAX_WEIGHT
    french_id_retrocompatibility (some admins) fuel)

end Mimirsbrunn.Places
