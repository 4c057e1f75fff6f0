import Mathlib.Algebra.Group.Int.Defs
import Mimirsbrunn.Library.Floats
import Mimirsbrunn.Library.Json
import Mimirsbrunn.Places.Documents
import Mimirsbrunn.Bragi.Api

namespace Mimirsbrunn.Places
open Regex Std Json

-- What is used of the crates `geojson` and `transit_model`, and how `serde_json` writes a number in
-- a text and reads it there, which need not be the same number.
structure Crates (Shape Geometry Color : Type) where
  writeNumber : Float → Text
  readNumber : Text → Option Float
  point : Float → Float → Geometry
  fromShape : Shape → Geometry
  toShape : Geometry → Option Shape
  writeGeometry : Geometry → Json Float
  -- No geometry is given for a GeoJson feature.
  readGeoJson : Json Float → Option (Option Geometry)
  writeColor : Color → Json Float
  readColor : Json Float → Option Color
  numbers : Shape → List Float

variable {Shape Geometry Color : Type} (crates : Crates Shape Geometry Color)

def Crates.received (value : Json Float) : Option (Json Float) :=
  value.traverse (fun x => crates.readNumber (crates.writeNumber x))

def number (x : Float) : Json Float := if x.isFinite then .num x else .null

def number? : Json Float → Option Float
  | .num x => some x
  | .int n => some (Float.ofInt n)
  | _ => none

def uint (n : UInt32) : Json Float := .int n.toNat

def uint? : Json Float → Option UInt32
  | .int n => if 0 ≤ n ∧ n < 2 ^ 32 then some (UInt32.ofNat n.toNat) else none
  | _ => none

def Coord.encode (coord : Coord) : Json Float :=
  .obj [("lon", number coord.lon), ("lat", number coord.lat)]

def Coord.decode : Json Float → Option Coord
  | .obj [("lon", lon), ("lat", lat)] => do return ⟨← number? lon, ← number? lat⟩
  | .obj [("lat", lat), ("lon", lon)] => do return ⟨← number? lon, ← number? lat⟩
  | .arr [lon, lat] => do return ⟨← number? lon, ← number? lat⟩
  | _ => none

def StringMap.encode (map : StringMap) : Json Float := ofEntries map.toList

def StringMap.decode (value : Json Float) : Option StringMap :=
  value.entries?.map (fun entries => ExtTreeMap.ofList entries)

namespace I18nProperties

def ofMap (map : StringMap) : I18nProperties :=
  map.toList.map (fun entry => ⟨entry.1, entry.2⟩)

def toEntries (properties : I18nProperties) : List (Text × Text) :=
  properties.map (fun p => (p.key, p.value))

def encode (properties : I18nProperties) : Json Float := ofEntries properties.toEntries

def decode (value : Json Float) : Option I18nProperties := (StringMap.decode value).map ofMap

end I18nProperties

namespace Explanation

mutual

def encode : Explanation → Json Float
  | explanation@{ details, .. } => .obj [
      ("value", number explanation.value),
      ("description", .str explanation.description),
      ("details", .arr (encodeAll details))]

def encodeAll : List Explanation → List (Json Float)
  | [] => []
  | detail :: details => detail.encode :: encodeAll details

end

def build (fields : List (String × Json Float)) (details : Option (Option (List Explanation))) :
    Option Explanation := do
  let value ← field fields "value" number?
  let description ← field fields "description" str?
  let details ← details.join
  return { value, description, details }

def decode : Json Float → Option Explanation := tree "details" build

end Explanation

def Context.encode (context : Context) : Json Float :=
  .obj [("explanation", ofOption Explanation.encode context.explanation)]

def Context.decode : Json Float → Option Context
  | .obj fields => do
      let explanation ← fieldOr fields "explanation" (optional Explanation.decode) none
      return { explanation }
  | _ => none

def Rect.new (c1 c2 : Coordinate) : Rect where
  min := ⟨if c1.x < c2.x then c1.x else c2.x, if c1.y < c2.y then c1.y else c2.y⟩
  max := ⟨if c1.x < c2.x then c2.x else c1.x, if c1.y < c2.y then c2.y else c1.y⟩
  ordered := by
    constructor
    · dsimp only
      split
      case isTrue h => exact Floats.lt_asymm h
      case isFalse h => exact h
    · dsimp only
      split
      case isTrue h => exact Floats.lt_asymm h
      case isFalse h => exact h

def serializeRect (bbox : Rect) : Json Float :=
  .arr [number bbox.min.x, number bbox.min.y, number bbox.max.x, number bbox.max.y]

-- Fewer than four numbers make the decoder panic.
def deserializeRect (value : Json Float) : Option (Option Rect) :=
  (optional (array number?) value).bind fun bbox =>
    match bbox with
    | none => some none
    | some (x :: y :: x' :: y' :: _) => some (some (Rect.new ⟨x, y⟩ ⟨x', y'⟩))
    | some _ => none

def customMultiPolygonSerialize (boundary : Shape) : Json Float :=
  crates.writeGeometry (crates.fromShape boundary)

def customMultiPolygonDeserialize (value : Json Float) : Option (Option Shape) :=
  (optional crates.readGeoJson value).map (fun geojson => geojson.join.bind crates.toShape)

def zoneType? (value : Json Float) : Option ZoneType :=
  value.str?.bind fun name =>
    [.Suburb, .CityDistrict, .City, .StateDistrict, .State, .CountryRegion, .Country,
      .NonAdministrative].find? (fun zone_type => ZoneType.asStr zone_type = name)

namespace Admin

mutual

def encode : Admin Shape Geometry → Json Float
  | admin@{ administrative_regions, .. } => .obj ([
      ("type", .str "admin".toList),
      ("id", .str admin.id),
      ("insee", .str admin.insee),
      ("level", uint admin.level),
      ("label", .str admin.label),
      ("name", .str admin.name),
      ("zip_codes", .strs admin.zip_codes),
      ("weight", number admin.weight),
      ("approx_coord", ofOption crates.writeGeometry admin.approx_coord),
      ("coord", admin.coord.encode)] ++
    (given "boundary" (admin.boundary.map (customMultiPolygonSerialize crates)) ++
      ("administrative_regions", .arr (encodeAll administrative_regions)) ::
    (given "bbox" (admin.bbox.map serializeRect) ++ [
      ("zone_type", ofOption (fun zone_type => .str zone_type.asStr) admin.zone_type),
      ("parent_id", ofOption .str admin.parent_id),
      ("country_codes", .strs admin.country_codes),
      ("codes", StringMap.encode admin.codes),
      ("names", admin.names.encode),
      ("labels", admin.labels.encode),
      ("context", ofOption Context.encode admin.context)])))

def encodeAll : List (Admin Shape Geometry) → List (Json Float)
  | [] => []
  | admin :: admins => admin.encode :: encodeAll admins

end

def build (fields : List (String × Json Float))
    (administrative_regions : Option (Option (List (Admin Shape Geometry)))) :
    Option (Admin Shape Geometry) := do
  let id ← field fields "id" str?
  let insee ← field fields "insee" str?
  let level ← field fields "level" uint?
  let label ← field fields "label" str?
  let name ← field fields "name" str?
  let zip_codes ← field fields "zip_codes" strs?
  let weight ← field fields "weight" number?
  let coord ← field fields "coord" Coord.decode
  let boundary ← fieldOr fields "boundary" (customMultiPolygonDeserialize crates) none
  let administrative_regions ← administrative_regions.getD (some [])
  let bbox ← fieldOr fields "bbox" deserializeRect none
  let zone_type ← fieldOr fields "zone_type" (optional zoneType?) none
  let parent_id ← fieldOr fields "parent_id" (optional str?) none
  let country_codes ← fieldOr fields "country_codes" strs? []
  let codes ← fieldOr fields "codes" StringMap.decode ∅
  let names ← fieldOr fields "names" I18nProperties.decode []
  let labels ← fieldOr fields "labels" I18nProperties.decode []
  let context ← fieldOr fields "context" (optional Context.decode) none
  return {
    id, insee, level, label, name, zip_codes, weight
    approx_coord := none
    coord, boundary, administrative_regions, bbox, zone_type, parent_id, country_codes
    codes, names, labels
    distance := none
    context }

def decode : Json Float → Option (Admin Shape Geometry) :=
  tree "administrative_regions" (build crates)

end Admin

namespace Street

def encode (street : Street Shape Geometry) : Json Float :=
  .obj [
    ("type", .str "street".toList),
    ("id", .str street.id),
    ("name", .str street.name),
    ("administrative_regions", .arr (street.administrative_regions.map (Admin.encode crates))),
    ("label", .str street.label),
    ("weight", number street.weight),
    ("approx_coord", ofOption crates.writeGeometry street.approx_coord),
    ("coord", street.coord.encode),
    ("zip_codes", .strs street.zip_codes),
    ("country_codes", .strs street.country_codes),
    ("context", ofOption Context.encode street.context)]

def decode : Json Float → Option (Street Shape Geometry)
  | .obj fields => do
      let id ← field fields "id" str?
      let name ← fieldOr fields "name" str? []
      let administrative_regions ←
        field fields "administrative_regions" (array (Admin.decode crates))
      let label ← field fields "label" str?
      let weight ← field fields "weight" number?
      let coord ← field fields "coord" Coord.decode
      let zip_codes ← field fields "zip_codes" strs?
      let country_codes ← fieldOr fields "country_codes" strs? []
      let context ← fieldOr fields "context" (optional Context.decode) none
      return {
        id, name, administrative_regions, label, weight
        approx_coord := none
        coord, zip_codes, country_codes
        distance := none
        context }
  | _ => none

end Street

namespace Addr

def encode (addr : Addr Shape Geometry) : Json Float :=
  .obj [
    ("type", .str "addr".toList),
    ("id", .str addr.id),
    ("name", .str addr.name),
    ("house_number", .str addr.house_number),
    ("street", addr.street.encode crates),
    ("label", .str addr.label),
    ("coord", addr.coord.encode),
    ("approx_coord", ofOption crates.writeGeometry addr.approx_coord),
    ("weight", number addr.weight),
    ("zip_codes", .strs addr.zip_codes),
    ("country_codes", .strs addr.country_codes),
    ("context", ofOption Context.encode addr.context)]

def decode : Json Float → Option (Addr Shape Geometry)
  | .obj fields => do
      let id ← field fields "id" str?
      let name ← fieldOr fields "name" str? []
      let house_number ← field fields "house_number" str?
      let street ← field fields "street" (Street.decode crates)
      let label ← field fields "label" str?
      let coord ← field fields "coord" Coord.decode
      let weight ← field fields "weight" number?
      let zip_codes ← field fields "zip_codes" strs?
      let country_codes ← fieldOr fields "country_codes" strs? []
      let context ← fieldOr fields "context" (optional Context.decode) none
      return {
        id, name, house_number, street, label, coord
        approx_coord := none
        weight, zip_codes, country_codes
        distance := none
        context }
  | _ => none

end Addr

namespace Address

def encode : Address Shape Geometry → Json Float
  | .Street street => street.encode crates
  | .Addr addr => addr.encode crates

-- Untagged: the variants are tried in their order.
def decode (value : Json Float) : Option (Address Shape Geometry) :=
  match Street.decode crates value with
  | some street => some (.Street street)
  | none => (Addr.decode crates value).map .Addr

end Address

def encodeNamed (id name : Text) : Json Float := .obj [("id", .str id), ("name", .str name)]

def decodeNamed {α : Type} (make : Text → Text → α) : Json Float → Option α
  | .obj fields => do
      let id ← field fields "id" str?
      let name ← field fields "name" str?
      return make id name
  | _ => none

def PoiType.encode (poi_type : PoiType) : Json Float := encodeNamed poi_type.id poi_type.name

def PoiType.decode : Json Float → Option PoiType := decodeNamed PoiType.mk

def CommercialMode.encode (mode : CommercialMode) : Json Float := encodeNamed mode.id mode.name

def CommercialMode.decode : Json Float → Option CommercialMode := decodeNamed CommercialMode.mk

def PhysicalMode.encode (mode : PhysicalMode) : Json Float := encodeNamed mode.id mode.name

def PhysicalMode.decode : Json Float → Option PhysicalMode := decodeNamed PhysicalMode.mk

def Network.encode (network : Network) : Json Float := encodeNamed network.id network.name

def Network.decode : Json Float → Option Network := decodeNamed Network.mk

namespace Poi

def encode (poi : Poi Shape Geometry) : Json Float :=
  .obj [
    ("type", .str "poi".toList),
    ("id", .str poi.id),
    ("label", .str poi.label),
    ("name", .str poi.name),
    ("coord", poi.coord.encode),
    ("approx_coord", ofOption crates.writeGeometry poi.approx_coord),
    ("administrative_regions", .arr (poi.administrative_regions.map (Admin.encode crates))),
    ("weight", number poi.weight),
    ("zip_codes", .strs poi.zip_codes),
    ("poi_type", poi.poi_type.encode),
    ("properties", StringMap.encode poi.properties),
    ("address", ofOption (Address.encode crates) poi.address),
    ("country_codes", .strs poi.country_codes),
    ("names", poi.names.encode),
    ("labels", poi.labels.encode),
    ("context", ofOption Context.encode poi.context)]

def decode : Json Float → Option (Poi Shape Geometry)
  | .obj fields => do
      let id ← field fields "id" str?
      let label ← field fields "label" str?
      let name ← field fields "name" str?
      let coord ← field fields "coord" Coord.decode
      let administrative_regions ←
        field fields "administrative_regions" (array (Admin.decode crates))
      let weight ← field fields "weight" number?
      let zip_codes ← field fields "zip_codes" strs?
      let poi_type ← field fields "poi_type" PoiType.decode
      let properties ← field fields "properties" StringMap.decode
      let address ← fieldOr fields "address" (optional (Address.decode crates)) none
      let country_codes ← fieldOr fields "country_codes" strs? []
      let names ← fieldOr fields "names" I18nProperties.decode []
      let labels ← fieldOr fields "labels" I18nProperties.decode []
      let context ← fieldOr fields "context" (optional Context.decode) none
      return {
        id, label, name, coord
        approx_coord := none
        administrative_regions, weight, zip_codes, poi_type, properties, address, country_codes
        names, labels
        distance := none
        context }
  | _ => none

end Poi

namespace Line

def encode (line : Line Color) : Json Float :=
  .obj ([("id", .str line.id), ("name", .str line.name)] ++
    (given "code" (line.code.map .str) ++
    (given "color" (line.color.map crates.writeColor) ++
    (given "text_color" (line.text_color.map crates.writeColor) ++
    (given "commercial_mode" (line.commercial_mode.map CommercialMode.encode) ++
    (given "network" (line.network.map Network.encode) ++
      [("physical_modes", .arr (line.physical_modes.map PhysicalMode.encode))]))))))

def decode : Json Float → Option (Line Color)
  | .obj fields => do
      let id ← field fields "id" str?
      let name ← field fields "name" str?
      let code ← fieldOr fields "code" (optional str?) none
      let color ← fieldOr fields "color" (optional crates.readColor) none
      let text_color ← fieldOr fields "text_color" (optional crates.readColor) none
      let commercial_mode ←
        fieldOr fields "commercial_mode" (optional CommercialMode.decode) none
      let network ← fieldOr fields "network" (optional Network.decode) none
      let physical_modes ← field fields "physical_modes" (array PhysicalMode.decode)
      let sort_order ← fieldOr fields "sort_order" (optional uint?) none
      return {
        id, name, code, color, text_color, commercial_mode, network, physical_modes, sort_order }
  | _ => none

end Line

def FeedPublisher.encode (publisher : FeedPublisher) : Json Float :=
  .obj [
    ("id", .str publisher.id),
    ("license", .str publisher.license),
    ("name", .str publisher.name),
    ("url", .str publisher.url)]

def FeedPublisher.decode : Json Float → Option FeedPublisher
  | .obj fields => do
      let id ← field fields "id" str?
      let license ← field fields "license" str?
      let name ← field fields "name" str?
      let url ← field fields "url" str?
      return { id, license, name, url }
  | _ => none

def Comment.encode (comment : Comment) : Json Float := .obj [("name", .str comment.name)]

def Comment.decode : Json Float → Option Comment
  | .obj fields => do return { name := ← field fields "name" str? }
  | _ => none

namespace Stop

def encode (stop : Stop Shape Geometry Color) : Json Float :=
  .obj [
    ("type", .str "stop".toList),
    ("id", .str stop.id),
    ("label", .str stop.label),
    ("name", .str stop.name),
    ("approx_coord", ofOption crates.writeGeometry stop.approx_coord),
    ("coord", stop.coord.encode),
    ("administrative_regions", .arr (stop.administrative_regions.map (Admin.encode crates))),
    ("weight", number stop.weight),
    ("zip_codes", .strs stop.zip_codes),
    ("commercial_modes", .arr (stop.commercial_modes.map CommercialMode.encode)),
    ("physical_modes", .arr (stop.physical_modes.map PhysicalMode.encode)),
    ("coverages", .strs stop.coverages),
    ("comments", .arr (stop.comments.map Comment.encode)),
    ("timezone", .str stop.timezone),
    ("codes", StringMap.encode stop.codes),
    ("properties", StringMap.encode stop.properties),
    ("feed_publishers", .arr (stop.feed_publishers.map FeedPublisher.encode)),
    ("lines", .arr (stop.lines.map (Line.encode crates))),
    ("country_codes", .strs stop.country_codes),
    ("context", ofOption Context.encode stop.context)]

def decode : Json Float → Option (Stop Shape Geometry Color)
  | .obj fields => do
      let id ← field fields "id" str?
      let label ← field fields "label" str?
      let name ← field fields "name" str?
      let coord ← field fields "coord" Coord.decode
      let administrative_regions ←
        field fields "administrative_regions" (array (Admin.decode crates))
      let weight ← field fields "weight" number?
      let zip_codes ← field fields "zip_codes" strs?
      let commercial_modes ←
        fieldOr fields "commercial_modes" (array CommercialMode.decode) []
      let physical_modes ← fieldOr fields "physical_modes" (array PhysicalMode.decode) []
      let coverages ← fieldOr fields "coverages" strs? []
      let comments ← fieldOr fields "comments" (array Comment.decode) []
      let timezone ← fieldOr fields "timezone" str? []
      let codes ← fieldOr fields "codes" StringMap.decode ∅
      let properties ← fieldOr fields "properties" StringMap.decode ∅
      let feed_publishers ← fieldOr fields "feed_publishers" (array FeedPublisher.decode) []
      let lines ← fieldOr fields "lines" (array (Line.decode crates)) []
      let country_codes ← fieldOr fields "country_codes" strs? []
      let context ← fieldOr fields "context" (optional Context.decode) none
      return {
        id, label, name
        approx_coord := none
        coord, administrative_regions, weight, zip_codes, commercial_modes, physical_modes
        coverages, comments, timezone, codes, properties, feed_publishers
        distance := none
        lines, country_codes, context }
  | _ => none

end Stop

namespace Place

def encode : Place Shape Geometry Color → Json Float
  | .Admin admin => admin.encode crates
  | .Street street => street.encode crates
  | .Addr addr => addr.encode crates
  | .Poi poi => poi.encode crates
  | .Stop stop => stop.encode crates

def decodeAs (value : Json Float) : PlaceDocType → Option (Place Shape Geometry Color)
  | .Admin => (Admin.decode crates value).map .Admin
  | .Street => (Street.decode crates value).map .Street
  | .Addr => (Addr.decode crates value).map .Addr
  | .Poi => (Poi.decode crates value).map .Poi
  | .Stop => (Stop.decode crates value).map .Stop

-- The tag chooses the variant and is taken out of what the variant reads.
def decode : Json Float → Option (Place Shape Geometry Color)
  | .obj fields => do
      let tag ← field fields "type" str?
      let type ← [.Admin, .Street, .Addr, .Poi, .Stop].find? (fun t => PlaceDocType.asStr t = tag)
      decodeAs crates (.obj (untagged "type" fields)) type
  | _ => none

-- A document as its readers get it; nothing is found in a text that cannot be read.
@[irreducible] def received (place : Place Shape Geometry Color) : Json Float :=
  (crates.received (place.encode crates)).getD .null

end Place

end Mimirsbrunn.Places
