import Mimirsbrunn.Places.Documents
import Mimirsbrunn.Osm.Street

namespace Mimirsbrunn
open Regex Std

structure OsmTagsFilter where
  key : Text
  value : Text
  deriving DecidableEq, Repr

structure Rule where
  osm_tags_filters : List OsmTagsFilter
  poi_type_id : Text
  deriving DecidableEq, Repr

structure PoiConfig where
  poi_types : List Places.PoiType
  rules : List Rule

namespace PoiConfig

def getPoiType (config : PoiConfig) (tags : Tags) : Option Places.PoiType :=
  (config.rules.find? (fun rule => rule.osm_tags_filters.all (fun f =>
    (tags[f.key]?).elim false (· == f.value)))).bind (fun rule =>
      config.poi_types.find? (fun poi_type => poi_type.id == rule.poi_type_id))

end PoiConfig

structure OsmReader.Poi where
  id : Text
  name : Text
  label : Text
  coord : Coord
  approx_coord : Option Coord
  zip_codes : List Text
  administrative_regions : List Admin
  poi_type : Places.PoiType
  properties : Tags
  country_codes : List Text

def Labels.formatPoiLabel (name : Text) (admins : List Admin) (country_codes : List Text) : Text :=
  formatLabel name admins country_codes

def OsmObj.tags : OsmObj → Tags
  | .node n => n.tags
  | .way w => w.tags
  | .relation r => r.tags

def Coord.isDefault (coord : Coord) : Bool := coord.lat == 0 && coord.lon == 0

def Coord.isValid (coord : Coord) : Bool :=
  !coord.isDefault && (-900000000 ≤ coord.lat ∧ coord.lat ≤ 900000000 ∧
    -1800000000 ≤ coord.lon ∧ coord.lon ≤ 1800000000)

def makeCentroid (centroid : Option Coord) : Coord :=
  let coord := centroid.getD default
  if coord.isValid then coord else default

def formatPoiId (osm_type : Text) (id : Int) : Text :=
  "poi:osm:".toList ++ osm_type ++ ":".toList ++ showInt id

-- `centroid` gives the middle of the boundary that the members of a relation build.
def poiCoord (obj_map : ObjWrapper) (centroid : Relation → Option Coord) : OsmObj → Text × Coord
  | .node node => (formatPoiId "node".toList node.id, node.coord)
  | .way way => (formatPoiId "way".toList way.id, getWayCoord obj_map way)
  | .relation relation =>
      (formatPoiId "relation".toList relation.id, makeCentroid (centroid relation))

def buildPoi (osmobj : OsmObj) (poi_type : Places.PoiType) (id : Text) (coord : Coord)
    (admins : List Admin) : OsmReader.Poi :=
  let name := osmobj.tags.name.getD poi_type.name
  let country_codes := Admin.findCountryCodes admins
  { id := id
    name := name
    label := Labels.formatPoiLabel name admins country_codes
    coord := coord
    approx_coord := some coord
    zip_codes :=
      match osmobj.tags["addr:postcode".toList]? with
      | some val => if val.isEmpty then Admin.getZipCodesFromAdmins admins else [val]
      | none => Admin.getZipCodesFromAdmins admins
    administrative_regions := admins
    poi_type := poi_type
    properties := osmobj.tags
    country_codes := country_codes }

def parsePoi {G E : Type} [Areal G E] [Envelope E] (osmobj : OsmObj) (obj_map : ObjWrapper)
    (matcher : PoiConfig) (admins_geofinder : AdminGeoFinder G E) (fuel : Nat)
    (centroid : Relation → Option Coord) : Option (Option OsmReader.Poi) :=
  match matcher.getPoiType osmobj.tags with
  | none => some none
  | some poi_type =>
      let (id, coord) := poiCoord obj_map centroid osmobj
      if coord.isDefault then some none
      else (admins_geofinder.get fuel coord).map (fun admins =>
        some (buildPoi osmobj poi_type id coord admins))

end Mimirsbrunn
