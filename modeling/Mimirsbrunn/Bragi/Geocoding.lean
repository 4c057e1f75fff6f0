import Mimirsbrunn.Places.Codec
import Mimirsbrunn.Places.Labels

namespace Mimirsbrunn.Places
open Regex Json

structure NameValue where
  name : Text
  value : Text
  deriving DecidableEq, Repr

structure KeyValue where
  key : Text
  value : Text
  deriving DecidableEq, Repr

structure AssociatedAdmin where
  id : Text
  insee : Text
  level : UInt32
  label : Text
  name : Text
  zip_codes : List Text
  coord : Coord
  bbox : Option Rect
  zone_type : Option ZoneType
  parent_id : Option Text
  codes : List NameValue

structure GeocodeJsonProperty (Color : Type) where
  id : Text
  place_type : ApiType
  zone_type : Option Text
  label : Option Text
  name : Option Text
  housenumber : Option Text
  street : Option Text
  postcode : Option Text
  city : Option Text
  citycode : Option Text
  level : Option UInt32
  administrative_regions : List AssociatedAdmin
  poi_types : List PoiType
  properties : List KeyValue
  address : Option (GeocodeJsonProperty Color)
  commercial_modes : List CommercialMode
  comments : List Comment
  physical_modes : List PhysicalMode
  lines : List (Line Color)
  timezone : Option Text
  codes : List NameValue
  feed_publishers : List FeedPublisher
  bbox : Option Rect
  country_codes : List Text

structure Feature (Geometry Color : Type) where
  feature_type : Text
  geometry : Geometry
  geocoding : GeocodeJsonProperty Color
  distance : Option UInt32

structure GeocodeJsonResponse (Geometry Color : Type) where
  format_type : Text
  version : Text
  query : Option Text
  features : List (Feature Geometry Color)

variable {Shape Geometry Color : Type}

def GeocodeJsonResponse.new (q : Text) (features : List (Feature Geometry Color)) :
    GeocodeJsonResponse Geometry Color :=
  ⟨"FeatureCollection".toList, "0.1.0".toList, some q, features⟩

namespace Admin

def getCityName (admins : List (Admin Shape Geometry)) : Option Text :=
  (admins.find? isCity).map Admin.name

def getCitycode (admins : List (Admin Shape Geometry)) : Option Text :=
  (admins.find? isCity).map Admin.insee

def nameIn (admin : Admin Shape Geometry) (lang : Option Text) : Text :=
  (lang.bind admin.names.get).getD admin.name

def labelIn (admin : Admin Shape Geometry) (lang : Option Text) : Text :=
  (lang.bind admin.labels.get).getD admin.label

end Admin

namespace Poi

def nameIn (poi : Poi Shape Geometry) (lang : Option Text) : Text :=
  (lang.bind poi.names.get).getD poi.name

def labelIn (poi : Poi Shape Geometry) (lang : Option Text) : Text :=
  (lang.bind poi.labels.get).getD poi.label

end Poi

def nameValues (codes : StringMap) : List NameValue :=
  codes.toList.map (fun code => ⟨code.1, code.2⟩)

def keyValues (properties : StringMap) : List KeyValue :=
  properties.toList.map (fun property => ⟨property.1, property.2⟩)

def postcodeOf (zip_codes : List Text) : Option Text :=
  if zip_codes.isEmpty then none else some (List.intercalate ";".toList zip_codes)

def AssociatedAdmin.fromWithLang (admin : Admin Shape Geometry) (lang : Option Text) :
    AssociatedAdmin where
  id := admin.id
  insee := admin.insee
  level := admin.level
  label := admin.labelIn lang
  name := admin.nameIn lang
  zip_codes := admin.zip_codes
  coord := admin.coord
  bbox := admin.bbox
  zone_type := admin.zone_type
  parent_id := admin.parent_id
  codes := nameValues admin.codes

namespace GeocodeJsonProperty

-- The names of zone types are in snake case already.
def fromAdmin (admin : Admin Shape Geometry) (lang : Option Text) :
    GeocodeJsonProperty Color where
  id := admin.id
  place_type := .Zone
  zone_type :=
    let zone_type := (admin.zone_type.map ZoneType.asStr).getD "administrative_region".toList
    if zone_type.isEmpty then none else some zone_type
  label := some (admin.labelIn lang)
  name := some (admin.nameIn lang)
  housenumber := none
  street := none
  postcode := postcodeOf admin.zip_codes
  city := none
  citycode := some admin.insee
  level := some admin.level
  administrative_regions :=
    admin.administrative_regions.map (fun a => AssociatedAdmin.fromWithLang a lang)
  poi_types := []
  properties := []
  address := none
  commercial_modes := []
  comments := []
  physical_modes := []
  lines := []
  timezone := none
  codes := nameValues admin.codes
  feed_publishers := []
  bbox := admin.bbox
  country_codes := admin.country_codes

def fromStreet (street : Street Shape Geometry) (lang : Option Text) :
    GeocodeJsonProperty Color where
  id := street.id
  place_type := .Street
  zone_type := none
  label := some street.label
  name := some street.name
  housenumber := none
  street := some street.name
  postcode := postcodeOf street.zip_codes
  city := Admin.getCityName street.administrative_regions
  citycode := Admin.getCitycode street.administrative_regions
  level := none
  administrative_regions :=
    street.administrative_regions.map (fun a => AssociatedAdmin.fromWithLang a lang)
  poi_types := []
  properties := []
  address := none
  commercial_modes := []
  comments := []
  physical_modes := []
  lines := []
  timezone := none
  codes := []
  feed_publishers := []
  bbox := none
  country_codes := street.country_codes

def fromAddr (addr : Addr Shape Geometry) (lang : Option Text) : GeocodeJsonProperty Color where
  id := addr.id
  place_type := .House
  zone_type := none
  label := some addr.label
  name := some addr.name
  housenumber := some addr.house_number
  street := some addr.street.name
  postcode := postcodeOf addr.zip_codes
  city := Admin.getCityName addr.street.administrative_regions
  citycode := Admin.getCitycode addr.street.administrative_regions
  level := none
  administrative_regions :=
    addr.street.administrative_regions.map (fun a => AssociatedAdmin.fromWithLang a lang)
  poi_types := []
  properties := []
  address := none
  commercial_modes := []
  comments := []
  physical_modes := []
  lines := []
  timezone := none
  codes := []
  feed_publishers := []
  bbox := none
  country_codes := addr.country_codes

def fromPoi (poi : Poi Shape Geometry) (lang : Option Text) : GeocodeJsonProperty Color where
  id := poi.id
  place_type := .Poi
  zone_type := none
  label := some (poi.labelIn lang)
  name := some (poi.nameIn lang)
  housenumber := none
  street := none
  postcode := postcodeOf poi.zip_codes
  city := Admin.getCityName poi.administrative_regions
  citycode := Admin.getCitycode poi.administrative_regions
  level := none
  administrative_regions :=
    poi.administrative_regions.map (fun a => AssociatedAdmin.fromWithLang a lang)
  poi_types := [poi.poi_type]
  properties := keyValues poi.properties
  address := poi.address.map fun
    | .Addr addr => fromAddr addr lang
    | .Street street => fromStreet street lang
  commercial_modes := []
  comments := []
  physical_modes := []
  lines := []
  timezone := none
  codes := []
  feed_publishers := []
  bbox := none
  country_codes := poi.country_codes

def fromStop (stop : Stop Shape Geometry Color) (lang : Option Text) :
    GeocodeJsonProperty Color where
  id := stop.id
  place_type := .StopArea
  zone_type := none
  label := some stop.label
  name := some stop.name
  housenumber := none
  street := none
  postcode := postcodeOf stop.zip_codes
  city := Admin.getCityName stop.administrative_regions
  citycode := Admin.getCitycode stop.administrative_regions
  level := none
  administrative_regions :=
    stop.administrative_regions.map (fun a => AssociatedAdmin.fromWithLang a lang)
  poi_types := []
  properties := keyValues stop.properties
  address := none
  commercial_modes := stop.commercial_modes
  comments := stop.comments
  physical_modes := stop.physical_modes
  lines := stop.lines
  timezone := some stop.timezone
  codes := nameValues stop.codes
  feed_publishers := stop.feed_publishers
  bbox := none
  country_codes := stop.country_codes

def fromWithLang (place : Place Shape Geometry Color) (lang : Option Text) :
    GeocodeJsonProperty Color :=
  match place with
  | .Admin admin => fromAdmin admin lang
  | .Street street => fromStreet street lang
  | .Addr addr => fromAddr addr lang
  | .Poi poi => fromPoi poi lang
  | .Stop stop => fromStop stop lang

end GeocodeJsonProperty

namespace Place

def id : Place Shape Geometry Color → Text
  | .Admin o => o.id
  | .Street o => o.id
  | .Addr o => o.id
  | .Poi o => o.id
  | .Stop o => o.id

def coord : Place Shape Geometry Color → Coord
  | .Admin o => o.coord
  | .Street o => o.coord
  | .Addr o => o.coord
  | .Poi o => o.coord
  | .Stop o => o.coord

def distance : Place Shape Geometry Color → Option UInt32
  | .Admin o => o.distance
  | .Street o => o.distance
  | .Addr o => o.distance
  | .Poi o => o.distance
  | .Stop o => o.distance

def setDistance (d : UInt32) : Place Shape Geometry Color → Place Shape Geometry Color
  | .Admin o => .Admin { o with distance := some d }
  | .Street o => .Street { o with distance := some d }
  | .Addr o => .Addr { o with distance := some d }
  | .Poi o => .Poi { o with distance := some d }
  | .Stop o => .Stop { o with distance := some d }

@[simp] theorem distance_setDistance (d : UInt32) (place : Place Shape Geometry Color) :
    (place.setDistance d).distance = some d := by
  cases place <;> rfl

@[simp] theorem coord_setDistance (d : UInt32) (place : Place Shape Geometry Color) :
    (place.setDistance d).coord = place.coord := by
  cases place <;> rfl

end Place

theorem GeocodeJsonProperty.fromWithLang_setDistance (d : UInt32)
    (place : Place Shape Geometry Color) (lang : Option Text) :
    fromWithLang (place.setDistance d) lang = fromWithLang place lang := by
  cases place <;> rfl

def Feature.fromWithLang (crates : Crates Shape Geometry Color)
    (place : Place Shape Geometry Color) (lang : Option Text) : Feature Geometry Color where
  feature_type := "Feature".toList
  geometry := crates.point place.coord.lon place.coord.lat
  geocoding := GeocodeJsonProperty.fromWithLang place lang
  distance := place.distance

def GeocodeJsonResponse.fromWithLang (crates : Crates Shape Geometry Color)
    (places : List (Place Shape Geometry Color)) (lang : Option Text) :
    GeocodeJsonResponse Geometry Color :=
  .new [] (places.map (fun p => Feature.fromWithLang crates p lang))

end Mimirsbrunn.Places
