import Mimirsbrunn.Places.Admin
import Std.Data.ExtTreeMap.Lemmas

-- `Shape` stands for a multi polygon, `Geometry` for a GeoJson geometry, `Color` for an `Rgb`.
namespace Mimirsbrunn.Places
open Regex Std

structure Coord where
  lon : Float
  lat : Float

def Coord.default : Coord := ⟨0, 0⟩

structure Property where
  key : Text
  value : Text
  deriving DecidableEq, Repr

abbrev I18nProperties := List Property

def I18nProperties.get (properties : I18nProperties) (lang : Text) : Option Text :=
  (properties.find? (fun p => p.key = lang)).map Property.value

abbrev StringMap := ExtTreeMap Text Text

def getCountryCode (codes : StringMap) : Option Text := codes["ISO3166-1:alpha2".toList]?

structure Explanation where
  value : Float
  description : Text
  details : List Explanation

structure Context where
  explanation : Option Explanation

structure Coordinate where
  x : Float
  y : Float

-- Only `Rect.new` makes a rectangle, so that no corner of it is out of order.
structure Rect where
  min : Coordinate
  max : Coordinate
  ordered : ¬max.x < min.x ∧ ¬max.y < min.y

structure Admin (Shape Geometry : Type) where
  id : Text
  insee : Text
  level : UInt32
  label : Text
  name : Text
  zip_codes : List Text
  weight : Float
  approx_coord : Option Geometry
  coord : Coord
  boundary : Option Shape
  administrative_regions : List (Admin Shape Geometry)
  bbox : Option Rect
  zone_type : Option ZoneType
  parent_id : Option Text
  country_codes : List Text
  codes : StringMap
  names : I18nProperties
  labels : I18nProperties
  distance : Option UInt32
  context : Option Context

structure Street (Shape Geometry : Type) where
  id : Text
  name : Text
  administrative_regions : List (Admin Shape Geometry)
  label : Text
  weight : Float
  approx_coord : Option Geometry
  coord : Coord
  zip_codes : List Text
  country_codes : List Text
  distance : Option UInt32
  context : Option Context

structure Addr (Shape Geometry : Type) where
  id : Text
  name : Text
  house_number : Text
  street : Street Shape Geometry
  label : Text
  coord : Coord
  approx_coord : Option Geometry
  weight : Float
  zip_codes : List Text
  country_codes : List Text
  distance : Option UInt32
  context : Option Context

inductive Address (Shape Geometry : Type) where
  | Street (street : Street Shape Geometry)
  | Addr (addr : Addr Shape Geometry)

structure PoiType where
  id : Text
  name : Text

structure Poi (Shape Geometry : Type) where
  id : Text
  label : Text
  name : Text
  coord : Coord
  approx_coord : Option Geometry
  administrative_regions : List (Admin Shape Geometry)
  weight : Float
  zip_codes : List Text
  poi_type : PoiType
  properties : StringMap
  address : Option (Address Shape Geometry)
  country_codes : List Text
  names : I18nProperties
  labels : I18nProperties
  distance : Option UInt32
  context : Option Context

structure CommercialMode where
  id : Text
  name : Text

structure PhysicalMode where
  id : Text
  name : Text

structure Network where
  id : Text
  name : Text

structure Line (Color : Type) where
  id : Text
  name : Text
  code : Option Text
  color : Option Color
  text_color : Option Color
  commercial_mode : Option CommercialMode
  network : Option Network
  physical_modes : List PhysicalMode
  sort_order : Option UInt32

structure FeedPublisher where
  id : Text
  license : Text
  name : Text
  url : Text

structure Comment where
  name : Text

structure Stop (Shape Geometry Color : Type) where
  id : Text
  label : Text
  name : Text
  approx_coord : Option Geometry
  coord : Coord
  administrative_regions : List (Admin Shape Geometry)
  weight : Float
  zip_codes : List Text
  commercial_modes : List CommercialMode
  physical_modes : List PhysicalMode
  coverages : List Text
  comments : List Comment
  timezone : Text
  codes : StringMap
  properties : StringMap
  feed_publishers : List FeedPublisher
  distance : Option UInt32
  lines : List (Line Color)
  country_codes : List Text
  context : Option Context

inductive Place (Shape Geometry Color : Type) where
  | Admin (admin : Admin Shape Geometry)
  | Street (street : Street Shape Geometry)
  | Addr (addr : Addr Shape Geometry)
  | Poi (poi : Poi Shape Geometry)
  | Stop (stop : Stop Shape Geometry Color)

end Mimirsbrunn.Places
