import Mimirsbrunn.Places.Admin

namespace Mimirsbrunn
open Regex Std

def ZoneType.asStr : ZoneType → Text
  | .Suburb => "suburb".toList
  | .CityDistrict => "city_district".toList
  | .City => "city".toList
  | .StateDistrict => "state_district".toList
  | .State => "state".toList
  | .CountryRegion => "country_region".toList
  | .Country => "country".toList
  | .NonAdministrative => "non_administrative".toList

inductive PlaceDocType where
  | Admin
  | Street
  | Addr
  | Poi
  | Stop
  deriving DecidableEq, Repr

def PlaceDocType.asStr : PlaceDocType → Text
  | .Admin => "admin".toList
  | .Street => "street".toList
  | .Addr => "addr".toList
  | .Poi => "poi".toList
  | .Stop => "stop".toList

inductive ApiType where
  | House
  | Poi
  | StopArea
  | Street
  | Zone
  | City
  deriving DecidableEq, Repr

namespace ApiType

def asStr : ApiType → Text
  | .House => "house".toList
  | .Poi => "poi".toList
  | .StopArea => "public_transport:stop_area".toList
  | .Street => "street".toList
  | .Zone => "zone".toList
  | .City => "city".toList

def asIndexType : ApiType → Text
  | .House => PlaceDocType.Addr.asStr
  | .Poi => PlaceDocType.Poi.asStr
  | .StopArea => PlaceDocType.Stop.asStr
  | .Street => PlaceDocType.Street.asStr
  | .Zone => PlaceDocType.Admin.asStr
  | .City => PlaceDocType.Admin.asStr

def all : List ApiType := [.House, .Poi, .StopArea, .Street, .Zone, .City]

end ApiType

def defaultLimitResultEs : Int := 10

def defaultLimitResultReverseApi : Int := 1

def defaultLang : Text := "fr".toList

-- `F` stands for `f64`; a duration is a number of nanoseconds.
structure Proximity (F : Type) where
  scale : F
  offset : F
  decay : F

structure ForwardGeocoderQuery (F : Type) where
  q : Text
  lat : Option Float32
  lon : Option Float32
  shape_scope : Option (List PlaceDocType)
  types : Option (List ApiType)
  zone_types : Option (List ZoneType)
  poi_types : Option (List Text)
  limit : Int
  lang : Text
  timeout : Option Nat
  pt_dataset : Option (List Text)
  poi_dataset : Option (List Text)
  request_id : Option Text
  proximity : Option (Proximity F)

structure ForwardGeocoderExplainQuery (F : Type) where
  doc_id : Text
  doc_type : Text
  query : ForwardGeocoderQuery F

structure FeaturesQuery where
  pt_dataset : Option (List Text)
  poi_dataset : Option (List Text)
  timeout : Option Nat

structure ReverseGeocoderQuery where
  lat : Float
  lon : Float
  limit : Int
  timeout : Option Nat

structure QueryCoord where
  lat : Float32
  lon : Float32

structure Filters (F Shape : Type) where
  coord : Option QueryCoord
  shape : Option (Shape × List Text)
  zone_types : Option (List Text)
  poi_types : Option (List Text)
  limit : Int
  timeout : Option Nat
  proximity : Option (Proximity F)

def Filters.from {F Shape : Type} (query : ForwardGeocoderQuery F) (geometry : Option Shape) :
    Filters F Shape where
  coord := match query.lat, query.lon with
    | some lat, some lon => some ⟨lat, lon⟩
    | _, _ => none
  shape := geometry.map (fun geometry => (geometry,
    (query.shape_scope.map (List.map PlaceDocType.asStr)).getD
      ([.Poi, .Street, .Admin, .Addr, .Stop].map PlaceDocType.asStr)))
  zone_types := query.zone_types.map (List.map ZoneType.asStr)
  poi_types := query.poi_types
  limit := query.limit
  timeout := query.timeout
  proximity := query.proximity

end Mimirsbrunn
