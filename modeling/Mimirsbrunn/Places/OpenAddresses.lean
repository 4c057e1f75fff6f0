import Mimirsbrunn.Places.Bano
import Mimirsbrunn.Places.Float64

namespace Mimirsbrunn.Places
open Regex Std

variable {Shape Geometry : Type}

structure OpenAddress where
  id : Text
  street : Text
  postcode : Text
  district : Text
  region : Text
  city : Text
  number : Text
  unit : Text
  lat : Float
  lon : Float

def Admin.findCountryCodes (admins : List (Admin Shape Geometry)) : List Text :=
  admins.filterMap (fun a => getCountryCode a.codes)

-- The eight replacements that both importers make in a house number.
def replaceSeparators (number : Text) : Text :=
  let bare := replaceChar '\n' [] (replaceChar '\r' [] (replaceChar '\t' []
    (replaceChar ' ' [] number)))
  replaceChar ';' ['-'] (replaceChar ':' ['-'] (replaceChar '.' ['-']
    (replaceChar '/' ['-'] bare)))

namespace OpenAddress

variable (formatter : Labels.Formatter) (point : Float → Float → Geometry)

def addrId (o : OpenAddress) (id_precision : Nat) : Text :=
  let id_suffix := ":".toList ++ replaceSeparators o.number
  if 0 < id_precision then
    "addr:".toList ++ F64.displayPrecision id_precision o.lon ++ ";".toList ++
      F64.displayPrecision id_precision o.lat ++ id_suffix
  else "addr:".toList ++ F64.display o.lon ++ ";".toList ++ F64.display o.lat ++ id_suffix

def intoAddr (o : OpenAddress) (admins_geofinder : Coordinate → List (Admin Shape Geometry))
    (id_precision : Nat) : Except Error (Addr Shape Geometry) :=
  let admins := admins_geofinder ⟨o.lon, o.lat⟩
  let country_codes := Admin.findCountryCodes admins
  let weight := ((admins.find? Admin.isCity).map Admin.weight).getD 0
  let street_label := Labels.formatStreetLabel o.street admins country_codes
  let addr_name_label :=
    Labels.formatAddrNameAndLabel formatter o.number o.street admins country_codes
  let zip_codes := o.postcode.splitOn ';'
  let coord : Coord := ⟨o.lon, o.lat⟩
  .ok
    { id := o.addrId id_precision
      name := addr_name_label.1
      label := addr_name_label.2
      house_number := o.number
      street :=
        { id := "street:".toList ++ o.id
          name := o.street
          label := street_label
          administrative_regions := admins
          weight := weight
          zip_codes := zip_codes
          coord := coord
          approx_coord := none
          distance := none
          country_codes := country_codes
          context := none }
      coord := coord
      approx_coord := some (point coord.lon coord.lat)
      weight := weight
      zip_codes := zip_codes
      distance := none
      country_codes := country_codes
      context := none }

end OpenAddress

end Mimirsbrunn.Places
