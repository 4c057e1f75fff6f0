import Mimirsbrunn.Library.Regex
import Std.Data.TreeMap.Lemmas
import Mathlib.Data.List.Lex

namespace Mimirsbrunn
open Regex Std

inductive ZoneType where
  | Suburb
  | CityDistrict
  | City
  | StateDistrict
  | State
  | CountryRegion
  | Country
  | NonAdministrative
  deriving DecidableEq, Repr

def ZoneType.rank : ZoneType → Nat
  | .Suburb => 0
  | .CityDistrict => 1
  | .City => 2
  | .StateDistrict => 3
  | .State => 4
  | .CountryRegion => 5
  | .Country => 6
  | .NonAdministrative => 7

instance : LE ZoneType := ⟨fun a b => a.rank ≤ b.rank⟩

instance (a b : ZoneType) : Decidable (a ≤ b) := inferInstanceAs (Decidable (a.rank ≤ b.rank))

def zoneOrder : Option ZoneType → Option ZoneType → Bool
  | none, _ => true
  | some _, none => false
  | some a, some b => a ≤ b

-- Longitude and latitude in decimicro degrees.
structure Coord where
  lon : Int
  lat : Int
  deriving DecidableEq, Repr

instance : Inhabited Coord := ⟨⟨0, 0⟩⟩

structure Admin where
  id : Text
  level : Nat
  name : Text
  zip_codes : List Text
  zone_type : Option ZoneType
  parent_id : Option Text
  codes : TreeMap Text Text

namespace Admin

def isCity (admin : Admin) : Bool := admin.zone_type = some .City

def getCountryCode (codes : TreeMap Text Text) : Option Text :=
  codes["ISO3166-1:alpha2".toList]?

def findCountryCodes (admins : List Admin) : List Text :=
  admins.filterMap (fun a => getCountryCode a.codes)

def getZipCodesFromAdmins (admins : List Admin) : List Text :=
  let level := admins.foldl (fun level adm =>
    if level < adm.level ∧ ¬ adm.zip_codes.isEmpty then adm.level else level) 0
  if level = 0 then []
  else (admins.filter (fun adm => adm.level = level)).flatMap Admin.zip_codes

def listOrder (a b : List Admin) : Bool :=
  (compare (a.map Admin.id) (b.map Admin.id)).isLE

end Admin

structure Street where
  id : Text
  name : Text
  administrative_regions : List Admin
  label : Text
  weight : Nat
  approx_coord : Option Coord
  coord : Coord
  zip_codes : List Text
  country_codes : List Text

namespace Labels

def formatLabel (nice_name : Text) (admins : List Admin) (_country_codes : List Text) : Text :=
  match (admins.find? Admin.isCity).map Admin.name with
  | some n => nice_name ++ " (".toList ++ n ++ ")".toList
  | none => nice_name

def formatStreetLabel (name : Text) (admins : List Admin) (country_codes : List Text) : Text :=
  formatLabel name admins country_codes

end Labels

end Mimirsbrunn
