import Mathlib.Logic.Function.Basic
import Mimirsbrunn.Places.Documents

namespace Mimirsbrunn.Places
open Regex Std

variable {Shape Geometry : Type}

def Admin.isCity (admin : Admin Shape Geometry) : Bool := admin.zone_type = some .City

namespace Labels

def formatLabel (nice_name : Text) (admins : List (Admin Shape Geometry))
    (_country_codes : List Text) : Text :=
  match (admins.find? Admin.isCity).map Admin.name with
  | some n => nice_name ++ " (".toList ++ n ++ ")".toList
  | none => nice_name

def formatStreetLabel (name : Text) (admins : List (Admin Shape Geometry))
    (country_codes : List Text) : Text := formatLabel name admins country_codes

inductive Component where
  | HouseNumber
  | Road
  | Suburb
  | City
  | County
  | State
  | Country
  deriving DecidableEq, Repr

abbrev FormattedPlace := Component → Option Text

-- The address formatter: a place, the country whose rules it follows, the short form.
abbrev Formatter := FormattedPlace → Option Text → Option Text

def cosmoToAddrFormatterType : Option ZoneType → Option Component
  | some .City => some .City
  | some .Country => some .Country
  | some .State => some .State
  | some .Suburb => some .Suburb
  | some .StateDistrict => some .County
  | _ => none

structure FormatPlaceHolder where
  street : Text
  house_number : Option Text

def FormatPlaceHolder.fromAddr (house_number street : Text) : FormatPlaceHolder :=
  ⟨street, some house_number⟩

def FormatPlaceHolder.intoPlace (holder : FormatPlaceHolder)
    (admins : List (Admin Shape Geometry)) : FormattedPlace :=
  let place : FormattedPlace := fun
    | .HouseNumber => holder.house_number
    | .Road => some holder.street
    | _ => none
  admins.foldl (fun place a =>
    match cosmoToAddrFormatterType a.zone_type with
    | some addr_equivalent => Function.update place addr_equivalent (some a.name)
    | none => place) place

def getShortAddrLabel (formatter : Formatter) (place : FormatPlaceHolder)
    (admins : List (Admin Shape Geometry)) (country_codes : List Text) : Option Text :=
  formatter (place.intoPlace admins) country_codes.head?

def defaultName (house_number street : Text) : Text := street ++ " ".toList ++ house_number

def niceName (formatter : Formatter) (house_number street_name : Text)
    (admins : List (Admin Shape Geometry)) (country_codes : List Text) : Text :=
  (getShortAddrLabel formatter (.fromAddr house_number street_name) admins country_codes).getD
    (defaultName house_number street_name)

def formatAddrNameAndLabel (formatter : Formatter) (house_number street_name : Text)
    (admins : List (Admin Shape Geometry)) (country_codes : List Text) : Text × Text :=
  let nice_name := niceName formatter house_number street_name admins country_codes
  (nice_name, formatLabel nice_name admins country_codes)

end Labels

end Mimirsbrunn.Places
