import Mathlib.Data.List.Infix
import Mimirsbrunn.Library.Entries
import Mimirsbrunn.Library.Utf8
import Mimirsbrunn.Places.Labels

namespace Mimirsbrunn.Places
open Regex Std

structure Bano where
  id : Text
  house_number : Text
  street : Text
  zip : Text
  city : Text
  src : Text
  lat : Float
  lon : Float

inductive Error where
  | InvalidInseeId (id : Text)
  | InvalidFantoirId (id : Text)
  deriving DecidableEq, Repr

variable {Shape Geometry : Type}

abbrev AdminFromInsee (Shape Geometry : Type) := ExtTreeMap Text (Admin Shape Geometry)

def Admin.default : Admin Shape Geometry where
  id := []
  insee := []
  level := 0
  label := []
  name := []
  zip_codes := []
  weight := 0
  approx_coord := none
  coord := Coord.default
  boundary := none
  administrative_regions := []
  bbox := none
  zone_type := none
  parent_id := none
  country_codes := []
  codes := ∅
  names := []
  labels := []
  distance := none
  context := none

def buildAdminFromBanoCity (city : Text) : Admin Shape Geometry :=
  { Admin.default with name := city, zone_type := some .City }

-- The map that the import builds from the stored admins; the last of two admins of one code stays.
def adminsByInsee (admins : List (Admin Shape Geometry)) : AdminFromInsee Shape Geometry :=
  ExtTreeMap.ofList ((admins.filter (fun a => !a.insee.isEmpty)).map (fun a =>
    (a.insee, { a with boundary := none })))

def trimZeros (code : Text) : Text := code.dropWhile (· == '0')

def replaceByInsee (admins_from_insee : AdminFromInsee Shape Geometry) (insee : Text)
    (admins : List (Admin Shape Geometry)) : List (Admin Shape Geometry) :=
  match admins_from_insee[insee]? with
  | some admin => admins.filter (fun a => a.level != admin.level) ++ [admin]
  | none => admins

def replaceChar (c : Char) (word : Text) (text : Text) : Text :=
  text.flatMap (fun d => if d = c then word else [d])

theorem replaceChar_nil (c : Char) (text : Text) :
    replaceChar c [] text = text.filter (· != c) := by
  induction text with
  | nil => rfl
  | cons d text ih =>
      rw [replaceChar, List.flatMap_cons, ← replaceChar, ih, List.filter_cons]
      by_cases h : d = c <;> simp [h]

theorem replaceChar_one (c d : Char) (text : Text) :
    replaceChar c [d] text = text.map (fun e => if e = c then d else e) := by
  induction text with
  | nil => rfl
  | cons e text ih =>
      rw [replaceChar, List.flatMap_cons, ← replaceChar, ih, List.map_cons]
      by_cases h : e = c <;> simp [h]

namespace Bano

-- `display` prints an `f64`, `point` makes the geometry of a point.
variable (formatter : Labels.Formatter) (display : Float → Text)
  (point : Float → Float → Geometry)

-- `none` is a panic: the slice would cut a character.
def insee (b : Bano) : Option (Except Error Text) :=
  if 5 ≤ Utf8.size b.id then (Utf8.sliceTo 5 b.id).map (fun s => .ok (trimZeros s))
  else some (.error (.InvalidInseeId b.id))

def fantoir (b : Bano) : Option (Except Error Text) :=
  if 10 ≤ Utf8.size b.id then (Utf8.sliceTo 10 b.id).map .ok
  else some (.error (.InvalidFantoirId b.id))

def houseNumberId (b : Bano) : Text :=
  let bare := replaceChar '\n' [] (replaceChar '\r' [] (replaceChar '\t' []
    (replaceChar ' ' [] b.house_number)))
  replaceChar ';' ['-'] (replaceChar ':' ['-'] (replaceChar '.' ['-']
    (replaceChar '/' ['-'] bare)))

def zonesForLabel (b : Bano) (admins : List (Admin Shape Geometry)) : List (Admin Shape Geometry) :=
  admins.filter Admin.isCity ++ [buildAdminFromBanoCity b.city]

def buildAddr (b : Bano) (fantoir : Text)
    (admins : List (Admin Shape Geometry)) : Addr Shape Geometry :=
  let country_codes := ["fr".toList]
  let zones_for_label_formatting := b.zonesForLabel admins
  let street_label := Labels.formatStreetLabel b.street zones_for_label_formatting country_codes
  let addr_name_label := Labels.formatAddrNameAndLabel formatter b.house_number b.street
    zones_for_label_formatting country_codes
  let weight := ((admins.find? (fun a => a.level = 8)).map Admin.weight).getD 0
  let zip_codes := b.zip.splitOn ';'
  let coord : Coord := ⟨b.lon, b.lat⟩
  { id := "addr:".toList ++ display b.lon ++ ";".toList ++ display b.lat ++ ":".toList ++
      b.houseNumberId
    name := addr_name_label.1
    label := addr_name_label.2
    house_number := b.house_number
    street :=
      { id := "street:".toList ++ fantoir
        name := b.street
        label := street_label
        administrative_regions := admins
        weight := weight
        zip_codes := zip_codes
        coord := coord
        approx_coord := none
        distance := none
        country_codes := country_codes
        context := none }
    coord := coord
    approx_coord := some (point coord.lon coord.lat)
    weight := weight
    zip_codes := zip_codes
    distance := none
    country_codes := country_codes
    context := none }

def intoAddr (b : Bano) (admins_from_insee : AdminFromInsee Shape Geometry)
    (admins_geofinder : Coordinate → List (Admin Shape Geometry)) :
    Option (Except Error (Addr Shape Geometry)) :=
  match b.fantoir, b.insee with
  | none, _ => none
  | some (.error e), _ => some (.error e)
  | some (.ok _), none => none
  | some (.ok _), some (.error e) => some (.error e)
  | some (.ok fantoir), some (.ok insee) =>
      some (.ok (b.buildAddr formatter display point fantoir
        (replaceByInsee admins_from_insee insee (admins_geofinder ⟨b.lon, b.lat⟩))))

variable {formatter display point} {b : Bano} {admins_from_insee : AdminFromInsee Shape Geometry}
  {admins_geofinder : Coordinate → List (Admin Shape Geometry)} {addr : Addr Shape Geometry}

theorem intoAddr_ok :
    b.intoAddr formatter display point admins_from_insee admins_geofinder = some (.ok addr) ↔
      ∃ fantoir insee, b.fantoir = some (.ok fantoir) ∧ b.insee = some (.ok insee) ∧
        addr = b.buildAddr formatter display point fantoir
          (replaceByInsee admins_from_insee insee (admins_geofinder ⟨b.lon, b.lat⟩)) := by
  rw [intoAddr]
  constructor
  · intro h
    split at h
    · cases h
    · cases h
    · cases h
    · cases h
    · next fantoir insee hfantoir hinsee =>
      exact ⟨fantoir, insee, hfantoir, hinsee, (Except.ok.inj (Option.some.inj h)).symm⟩
  · rintro ⟨fantoir, insee, hfantoir, hinsee, rfl⟩
    rw [hfantoir, hinsee]

end Bano

end Mimirsbrunn.Places
