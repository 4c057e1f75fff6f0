import Mathlib.Data.List.Infix
import Mimirsbrunn.Places.Communes

namespace Mimirsbrunn.Places
open Regex Std

variable {Shape Geometry : Type}

def inBrackets (nice_name city : Text) : Text :=
  nice_name ++ " (".toList ++ city ++ ")".toList

def EndsWithCity (city label : Text) : Prop :=
  " (".toList ++ city ++ ")".toList <:+ label

variable {nice_name name city : Text}

theorem bracket_suffix_iff {a b : Text} :
    " (".toList ++ a <:+ " (".toList ++ b ↔ a = b ∨ " (".toList ++ a <:+ b := by
  change ' ' :: '(' :: a <:+ ' ' :: '(' :: b ↔ a = b ∨ ' ' :: '(' :: a <:+ b
  rw [List.suffix_cons_iff, List.suffix_cons_iff]
  simp

theorem endsWithCity_iff : EndsWithCity city (inBrackets nice_name name) ↔
    name = city ∨ " (".toList ++ city <:+ name ∨
      ∃ rest, city = rest ++ " (".toList ++ name ∧ " (".toList ++ rest <:+ nice_name := by
  rw [EndsWithCity, inBrackets, List.suffix_append_self_iff]
  constructor
  · intro h
    have hname : " (".toList ++ name <:+ nice_name ++ " (".toList ++ name :=
      ⟨nice_name, (List.append_assoc ..).symm⟩
    rcases List.suffix_or_suffix_of_suffix h hname with hcase | hcase
    · rcases bracket_suffix_iff.mp hcase with heq | hsuffix
      · exact .inl heq.symm
      · exact .inr (.inl hsuffix)
    · rcases bracket_suffix_iff.mp hcase with heq | ⟨rest, hrest⟩
      · exact .inl heq
      · rw [← List.append_assoc] at hrest
        refine .inr (.inr ⟨rest, hrest.symm, ?_⟩)
        rw [← hrest, ← List.append_assoc, ← List.append_assoc, List.suffix_append_self_iff,
          List.suffix_append_self_iff] at h
        exact h
  · rintro (rfl | hsuffix | ⟨rest, rfl, hsuffix⟩)
    · exact ⟨nice_name, (List.append_assoc ..).symm⟩
    · exact hsuffix.trans (List.suffix_append _ _)
    · rw [← List.append_assoc, ← List.append_assoc, List.suffix_append_self_iff,
        List.suffix_append_self_iff]
      exact hsuffix

variable {b : Bano} {admins : List (Admin Shape Geometry)}

theorem formatLabel_zones (country_codes : List Text) :
    Labels.formatLabel nice_name (b.zonesForLabel admins) country_codes =
      inBrackets nice_name (((admins.find? Admin.isCity).map Admin.name).getD b.city) := by
  have hcity : (buildAdminFromBanoCity b.city : Admin Shape Geometry).isCity = true := rfl
  have hfind : (b.zonesForLabel admins).find? Admin.isCity =
      some ((admins.find? Admin.isCity).getD (buildAdminFromBanoCity b.city)) := by
    rw [Bano.zonesForLabel, List.find?_append, List.find?_filter, List.find?_singleton, hcity]
    cases hfirst : admins.find? Admin.isCity with
    | none => simp [hfirst]
    | some admin => simp [hfirst]
  rw [Labels.formatLabel, hfind]
  cases admins.find? Admin.isCity with
  | none => rfl
  | some admin => rfl

def CityShown (b : Bano) (nice_name name : Text) : Prop :=
  name = b.city ∨ " (".toList ++ b.city <:+ name ∨
    ∃ rest, b.city = rest ++ " (".toList ++ name ∧ " (".toList ++ rest <:+ nice_name ∧
      " (".toList ++ rest <:+ b.street

theorem both_end_iff : EndsWithCity b.city (inBrackets nice_name name) ∧
    EndsWithCity b.city (inBrackets b.street name) ↔ CityShown b nice_name name := by
  rw [endsWithCity_iff, endsWithCity_iff, CityShown]
  constructor
  · rintro ⟨heq | hsuffix | ⟨rest, hrest, hnice⟩, hstreet⟩
    · exact .inl heq
    · exact .inr (.inl hsuffix)
    · rcases hstreet with heq | hsuffix | ⟨rest', hrest', hroad⟩
      · exact .inl heq
      · exact .inr (.inl hsuffix)
      · rw [hrest, List.append_assoc, List.append_assoc] at hrest'
        obtain rfl := List.append_cancel_right hrest'
        exact .inr (.inr ⟨rest, hrest, hnice, hroad⟩)
  · rintro (heq | hsuffix | ⟨rest, hrest, hnice, hroad⟩)
    · exact ⟨.inl heq, .inl heq⟩
    · exact ⟨.inr (.inl hsuffix), .inr (.inl hsuffix)⟩
    · exact ⟨.inr (.inr ⟨rest, hrest, hnice⟩), .inr (.inr ⟨rest, hrest, hroad⟩)⟩

variable {formatter : Labels.Formatter} {display : Float → Text}
  {point : Float → Float → Geometry} {admins_from_insee : AdminFromInsee Shape Geometry}
  {admins_geofinder : Coordinate → List (Admin Shape Geometry)} {addr : Addr Shape Geometry}

def CityAgrees (formatter : Labels.Formatter) (b : Bano)
    (admins_from_insee : AdminFromInsee Shape Geometry)
    (admins_geofinder : Coordinate → List (Admin Shape Geometry)) : Prop :=
  ∀ code, b.insee = some (.ok code) →
    let admins := replaceByInsee admins_from_insee code (admins_geofinder ⟨b.lon, b.lat⟩)
    ∀ city, admins.find? Admin.isCity = some city →
      CityShown b (Labels.niceName formatter b.house_number b.street (b.zonesForLabel admins)
        ["fr".toList]) city.name

theorem bano_city_shown_iff
    (h : b.intoAddr formatter display point admins_from_insee admins_geofinder =
      some (.ok addr)) :
    EndsWithCity b.city addr.label ∧ EndsWithCity b.city addr.street.label ↔
      CityAgrees formatter b admins_from_insee admins_geofinder := by
  obtain ⟨fantoir, code, _, hcode, rfl⟩ := Bano.intoAddr_ok.mp h
  have hlabels (admins : List (Admin Shape Geometry)) :
      EndsWithCity b.city (b.buildAddr formatter display point fantoir admins).label ∧
        EndsWithCity b.city (b.buildAddr formatter display point fantoir admins).street.label ↔
      CityShown b (Labels.niceName formatter b.house_number b.street (b.zonesForLabel admins)
        ["fr".toList]) (((admins.find? Admin.isCity).map Admin.name).getD b.city) := by
    rw [← both_end_iff, ← formatLabel_zones ["fr".toList], ← formatLabel_zones ["fr".toList]]
    rfl
  rw [hlabels]
  constructor
  · intro hshown code' hcode' admins city hcity
    rw [hcode] at hcode'
    cases hcode'
    rw [hcity] at hshown
    exact hshown
  · intro hall
    cases hcity : (replaceByInsee admins_from_insee code
        (admins_geofinder ⟨b.lon, b.lat⟩)).find? Admin.isCity with
    | none => exact .inl rfl
    | some city => exact hall code hcode city hcity

def lilleCity : Admin Unit Coordinate :=
  { (Admin.default : Admin Unit Coordinate) with
    id := "admin:fr:59350".toList
    insee := "59350".toList
    level := 8
    name := "Lille".toList
    zone_type := some .City }

def lommeRecord : Bano where
  id := "593550100A-2".toList
  house_number := "2".toList
  street := "Rue Thiers".toList
  zip := "59160".toList
  city := "Lomme".toList
  src := "CAD".toList
  lat := 50
  lon := 3

def lommeAddr : Addr Unit Coordinate :=
  lommeRecord.buildAddr numberThenRoad wholeDegrees Coordinate.mk "593550100A".toList [lilleCity]

theorem lomme_accepted : lommeRecord.intoAddr numberThenRoad wholeDegrees Coordinate.mk ∅
    (fun _ => [lilleCity]) = some (.ok lommeAddr) := rfl

theorem lomme_agrees_iff : EndsWithCity lommeRecord.city lommeAddr.label ∧
    EndsWithCity lommeRecord.city lommeAddr.street.label ↔
      CityAgrees numberThenRoad lommeRecord ∅ (fun _ => [lilleCity]) :=
  bano_city_shown_iff lomme_accepted

theorem lomme_labelled_lille : ∃ addr, lommeRecord.intoAddr numberThenRoad wholeDegrees
    Coordinate.mk ∅ (fun _ => [lilleCity]) = some (.ok addr) ∧
      ¬(EndsWithCity lommeRecord.city addr.label ∧
        EndsWithCity lommeRecord.city addr.street.label) := by
  refine ⟨lommeAddr, lomme_accepted, fun h => ?_⟩
  have hlabel : lommeAddr.street.label = "Rue Thiers (Lille)".toList := rfl
  have hends := h.2
  rw [hlabel, EndsWithCity] at hends
  exact absurd hends (by decide)

end Mimirsbrunn.Places
