import Mimirsbrunn.Cosmogony.Hierarchy
import Mimirsbrunn.Library.Greatest
import Mimirsbrunn.Osm.Poi
import Mimirsbrunn.Places.OpenAddresses

namespace Mimirsbrunn
open Regex Std

namespace Places

variable {Shape Geometry Color : Type}

def Admin.getZipCodesFromAdmins (admins : List (Admin Shape Geometry)) : List Text :=
  let level := admins.foldl (fun level adm =>
    if level < adm.level ∧ ¬ adm.zip_codes.isEmpty then adm.level else level) 0
  if level = 0 then []
  else (admins.filter (fun adm => adm.level = level)).flatMap Admin.zip_codes

def Labels.formatStopLabel (name : Text) (admins : List (Admin Shape Geometry))
    (country_codes : List Text) : Text := formatLabel name admins country_codes

def attachStop (stop : Stop Shape Geometry Color) (admins : List (Admin Shape Geometry)) :
    Stop Shape Geometry Color :=
  let country_codes := Admin.findCountryCodes admins
  { stop with
    label := Labels.formatStopLabel stop.name admins country_codes
    zip_codes := Admin.getZipCodesFromAdmins admins
    country_codes := country_codes
    administrative_regions := admins }

def Admin.MostPrecise (admins : List (Admin Shape Geometry)) (zip_codes : List Text) : Prop :=
  Greatest.Collected Admin.level Admin.zip_codes admins zip_codes

theorem Admin.getZipCodesFromAdmins_eq (admins : List (Admin Shape Geometry)) :
    Admin.getZipCodesFromAdmins admins = Greatest.collect Admin.level Admin.zip_codes 0 admins :=
  rfl

theorem zip_codes_most_precise_iff (admins : List (Admin Shape Geometry)) :
    Admin.MostPrecise admins (Admin.getZipCodesFromAdmins admins) ↔
      ((∃ admin ∈ admins, admin.zip_codes ≠ []) →
        ∃ admin ∈ admins, admin.zip_codes ≠ [] ∧ 0 < admin.level) := by
  rw [Admin.getZipCodesFromAdmins_eq]
  exact Greatest.collected_iff

section

variable {crates : Crates Shape Geometry Color} {decimal : Text → Option Float}
  {zones_osm_id : ZonesOsmId} {langs : List Text} {max_weight : Float} {flag : Bool}
  {zone : Zone Shape} {admin : Admin Shape Geometry}

theorem asAdmin_level
    (h : zone.asAdmin crates decimal zones_osm_id langs max_weight flag = some admin) :
    admin.level = zone.admin_level.getD 0 ∧ admin.zip_codes = readZipCodes zone.tags := by
  obtain ⟨id, _, heq⟩ := Option.bind_eq_some_iff.mp h
  cases heq
  exact ⟨rfl, rfl⟩

-- The zip codes of zones without a level are read, stored and never used.
theorem unlevelled_zip_codes_lost {admins : List (Admin Shape Geometry)}
    (h : ∀ admin ∈ admins, ∃ zone : Zone Shape, zone.admin_level = none ∧
      zone.asAdmin crates decimal zones_osm_id langs max_weight flag = some admin) :
    Admin.getZipCodesFromAdmins admins = [] := by
  rw [Admin.getZipCodesFromAdmins_eq]
  refine Greatest.collect_none (fun admin hadmin _ => ?_)
  obtain ⟨zone, hnone, hzone⟩ := h admin hadmin
  rw [(asAdmin_level hzone).1, hnone, Option.getD_none]
  exact UInt32.le_refl 0

end

def louvre : Zone Unit :=
  { nord with
    osm_id := "relation:3067564".toList
    admin_level := none
    zone_type := some .Suburb
    name := "Louvre".toList
    label := "Louvre".toList
    tags := ExtTreeMap.ofList [("addr:postcode".toList, "75001".toList)] }

theorem louvre_zip_codes_lost :
    ∃ admin, louvre.asAdmin plainCrates (fun _ => none) (cosmogonyIdToOsmId [louvre]) []
        ADMIN_MAX_WEIGHT true = some admin ∧
      ¬ Admin.MostPrecise [admin] (Admin.getZipCodesFromAdmins [admin]) := by
  obtain ⟨admin, hadmin, _⟩ := asAdmin_spec plainCrates (fun _ => none) [] true
    (show ([louvre].map Zone.id).Nodup by decide) louvre (List.mem_singleton_self _) rfl
  obtain ⟨_, hzips⟩ := asAdmin_level hadmin
  have hlost : Admin.getZipCodesFromAdmins [admin] = [] :=
    unlevelled_zip_codes_lost (List.forall_mem_singleton.mpr ⟨louvre, rfl, hadmin⟩)
  have hsome : admin.zip_codes ≠ [] := by
    rw [hzips]
    decide +kernel
  refine ⟨admin, hadmin, fun hprecise => ?_⟩
  exact hprecise.nonempty.mpr ⟨admin, List.mem_singleton_self _, hsome⟩ hlost

theorem attachStop_zip_codes_iff (stop : Stop Shape Geometry Color)
    (admins : List (Admin Shape Geometry)) :
    (attachStop stop admins).zip_codes ≠ [] ↔
      ∃ admin ∈ admins, admin.zip_codes ≠ [] ∧ 0 < admin.level :=
  Greatest.collect_ne_nil_iff

end Places

theorem Admin.getZipCodesFromAdmins_eq (admins : List Admin) :
    Admin.getZipCodesFromAdmins admins = Greatest.collect Admin.level Admin.zip_codes 0 admins :=
  rfl

theorem buildStreet_zip_codes_iff (id name : Text) (coord : Coord) (admins : List Admin) :
    (buildStreet id name coord admins).zip_codes ≠ [] ↔
      ∃ admin ∈ admins, admin.zip_codes ≠ [] ∧ 0 < admin.level := by
  rw [buildStreet, Admin.getZipCodesFromAdmins_eq]
  exact Greatest.collect_ne_nil_iff

theorem buildPoi_zip_codes_iff {osmobj : OsmObj} (poi_type : Places.PoiType) (id : Text)
    (coord : Coord) (admins : List Admin)
    (h : ∀ val, osmobj.tags["addr:postcode".toList]? = some val → val = []) :
    (buildPoi osmobj poi_type id coord admins).zip_codes ≠ [] ↔
      ∃ admin ∈ admins, admin.zip_codes ≠ [] ∧ 0 < admin.level := by
  have hzips : (buildPoi osmobj poi_type id coord admins).zip_codes =
      Admin.getZipCodesFromAdmins admins := by
    simp only [buildPoi]
    split
    · next val hval => rw [h val hval, List.isEmpty_nil, if_pos rfl]
    · rfl
  rw [hzips, Admin.getZipCodesFromAdmins_eq]
  exact Greatest.collect_ne_nil_iff

end Mimirsbrunn
