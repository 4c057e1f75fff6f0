import Mimirsbrunn.Imports.Osm2Mimir
import Mimirsbrunn.Osm.Coverage
import Mimirsbrunn.Osm.StreetIds

namespace Mimirsbrunn.Places
open Regex

variable {Shape Geometry : Type}

def Street.setWeightFromAdmins (street : Street Shape Geometry) : Street Shape Geometry :=
  { street with
    weight := ((street.administrative_regions.find? Admin.isCity).map Admin.weight).getD
      street.weight }

def Street.city (street : Street Shape Geometry) : Option Text :=
  (street.administrative_regions.find? Admin.isCity).map Admin.id

end Mimirsbrunn.Places

namespace Mimirsbrunn.Imports
open Regex Std Places

variable {Shape Geometry Color : Type}

namespace Written

def street (w : Written Shape Geometry) (street : Mimirsbrunn.Street) :
    Places.Street Shape Geometry where
  id := street.id
  name := street.name
  administrative_regions := street.administrative_regions.map w.region
  label := street.label
  weight := 0
  approx_coord := street.approx_coord.map w.shape
  coord := w.point street.coord
  zip_codes := street.zip_codes
  country_codes := street.country_codes
  distance := none
  context := none

def streetDocument (w : Written Shape Geometry) (street : Mimirsbrunn.Street) :
    Place Shape Geometry Color := .Street (w.street street).setWeightFromAdmins

structure Faithful (w : Written Shape Geometry) : Prop where
  id : ∀ admin, (w.region admin).id = admin.id
  isCity : ∀ admin, (w.region admin).isCity = admin.isCity

variable {w : Written Shape Geometry} {d : Mimirsbrunn.Street}

theorem city_street (h : w.Faithful) :
    (w.street d).setWeightFromAdmins.city = firstCity d.administrative_regions := by
  have hcity : Places.Admin.isCity ∘ w.region = Mimirsbrunn.Admin.isCity := funext h.isCity
  have hid : Places.Admin.id ∘ w.region = Mimirsbrunn.Admin.id := funext h.id
  have hregions : (w.street d).setWeightFromAdmins.administrative_regions =
      d.administrative_regions.map w.region := rfl
  rw [Places.Street.city, firstCity, hregions, List.find?_map, Option.map_map, hcity, hid]

end Written

section Imported

variable {G B : Type} [Mimirsbrunn.Geometry G B] [Envelope B]
  {admins_geofinder : AdminGeoFinder G B} {objs_map : ObjWrapper} {sort : BranchSort} {fuel : Nat}
  {streets : List Mimirsbrunn.Street} {w : Written Shape Geometry} {a : Text}
  {s : PlaceStore Shape Geometry Color}

structure HoldsStreets (admins_geofinder : AdminGeoFinder G B) (objs_map : ObjWrapper)
    (w : Written Shape Geometry) (a : Text) (s : PlaceStore Shape Geometry Color) : Prop where
  one : ∀ name city, (∃ way admins, Candidate admins_geofinder objs_map name city way admins) →
    ∃ way branch id, Chosen admins_geofinder objs_map name city way branch ∧ WayId way.id id ∧
      s.document a id = some (w.streetDocument (buildStreet id name (getWayCoord objs_map way)
        branch)) ∧
      ∀ other street, s.document a other = some (.Street street) →
        "street:osm:way:".toList.isPrefixOf other = true → street.name = name →
        street.city = some city → other = id
  relation : ∀ rel ∈ objs_map.relations, ∀ way name all_admins, Represents objs_map rel way name →
    Branches admins_geofinder objs_map way all_admins → ∀ branch ∈ all_admins, ∃ suffix,
      s.document a (docId "relation".toList rel.id suffix) = some (w.streetDocument (buildStreet
        (docId "relation".toList rel.id suffix) name (getWayCoord objs_map way) branch))
  only : ∀ id place, s.document a id = some place →
    ∃ name way branch, place = w.streetDocument (buildStreet id name (getWayCoord objs_map way)
      branch) ∧ ((∃ city, Chosen admins_geofinder objs_map name city way branch ∧
        WayId way.id id) ∨
      ∃ rel ∈ objs_map.relations, ∃ all_admins suffix, Represents objs_map rel way name ∧
        Branches admins_geofinder objs_map way all_admins ∧ branch ∈ all_admins ∧
        id = docId "relation".toList rel.id suffix)

theorem holds_streets (hw : w.Faithful)
    (run : StreetRun admins_geofinder fuel sort objs_map streets)
    (hexact : ∀ id place, s.document a id = some place ↔
      place ∈ streets.map (w.streetDocument : _ → Place Shape Geometry Color) ∧ place.id = id) :
    HoldsStreets admins_geofinder objs_map w a s := by
  have hstored {d : Mimirsbrunn.Street} (hd : d ∈ streets) :
      s.document a d.id = some (w.streetDocument d) :=
    (hexact _ _).mpr ⟨List.mem_map_of_mem hd, rfl⟩
  constructor
  · intro name city hcandidate
    obtain ⟨way, branch, id, hchosen, hid, hone⟩ := run.exact.one name city hcandidate
    have hmem := List.mem_filter.mp (hone ▸ List.mem_singleton_self _)
    refine ⟨way, branch, id, hchosen, hid, hstored (List.mem_filter.mp hmem.1).1, ?_⟩
    intro other street hstreet hway hname hcity
    obtain ⟨hplace, hother⟩ := (hexact _ _).mp hstreet
    obtain ⟨d, hd, hsame⟩ := List.mem_map.mp hplace
    obtain rfl := Place.Street.inj hsame
    obtain rfl : d.id = other := hother
    rw [Written.city_street hw] at hcity
    have hfound : d ∈ (wayDocuments streets).filter
        (fun d => d.name = name ∧ firstCity d.administrative_regions = some city) :=
      List.mem_filter.mpr ⟨List.mem_filter.mpr ⟨hd, hway⟩, decide_eq_true ⟨hname, hcity⟩⟩
    rw [hone, List.mem_singleton] at hfound
    rw [hfound]
    rfl
  · intro rel hrel way name all_admins hrepresents hbranches branch hbranch
    have hrun := run.rels_perm.mem_iff.mpr hrel
    obtain ⟨all, hall⟩ := relations_admins run.relations_pass hrun (relStreet_iff.mpr hrepresents)
    obtain rfl := hbranches.unique ⟨fuel, hall⟩
    obtain ⟨suffix, hd⟩ := exists_mem_buildStreetsForAdmins hbranch
    exact ⟨suffix, hstored (run.mem_streets.mpr (.inl ⟨rel, hrel, way, name, _,
      relStreet_iff.mpr hrepresents, hall, hd⟩))⟩
  · intro id place hplace
    obtain ⟨hmem, hid⟩ := (hexact id place).mp hplace
    obtain ⟨d, hd, rfl⟩ := List.mem_map.mp hmem
    obtain rfl : d.id = id := hid
    rcases run.mem_streets.mp hd with ⟨rel, hrel, way, name, all, hstreet, hall, hb⟩ | hway
    · obtain ⟨branch, hbranch, suffix, rfl⟩ := mem_buildStreetsForAdmins hb
      exact ⟨name, way, branch, rfl, .inr ⟨rel, hrel, all, suffix, relStreet_iff.mp hstreet,
        ⟨fuel, hall⟩, hbranch, rfl⟩⟩
    · obtain ⟨name, city, way, branch, suffix, hchosen, rfl⟩ :=
        wayStreets_sound run.merges run.groups_perm hway
      exact ⟨name, way, branch, rfl, .inl ⟨city, hchosen, wayId_docId _ suffix⟩⟩

theorem osm_streets_imported (hw : w.Faithful) {schedule : Schedule} {exclusions : StreetExclusion}
    {getObjsAndDepsStore : (OsmObj → Bool) → Except Text ObjWrapper}
    (hread : getObjsAndDepsStore (isValidObj exclusions) = .ok objs_map)
    (hstreets : innerStreets admins_geofinder fuel schedule sort exclusions getObjsAndDepsStore =
      some (.ok streets))
    {E : Engine (Place Shape Geometry Color)} {i : ImportOf Shape Geometry Color} {dataset : Text}
    {s₀ : PlaceStore Shape Geometry Color} {index : Index} (hd : Piece dataset)
    (hi : i.PublicFor PlaceDocType.Street.asStr dataset)
    (hdocs : i.documents = streets.map w.streetDocument)
    (ha : a ∈ aliases PlaceDocType.Street.asStr dataset) (hnot : a ∉ s₀.indices)
    (hown : ∀ m, s₀.Aliased a m → Matches PlaceDocType.Street.asStr dataset m)
    (himport : (elasticsearch E).Reach (s₀, i.run) (s, Client.done (.ok index))) :
    HoldsStreets admins_geofinder objs_map w a s := by
  obtain ⟨run⟩ := innerStreets_run hread hstreets
  refine holds_streets hw run fun id place => ?_
  have hids : (i.documents.map Document.id).Nodup := by
    rw [hdocs, List.map_map]
    exact run.ids_nodup
  rw [← hdocs]
  exact import_exact (PlaceDocType.asStr_piece _) hd hi ha hnot hown hids himport

end Imported

theorem plainWritten_faithful : plainWritten.Faithful := ⟨fun _ => rfl, fun _ => rfl⟩

theorem split_read : ∃ streets, innerStreets lilleFinder 1 .stored branchSort ⟨none, none⟩
    (fun _ => .ok splitStore) = some (.ok streets) ∧ streets.length = 1 := by
  have hone : (innerStreets lilleFinder 1 .stored branchSort ⟨none, none⟩
      (fun _ => .ok splitStore)).elim false (fun read =>
        read.toOption.elim false (fun streets => streets.length = 1)) = true := by
    decide +kernel
  cases h : innerStreets lilleFinder 1 .stored branchSort ⟨none, none⟩ (fun _ => .ok splitStore) with
  | none =>
    rw [h] at hone
    cases hone
  | some read =>
    rw [h] at hone
    cases read with
    | error e => cases hone
    | ok streets => exact ⟨streets, rfl, of_decide_eq_true hone⟩

def streetAlias : Text := rootDoctype PlaceDocType.Street.asStr

def rueBasseImport (streets : List Mimirsbrunn.Street) : ImportOf Unit PlainGeometry Text :=
  .plain "street".toList "fr".toList (.utc 2021 5 4 0 0 0 0)
    (streets.map plainWritten.streetDocument)

theorem split_way_imported : ∃ streets s index,
    innerStreets lilleFinder 1 .stored branchSort ⟨none, none⟩ (fun _ => .ok splitStore) =
      some (.ok streets) ∧
    (elasticsearch (.permissive _)).Reach (⟨∅, []⟩, (rueBasseImport streets).run)
      (s, .done (.ok index)) ∧
    ∃ id branch, WayId 5 id ∧ s.document streetAlias id =
      some (plainWritten.streetDocument (buildStreet id "Rue Basse".toList
        (getWayCoord splitStore (splitWay 5)) branch)) := by
  obtain ⟨streets, hstreets, hlength⟩ := split_read
  have hsmooth : Smooth (.permissive _) (rueBasseImport streets) :=
    Import.plain_smooth (by decide) (by decide) _ (by simp [hlength])
  have hfresh : (rueBasseImport streets).indexName ∉
      (⟨∅, []⟩ : PlaceStore Unit PlainGeometry Text).indices := by simp
  obtain ⟨s, index, himport⟩ := Phase.import_completes hsmooth hfresh
  have hholds := osm_streets_imported (a := streetAlias) plainWritten_faithful rfl hstreets
    (show Piece "fr".toList by decide) (i := rueBasseImport streets) ⟨rfl, rfl, rfl⟩ rfl
    (by decide) (by simp) (fun m h => absurd h (not_aliased_empty _ m)) himport
  obtain ⟨all, admins, hall, hfirst⟩ := splitWay_branches 5
  have hcandidate : Candidate lilleFinder splitStore "Rue Basse".toList lille.id (splitWay 5)
      admins :=
    ⟨splitStore_ways.mpr (.inr rfl), splitStore_outside _, splitWay_name _, all, hall, hfirst⟩
  obtain ⟨way, branch, id, hchosen, hid, hstored, _⟩ := hholds.one _ _ ⟨_, _, hcandidate⟩
  rcases splitStore_ways.mp hchosen.stored with rfl | rfl
  · have hle := hchosen.smallest _ _ hcandidate
    simp [splitWay] at hle
  · exact ⟨streets, s, index, hstreets, himport, id, branch, hid, hstored⟩

end Mimirsbrunn.Imports
