import Std.Data.TreeMap.Lemmas
import Mathlib.Control.Basic
import Mimirsbrunn.Library.Grouping
import Mimirsbrunn.Osm.ObjWrapper
import Mimirsbrunn.Places.AdminGeoFinder

namespace Mimirsbrunn
open Regex Std

structure StreetExclusion where
  highway : Option (List Text)
  public_transport : Option (List Text)
  deriving DecidableEq, Repr

def isValidObj (exclusions : StreetExclusion) : OsmObj → Bool
  | .way way =>
      let hasValidHighwayTag := (way.tags["highway".toList]?).elim false
        (fun v => !v.isEmpty && !(exclusions.highway.getD []).contains v)
      let hasNoExcludedPublicTransportTag := (way.tags["public_transport".toList]?).elim true
        (fun v => !(exclusions.public_transport.getD []).contains v)
      let hasValidNameTag := way.tags.name.elim false (fun v => !v.isEmpty)
      hasValidNameTag && hasValidHighwayTag && hasNoExcludedPublicTransportTag
  | .relation rel => (rel.tags["type".toList]?).elim false (· == "associatedStreet".toList)
  | .node _ => false

def showInt : Int → Text
  | .ofNat n => Nat.toDigits 10 n
  | .negSucc n => '-' :: Nat.toDigits 10 (n + 1)

def docId (kind : Text) (id : Int) : Option Nat → Text
  | none => "street:osm:".toList ++ kind ++ ":".toList ++ showInt id
  | some i => "street:osm:".toList ++ kind ++ ":".toList ++ showInt id ++ "-".toList ++ showInt i

def buildStreet (id name : Text) (coord : Coord) (admins : List Admin) : Street :=
  let country_codes := Admin.findCountryCodes admins
  { id := id
    label := Labels.formatStreetLabel name admins country_codes
    name := name
    weight := 0
    zip_codes := Admin.getZipCodesFromAdmins admins
    administrative_regions := admins
    coord := coord
    approx_coord := some coord
    country_codes := country_codes }

structure Reordering (α : Type) where
  run : List α → List α
  perm : ∀ xs, (run xs).Perm xs

structure SortUnstable (α : Type) (le : α → α → Bool) extends Reordering α where
  sorted : ∀ xs, (run xs).Pairwise (fun a b => le a b = true)

abbrev BranchSort := SortUnstable (List Admin) Admin.listOrder

def branchSort : BranchSort where
  run xs := xs.mergeSort Admin.listOrder
  perm xs := List.mergeSort_perm xs _
  sorted xs := by
    refine List.pairwise_mergeSort (fun a b c h h' => ?_) (fun a b => ?_) xs
    · exact Std.TransCmp.isLE_trans h h'
    · have hswap : compare (b.map Admin.id) (a.map Admin.id) =
          (compare (a.map Admin.id) (b.map Admin.id)).swap := Std.OrientedCmp.eq_swap
      rw [Admin.listOrder, Admin.listOrder, hswap]
      cases compare (a.map Admin.id) (b.map Admin.id) <;> rfl

def buildStreetsForAdmins (sort : BranchSort) (name : Text) (id : Int) (kind : Text)
    (all_admins : List (List Admin)) (coord : Coord) : List Street :=
  let single_output : Bool := all_admins.length ≤ 1
  (sort.run all_admins).mapIdx (fun i admins =>
    buildStreet (docId kind id (if single_output then none else some i)) name coord admins)

section Streets

variable {G E : Type} [Geometry G E] [Envelope E]

def upToCity (admin : Admin) : Bool := admin.zone_type.elim false (fun zt => zt ≤ .City)

def getStreetAdmin (admins_geofinder : AdminGeoFinder G E) (fuel : Nat) (obj_map : ObjWrapper)
    (way : Way) : Option (List (List Admin)) :=
  let nb_nodes := way.nodes.length
  let nodes_left := way.nodes.take (nb_nodes / 2)
  let nodes_right := way.nodes.drop (nb_nodes / 2)
  let found := ((nodes_right ++ nodes_left).filterMap (fun node_id =>
    obj_map.get (.node node_id))).findSome? (fun obj => obj.asNode.map Node.coord)
  match found with
  | some coord => admins_geofinder.getAdminsIf fuel coord upToCity
  | none => some []

structure RelationPass where
  street_in_relation : List OsmId
  street_list : List Street

def relStreet (objs_map : ObjWrapper) (rel : Relation) : Option (Way × Text) :=
  (rel.refs.filter (fun ref_obj => ref_obj.member.isWay && ref_obj.role == "street".toList)).findSome?
    (fun ref_obj => do
      let obj ← objs_map.get ref_obj.member
      let way ← obj.asWay
      let name ← rel.tags.name <|> way.tags.name
      return (way, name))

def relationStep (sort : BranchSort) (objs_map : ObjWrapper)
    (admins : Way → Option (List (List Admin))) (pass : RelationPass) (rel : Relation) :
    Option RelationPass :=
  let street_in_relation :=
    pass.street_in_relation ++ (rel.refs.map Ref.member).filter OsmId.isWay
  match relStreet objs_map rel with
  | some (way, name) => (admins way).map (fun all_admins =>
      ⟨street_in_relation, pass.street_list ++ buildStreetsForAdmins sort name rel.id
        "relation".toList all_admins (getWayCoord objs_map way)⟩)
  | none => some ⟨street_in_relation, pass.street_list⟩

def firstCity (admins : List Admin) : Option Text := (admins.find? Admin.isCity).map Admin.id

instance : Ord (Text × Text) := lexOrd

abbrev NameAdminMap := TreeMap (Text × Text) (OsmId × List Admin)

def mergeBranch (name : Text) (osmid : OsmId) (name_admin_map : NameAdminMap)
    (admins : List Admin) : NameAdminMap :=
  match firstCity admins with
  | some city =>
      match name_admin_map[(name, city)]? with
      | some (stored_id, _) =>
          if osmid < stored_id then name_admin_map.insert (name, city) (osmid, admins)
          else name_admin_map
      | none => name_admin_map.insert (name, city) (osmid, admins)
  | none => name_admin_map

def mergeWay (street_in_relation : List OsmId) (admins : Way → Option (List (List Admin)))
    (name_admin_map : NameAdminMap) (way : Way) : Option NameAdminMap :=
  if .way way.id ∈ street_in_relation then some name_admin_map
  else
    match way.tags.name with
    | some name => (admins way).map (fun all_admins =>
        all_admins.foldl (mergeBranch name (.way way.id)) name_admin_map)
    | none => some name_admin_map

def allAdminsForStreet (name_admin_map : NameAdminMap) : List (OsmId × List (List Admin)) :=
  Grouping.group (name_admin_map.toList.map Prod.snd)

def wayStreet (sort : BranchSort) (objs_map : ObjWrapper) (id : OsmId)
    (all_admins : List (List Admin)) : Option (List Street) := do
  let obj ← objs_map.get id
  let way ← obj.asWay
  let name ← way.tags.name
  return buildStreetsForAdmins sort name way.id "way".toList all_admins (getWayCoord objs_map way)

-- The orders that a store and a hash map leave open.
structure Schedule where
  relations : Reordering Relation
  ways : Reordering Way
  hash : Reordering (OsmId × List (List Admin))

def Reordering.refl {α : Type} : Reordering α := ⟨id, fun xs => .refl xs⟩

def Schedule.stored : Schedule := ⟨.refl, .refl, .refl⟩

inductive StreetError where
  | osmPbfReaderExtraction (msg source : Text)
  deriving DecidableEq, Repr

def innerStreets (admins_geofinder : AdminGeoFinder G E) (fuel : Nat) (schedule : Schedule)
    (sort : BranchSort) (exclusions : StreetExclusion)
    (getObjsAndDepsStore : (OsmObj → Bool) → Except Text ObjWrapper) :
    Option (Except StreetError (List Street)) :=
  match getObjsAndDepsStore (isValidObj exclusions) with
  | .error source => some (.error (.osmPbfReaderExtraction
      "Could not read objects and dependencies from pbf".toList source))
  | .ok objs_map => do
      let admins := getStreetAdmin admins_geofinder fuel objs_map
      let pass ← (schedule.relations.run objs_map.relations).foldlM
        (relationStep sort objs_map admins) ⟨[], []⟩
      let name_admin_map ← (schedule.ways.run objs_map.ways).foldlM
        (mergeWay pass.street_in_relation admins) ∅
      let all_admins_for_street := schedule.hash.run (allAdminsForStreet name_admin_map)
      return .ok (pass.street_list ++ (all_admins_for_street.filterMap (fun e =>
        wayStreet sort objs_map e.1 e.2)).flatten)

end Streets

end Mimirsbrunn
