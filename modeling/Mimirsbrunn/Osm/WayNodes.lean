import Mimirsbrunn.Osm.Poi
import Mimirsbrunn.Places.Founders

namespace Mimirsbrunn
open Regex Std

theorem findSome?_filterMap {α β γ : Type} {f : α → Option β} {g : β → Option γ} {xs : List α} :
    (xs.filterMap f).findSome? g = xs.findSome? (fun x => (f x).bind g) := by
  induction xs with
  | nil => rfl
  | cons x xs ih =>
      rw [List.filterMap_cons, List.findSome?_cons]
      cases f x with
      | none => exact ih
      | some y => rw [List.findSome?_cons, ih, Option.bind_some]

variable {obj_map : ObjWrapper} {way : Way} {node : Node}

def storedNode (obj_map : ObjWrapper) (node_id : Int) : Option Node :=
  (obj_map.get (.node node_id)).bind OsmObj.asNode

theorem storedNode_coord {node_id : Int} :
    (obj_map.get (.node node_id)).bind (fun obj => obj.asNode.map Node.coord) =
      (storedNode obj_map node_id).map Node.coord := (Option.map_bind ..).symm

def HasNode (obj_map : ObjWrapper) (way : Way) (node : Node) : Prop :=
  ∃ node_id ∈ way.nodes, storedNode obj_map node_id = some node

def firstStored (obj_map : ObjWrapper) (node_ids : List Int) : Option Node :=
  node_ids.findSome? (storedNode obj_map)

def nodesRight (way : Way) : List Int := way.nodes.drop (way.nodes.length / 2)

def nodesLeft (way : Way) : List Int := way.nodes.take (way.nodes.length / 2)

-- The coordinates look at the second half of the way only, the admins at all of it.
theorem getWayCoord_eq (obj_map : ObjWrapper) (way : Way) : getWayCoord obj_map way =
    ((firstStored obj_map (nodesRight way)).map Node.coord).getD default := by
  rw [getWayCoord, firstStored, List.map_findSome?]
  simp only [storedNode_coord]
  rfl

theorem getStreetAdmin_eq {G E : Type} [Geometry G E] [Envelope E] {finder : AdminGeoFinder G E}
    {fuel : Nat} : getStreetAdmin finder fuel obj_map way =
      ((firstStored obj_map (nodesRight way)).or (firstStored obj_map (nodesLeft way))).elim
        (some []) (fun node => finder.getAdminsIf fuel node.coord upToCity) := by
  have hfind : ((nodesRight way ++ nodesLeft way).filterMap (fun node_id =>
      obj_map.get (.node node_id))).findSome? (fun obj => obj.asNode.map Node.coord) =
        ((firstStored obj_map (nodesRight way)).or
          (firstStored obj_map (nodesLeft way))).map Node.coord := by
    rw [firstStored, firstStored, ← List.findSome?_append, List.map_findSome?, findSome?_filterMap]
    simp only [storedNode_coord]
    rfl
  rw [nodesRight, nodesLeft] at hfind
  simp only [getStreetAdmin, hfind, nodesRight, nodesLeft]
  cases (firstStored obj_map (way.nodes.drop (way.nodes.length / 2))).or
    (firstStored obj_map (way.nodes.take (way.nodes.length / 2))) with
  | none => rfl
  | some node => rfl

theorem hasNode_of_firstStored {node_ids : List Int} (hsub : ∀ id ∈ node_ids, id ∈ way.nodes)
    (h : firstStored obj_map node_ids = some node) : HasNode obj_map way node := by
  obtain ⟨id, hid, hnode⟩ := List.exists_of_findSome?_eq_some h
  exact ⟨id, hsub id hid, hnode⟩

theorem isDefault_iff {coord : Coord} : coord.isDefault = true ↔ coord = default := by
  obtain ⟨lon, lat⟩ := coord
  rw [Coord.isDefault, Bool.and_eq_true, beq_iff_eq, beq_iff_eq]
  constructor
  · rintro ⟨hlat, hlon⟩
    dsimp only at hlat hlon
    rw [hlat, hlon]
    rfl
  · rintro ⟨⟩
    exact ⟨rfl, rfl⟩

structure OnOneNode (obj_map : ObjWrapper) (way : Way) : Prop where
  node : ∃ node, HasNode obj_map way node ∧ getWayCoord obj_map way = node.coord ∧
    ∀ (G E : Type) [Geometry G E] [Envelope E] (finder : AdminGeoFinder G E) (fuel : Nat),
      getStreetAdmin finder fuel obj_map way = finder.getAdminsIf fuel node.coord upToCity
  street : getWayCoord obj_map way ≠ default
  poi : ∀ (matcher : PoiConfig), (matcher.getPoiType way.tags).isSome →
    ∀ (G E : Type) [Areal G E] [Envelope E] (finder : AdminGeoFinder G E)
      (centroid : Relation → Option Coord), ∃ n poi, ∀ fuel, n ≤ fuel →
        parsePoi (.way way) obj_map matcher finder fuel centroid = some (some poi)

theorem parsePoi_way {G E : Type} [Areal G E] [Envelope E] {matcher : PoiConfig}
    {poi_type : Places.PoiType} (htype : matcher.getPoiType way.tags = some poi_type)
    (hcoord : getWayCoord obj_map way ≠ default) (finder : AdminGeoFinder G E)
    (centroid : Relation → Option Coord) : ∃ n poi, ∀ fuel, n ≤ fuel →
      parsePoi (.way way) obj_map matcher finder fuel centroid = some (some poi) := by
  obtain ⟨admins, n, hn⟩ := finder.exists_returns (getWayCoord obj_map way)
  refine ⟨n, buildPoi (.way way) poi_type (formatPoiId "way".toList way.id)
    (getWayCoord obj_map way) admins, fun fuel hf => ?_⟩
  have hkept : (getWayCoord obj_map way).isDefault = false := by
    rw [← Bool.not_eq_true, isDefault_iff]
    exact hcoord
  have htags : matcher.getPoiType (OsmObj.way way).tags = some poi_type := htype
  simp only [parsePoi, htags, poiCoord, hkept, hn fuel hf, Option.map_some]
  rfl

theorem on_one_node_iff (obj_map : ObjWrapper) (way : Way) : OnOneNode obj_map way ↔
    ∃ node, firstStored obj_map (nodesRight way) = some node ∧ node.coord ≠ default := by
  have hcoord := getWayCoord_eq obj_map way
  constructor
  · intro h
    have hplaced := h.street
    rw [hcoord] at hplaced
    cases hfirst : firstStored obj_map (nodesRight way) with
    | none => exact absurd (by rw [hfirst]; rfl) hplaced
    | some node => exact ⟨node, rfl, by simpa [hfirst] using hplaced⟩
  · rintro ⟨node, hfirst, hplaced⟩
    have hnode : getWayCoord obj_map way = node.coord := by rw [hcoord, hfirst]; rfl
    have hstreet : getWayCoord obj_map way ≠ default := by rwa [hnode]
    refine ⟨⟨node, hasNode_of_firstStored (fun _ => List.mem_of_mem_drop) hfirst, hnode, ?_⟩,
      hstreet, ?_⟩
    · intro G E _ _ finder fuel
      rw [getStreetAdmin_eq, hfirst, Option.some_or, Option.elim_some]
    · intro matcher htype G E _ _ finder centroid
      obtain ⟨poi_type, htype⟩ := Option.isSome_iff_exists.mp htype
      exact parsePoi_way htype hstreet finder centroid

def cutWay : Way := ⟨7, ∅, [1, 2]⟩

def cutExtract : ObjWrapper := ⟨[.node ⟨1, ∅, 480000000, 20000000⟩, .way cutWay], by decide⟩

theorem cut_way_lost : (∃ node, HasNode cutExtract cutWay node) ∧ ¬OnOneNode cutExtract cutWay :=
  ⟨⟨⟨1, ∅, 480000000, 20000000⟩, 1, List.mem_cons_self, rfl⟩, fun h => h.street rfl⟩

end Mimirsbrunn
