import Mimirsbrunn.Places.Stops

namespace Mimirsbrunn.Imports
open Regex Std Places

structure PhysicalModeWeight where
  id : Text
  weight : Float32

variable {Shape Geometry Color : Type} (toLowercase : Text → Text)

def modeWeights : Option (List PhysicalModeWeight) → ExtTreeMap Text Float
  | some modes => ExtTreeMap.ofList (modes.map (fun mode =>
      (toLowercase mode.id, mode.weight.toFloat)))
  | none => ∅

def stopPointWeight (physical_mode_weight : Option (List PhysicalModeWeight))
    (navitia : Transit.Model Color) (sp : Transit.StopPoint) : Float :=
  let md_weight_hash_map := modeWeights toLowercase physical_mode_weight
  (((navitia.stop_point_physical_modes sp).map (fun ph_mode =>
    (md_weight_hash_map[toLowercase ph_mode.id]?).getD 0)).filter (· != 0)).foldl (· + ·) 0

def addWeight (weights : Float) : Option Float → Float
  | some value => weights + value
  | none => weights

def stopAreaKey (sp : Transit.StopPoint) : Text :=
  normalizeId "stop_area".toList sp.stop_area_id

def buildStopAreaWeight (navitia : Transit.Model Color)
    (physical_mode_weight : Option (List PhysicalModeWeight)) : ExtTreeMap Text Float :=
  navitia.stop_points.foldl (Entries.gather stopAreaKey (fun sp =>
    addWeight (stopPointWeight toLowercase physical_mode_weight navitia sp))) ∅

def summed (weights : List Float) : Option Float :=
  weights.foldl (fun found weight => some (addWeight weight found)) none

def bareId (id : Text) : Text := (removeFirst "StopArea:".toList id).filter (· != ' ')

theorem normalizeId_stop_area (id : Text) :
    normalizeId "stop_area".toList id = "stop_area".toList ++ ":".toList ++ bareId id := by
  rw [normalizeId, if_pos rfl, replaceChar_nil, bareId]

theorem normalizeId_eq_iff {id id' : Text} :
    normalizeId "stop_area".toList id = normalizeId "stop_area".toList id' ↔
      bareId id = bareId id' := by
  rw [normalizeId_stop_area, normalizeId_stop_area, List.append_cancel_left_eq]

variable {toLowercase} {navitia : Transit.Model Color}
  {physical_mode_weight : Option (List PhysicalModeWeight)}

def weightsOf (toLowercase : Text → Text) (navitia : Transit.Model Color)
    (physical_mode_weight : Option (List PhysicalModeWeight)) (own : Transit.StopPoint → Bool) :
    List Float :=
  (navitia.stop_points.filter own).map (stopPointWeight toLowercase physical_mode_weight navitia)

theorem getElem?_buildStopAreaWeight (key : Text) :
    (buildStopAreaWeight toLowercase navitia physical_mode_weight)[key]? =
      summed (weightsOf toLowercase navitia physical_mode_weight
        (fun sp => stopAreaKey sp = key)) := by
  rw [buildStopAreaWeight, Entries.getElem?_foldl_gather, summed, weightsOf, List.foldl_map,
    ExtTreeMap.getElem?_empty]

theorem weightsOf_congr {own own' : Transit.StopPoint → Bool}
    (h : ∀ sp ∈ navitia.stop_points, own sp = own' sp) :
    weightsOf toLowercase navitia physical_mode_weight own =
      weightsOf toLowercase navitia physical_mode_weight own' := by
  rw [weightsOf, weightsOf, List.filter_congr h]

theorem own_of_apart (h : (navitia.stop_areas.map (fun area => bareId area.id)).Nodup)
    {area : Transit.StopArea} (harea : area ∈ navitia.stop_areas) {sp : Transit.StopPoint}
    (hsp : sp ∈ navitia.stop_points) :
    bareId sp.stop_area_id = bareId area.id ↔ sp.stop_area_id = area.id := by
  obtain ⟨own, hown, hid⟩ := navitia.attached sp hsp
  refine ⟨fun hbare => ?_, fun heq => heq ▸ rfl⟩
  rw [← hid] at hbare ⊢
  rw [List.inj_on_of_nodup_map h hown harea hbare]

structure StopsTold (toLowercase : Text → Text) (human_sort : Text → Text → Ordering)
    (point : Float → Float → Geometry) (navitia : Transit.Model Color)
    (physical_mode_weight : Option (List PhysicalModeWeight)) (Shape : Type) : Prop where
  id_eq_iff : ∀ area area' : Transit.StopArea,
    (toMimir human_sort point navitia area : Stop Shape Geometry Color).id =
      (toMimir human_sort point navitia area' : Stop Shape Geometry Color).id ↔
        bareId area.id = bareId area'.id
  distinct_iff : ((navitia.stop_areas.map (fun area =>
    (toMimir human_sort point navitia area : Stop Shape Geometry Color))).map Stop.id).Nodup ↔
      (navitia.stop_areas.map (fun area => bareId area.id)).Nodup
  weight : ∀ area : Transit.StopArea,
    (buildStopAreaWeight toLowercase navitia physical_mode_weight)[
      (toMimir human_sort point navitia area : Stop Shape Geometry Color).id]? =
        summed (weightsOf toLowercase navitia physical_mode_weight (fun sp =>
          bareId sp.stop_area_id = bareId area.id))
  own_weight : (navitia.stop_areas.map (fun area => bareId area.id)).Nodup →
    ∀ area ∈ navitia.stop_areas,
      (buildStopAreaWeight toLowercase navitia physical_mode_weight)[
        (toMimir human_sort point navitia area : Stop Shape Geometry Color).id]? =
          summed (weightsOf toLowercase navitia physical_mode_weight (fun sp =>
            sp.stop_area_id = area.id))

theorem weight_at (area : Transit.StopArea) :
    (buildStopAreaWeight toLowercase navitia physical_mode_weight)[
      normalizeId "stop_area".toList area.id]? =
        summed (weightsOf toLowercase navitia physical_mode_weight (fun sp =>
          bareId sp.stop_area_id = bareId area.id)) := by
  rw [getElem?_buildStopAreaWeight]
  refine congrArg summed (weightsOf_congr fun sp _ => ?_)
  rw [stopAreaKey, decide_eq_decide]
  exact normalizeId_eq_iff

theorem stops_told (toLowercase : Text → Text) (human_sort : Text → Text → Ordering)
    (point : Float → Float → Geometry) (navitia : Transit.Model Color)
    (physical_mode_weight : Option (List PhysicalModeWeight)) (Shape : Type) :
    StopsTold toLowercase human_sort point navitia physical_mode_weight Shape where
  id_eq_iff _ _ := normalizeId_eq_iff
  distinct_iff := by
    have hids : (navitia.stop_areas.map (fun area =>
        (toMimir human_sort point navitia area : Stop Shape Geometry Color))).map Stop.id =
        (navitia.stop_areas.map (fun area => bareId area.id)).map
          ("stop_area".toList ++ ":".toList ++ ·) := by
      rw [List.map_map, List.map_map]
      exact List.map_congr_left fun area _ => normalizeId_stop_area area.id
    rw [hids]
    exact List.nodup_map_iff (List.append_right_injective _)
  weight area := weight_at area
  own_weight h area harea := by
    refine (weight_at area).trans (congrArg summed (weightsOf_congr fun sp hsp => ?_))
    rw [decide_eq_decide]
    exact own_of_apart h harea hsp

def gare (id : String) : Transit.StopArea where
  id := id.toList
  name := "Gare".toList
  coord := ⟨2, 48⟩
  timezone := none
  codes := []
  object_properties := ∅
  comment_links := []

def twoGares : Transit.Model Unit where
  stop_areas := [gare "StopArea:A B", gare "StopArea:AB"]
  stop_points := [⟨"1".toList, "StopArea:A B".toList⟩, ⟨"2".toList, "StopArea:AB".toList⟩]
  commercial_modes := []
  networks := []
  comments := []
  lines_of _ := []
  commercial_modes_of _ := []
  physical_modes_of _ := []
  contributors_of _ := []
  line_physical_modes _ := []
  stop_point_physical_modes _ := []
  distinct := by decide
  attached := by simp [gare]

theorem gares_share_id : ∃ area ∈ twoGares.stop_areas, ∃ area' ∈ twoGares.stop_areas,
    area.id ≠ area'.id ∧
      normalizeId "stop_area".toList area.id = normalizeId "stop_area".toList area'.id :=
  ⟨gare "StopArea:A B", List.mem_cons_self, gare "StopArea:AB",
    List.mem_cons_of_mem _ List.mem_cons_self, by decide, by decide⟩

end Mimirsbrunn.Imports
