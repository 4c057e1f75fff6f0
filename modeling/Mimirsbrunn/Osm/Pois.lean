import Mathlib.Data.List.ReduceOption
import Mimirsbrunn.Library.Loop
import Mimirsbrunn.Osm.PoiRules
import Mimirsbrunn.Osm.StreetIds

namespace Mimirsbrunn.OsmReader
open Regex Std

inductive PoiReadError where
  | osmPbfReaderExtraction (msg source : Text)
  deriving DecidableEq, Repr

section Pois

variable {G E : Type} [Areal G E] [Envelope E]

-- Nothing is told where the geofinder does not end within the fuel.
def pois (getObjsAndDeps : (OsmObj → Bool) → Except Text ObjWrapper) (matcher : PoiConfig)
    (admins_geofinder : AdminGeoFinder G E) (fuel : Nat)
    (centroid : ObjWrapper → Relation → Option Coord) :
    Option (Except PoiReadError (List Poi)) :=
  match getObjsAndDeps (fun o => matcher.isPoi o.tags) with
  | .error source => some (.error (.osmPbfReaderExtraction
      "Could not read objects and dependencies from pbf".toList source))
  | .ok objects => do
      let found ← (objects.objs.filter (fun obj => matcher.isPoi obj.tags)).mapM (fun obj =>
        parsePoi obj objects matcher admins_geofinder fuel (centroid objects))
      return .ok found.reduceOption

theorem formatPoiId_eq (osm_type : Text) (id : Int) :
    formatPoiId osm_type id =
      "poi:osm:".toList ++ (osm_type ++ ':' :: (showInt id ++ suffixText none)) := by
  have hcolon (xs : Text) : ":".toList ++ xs = ':' :: xs := rfl
  have hid : formatPoiId osm_type id =
      "poi:osm:".toList ++ osm_type ++ ":".toList ++ showInt id := rfl
  rw [hid, suffixText, List.append_nil, List.append_assoc, List.append_assoc, hcolon]

theorem formatPoiId_injective {osm_type osm_type' : Text} {id id' : Int} (h : ':' ∉ osm_type)
    (h' : ':' ∉ osm_type') (heq : formatPoiId osm_type id = formatPoiId osm_type' id') :
    osm_type = osm_type' ∧ id = id' := by
  rw [formatPoiId_eq, formatPoiId_eq, List.append_cancel_left_eq] at heq
  obtain ⟨htype, hrest⟩ := Numeral.split_at h h' heq
  exact ⟨htype, (showInt_suffix_injective hrest).1⟩

theorem poiCoord_injective {objects : ObjWrapper} {centroid : Relation → Option Coord}
    {obj obj' : OsmObj}
    (h : (poiCoord objects centroid obj).1 = (poiCoord objects centroid obj').1) :
    obj.id = obj'.id := by
  have apart {t t' : Text} {id id' : Int} (ht : ':' ∉ t) (ht' : ':' ∉ t') (hne : t ≠ t') :
      formatPoiId t id ≠ formatPoiId t' id' :=
    fun heq => hne (formatPoiId_injective ht ht' heq).1
  cases obj with
  | node node =>
    cases obj' with
    | node node' => exact congrArg OsmId.node (formatPoiId_injective (by decide) (by decide) h).2
    | way way' => exact absurd h (apart (by decide) (by decide) (by decide))
    | relation relation' => exact absurd h (apart (by decide) (by decide) (by decide))
  | way way =>
    cases obj' with
    | node node' => exact absurd h (apart (by decide) (by decide) (by decide))
    | way way' => exact congrArg OsmId.way (formatPoiId_injective (by decide) (by decide) h).2
    | relation relation' => exact absurd h (apart (by decide) (by decide) (by decide))
  | relation relation =>
    cases obj' with
    | node node' => exact absurd h (apart (by decide) (by decide) (by decide))
    | way way' => exact absurd h (apart (by decide) (by decide) (by decide))
    | relation relation' =>
      exact congrArg OsmId.relation (formatPoiId_injective (by decide) (by decide) h).2

variable {objects : ObjWrapper} {matcher : PoiConfig} {finder : AdminGeoFinder G E} {fuel : Nat}
  {obj : OsmObj} {poi : Poi}

theorem parsePoi_id {centroid : Relation → Option Coord}
    (h : parsePoi obj objects matcher finder fuel centroid = some (some poi)) :
    poi.id = (poiCoord objects centroid obj).1 := by
  rw [parsePoi] at h
  split at h
  · cases h
  · dsimp only at h
    split at h
    · cases h
    · obtain ⟨admins, _, hpoi⟩ := Option.map_eq_some_iff.mp h
      rw [← Option.some.inj hpoi]
      rfl

variable {getObjsAndDeps : (OsmObj → Bool) → Except Text ObjWrapper}
  {centroid : ObjWrapper → Relation → Option Coord} {found : List Poi}

theorem pois_found (hread : getObjsAndDeps (fun o => matcher.isPoi o.tags) = .ok objects)
    (h : pois getObjsAndDeps matcher finder fuel centroid = some (.ok found)) :
    ∃ parsed, (objects.objs.filter (fun obj => matcher.isPoi obj.tags)).mapM (fun obj =>
      parsePoi obj objects matcher finder fuel (centroid objects)) = some parsed ∧
      found = parsed.reduceOption := by
  simp only [pois, hread, Option.bind_eq_bind, Option.bind_eq_some_iff] at h
  obtain ⟨parsed, hparsed, hfound⟩ := h
  exact ⟨parsed, hparsed, (Except.ok.inj (Option.some.inj hfound)).symm⟩

theorem mem_pois (hread : getObjsAndDeps (fun o => matcher.isPoi o.tags) = .ok objects)
    (h : pois getObjsAndDeps matcher finder fuel centroid = some (.ok found)) :
    poi ∈ found ↔ ∃ obj ∈ objects.objs, matcher.isPoi obj.tags = true ∧
      parsePoi obj objects matcher finder fuel (centroid objects) = some (some poi) := by
  obtain ⟨parsed, hparsed, rfl⟩ := pois_found hread h
  rw [List.reduceOption_mem_iff]
  constructor
  · intro hpoi
    obtain ⟨obj, hobj, hparse⟩ := Loop.mem_source_of_mapM hparsed hpoi
    obtain ⟨hmem, hpoi⟩ := List.mem_filter.mp hobj
    exact ⟨obj, hmem, hpoi, hparse⟩
  · rintro ⟨obj, hmem, hpoi, hparse⟩
    obtain ⟨found, hfound, hsame⟩ := Loop.mem_of_mapM hparsed (List.mem_filter.mpr ⟨hmem, hpoi⟩)
    obtain rfl := Option.some.inj (hparse.symm.trans hsame)
    exact hfound

theorem pois_ids_nodup (hread : getObjsAndDeps (fun o => matcher.isPoi o.tags) = .ok objects)
    (h : pois getObjsAndDeps matcher finder fuel centroid = some (.ok found)) :
    (found.map Poi.id).Nodup := by
  obtain ⟨parsed, hparsed, rfl⟩ := pois_found hread h
  have hobjs : (objects.objs.filter (fun obj => matcher.isPoi obj.tags)).Pairwise
      (fun obj obj' => obj.id ≠ obj'.id) :=
    (List.pairwise_map.mp (List.nodup_iff_pairwise_ne.mp objects.nodup)).filter _
  generalize objects.objs.filter (fun obj => matcher.isPoi obj.tags) = chosen at hparsed hobjs
  clear h
  induction Loop.mapM_iff.mp hparsed with
  | nil => exact List.nodup_nil
  | @cons obj o objs os hparse hrest ih =>
    rw [List.pairwise_cons] at hobjs
    have hothers := Loop.mapM_iff.mpr hrest
    cases o with
    | none => exact ih hothers hobjs.2
    | some poi =>
      rw [List.reduceOption_cons_of_some, List.map_cons, List.nodup_cons]
      refine ⟨fun hmem => ?_, ih hothers hobjs.2⟩
      obtain ⟨poi', hpoi', hid⟩ := List.mem_map.mp hmem
      obtain ⟨obj', hobj', hparse'⟩ :=
        Loop.mem_source_of_mapM hothers (List.reduceOption_mem_iff.mp hpoi')
      rw [parsePoi_id hparse, parsePoi_id hparse'] at hid
      exact hobjs.1 obj' hobj' (poiCoord_injective hid.symm)

end Pois

end Mimirsbrunn.OsmReader
