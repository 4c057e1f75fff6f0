import Mimirsbrunn.Places.Documents
import Mimirsbrunn.Places.FinderEntries
import Mimirsbrunn.Places.Float64
import Mimirsbrunn.Places.Founders

namespace Mimirsbrunn.Places
open Regex Std AdminGeoFinder

variable {Shape Geometry : Type}

-- A region as the geofinder keeps it: `extend` empties its regions, `insert` takes its boundary.
def filed (admin : Admin Shape Geometry) : Admin Shape Geometry :=
  { admin with boundary := none, administrative_regions := [] }

structure Geofinder (Shape Geometry : Type) where
  get : List (Admin Shape Geometry) → Coord → List (Admin Shape Geometry)
  own : ∀ admins coord, ∀ admin ∈ get admins coord, ∃ region ∈ admins, admin = filed region

def sketch (admin : Admin Shape Geometry) : Mimirsbrunn.Admin where
  id := admin.id
  level := admin.level.toNat
  name := admin.name
  zip_codes := admin.zip_codes
  zone_type := admin.zone_type
  parent_id := admin.parent_id
  codes := .ofList admin.codes.toList

section Finder

variable {E : Type} [Areal Shape E] [Envelope E]

def finderOf (admins : List (Admin Shape Geometry)) : AdminGeoFinder Shape E :=
  .fromIter (admins.map (fun admin => (sketch admin, admin.boundary)))

def entryOf (admin : Admin Shape Geometry) : Option (SplitAdmin Shape E) :=
  accept (sketch admin) admin.boundary

def inserted (admins : List (Admin Shape Geometry)) : List (Admin Shape Geometry) :=
  admins.filter (fun admin => (entryOf (E := E) admin).isSome)

def documentOf (admins : List (Admin Shape Geometry)) (found : Mimirsbrunn.Admin) :
    Option (Admin Shape Geometry) :=
  ((inserted (E := E) admins).reverse.find? (fun admin => admin.id = found.id)).map filed

def Geofinder.ofFinder (place : Coord → Mimirsbrunn.Coord) : Geofinder Shape Geometry where
  get admins coord :=
    let finder : AdminGeoFinder Shape E := finderOf admins
    ((finder.get (finder.links.card + 1) (place coord)).getD []).filterMap (documentOf (E := E) admins)
  own := by
    intro admins coord admin hadmin
    obtain ⟨found, _, hfound⟩ := List.mem_filterMap.mp hadmin
    obtain ⟨region, hregion, rfl⟩ := Option.map_eq_some_iff.mp hfound
    have hmem := List.mem_reverse.mp (List.mem_of_find?_eq_some hregion)
    exact ⟨region, List.mem_of_mem_filter hmem, rfl⟩

variable {admins : List (Admin Shape Geometry)} {found : Mimirsbrunn.Admin}

theorem sketch_filed (admin : Admin Shape Geometry) : sketch (filed admin) = sketch admin := rfl

omit [Envelope E] in
theorem finderOf_holds :
    Holds (finderOf admins : AdminGeoFinder Shape E) (admins.filterMap entryOf).reverse := by
  have hrun := run_holds (E := E) [.fromIter (admins.map (fun admin =>
    (sketch admin, admin.boundary)))]
  rw [acceptedBy, List.foldl_cons, List.foldl_nil, accepted, List.filterMap_map] at hrun
  exact hrun

theorem entry_of_get {fuel : Nat} {coord : Mimirsbrunn.Coord} {result : List Mimirsbrunn.Admin}
    (h : (finderOf admins : AdminGeoFinder Shape E).get fuel coord = some result)
    (hfound : found ∈ result) : ∃ region ∈ inserted (E := E) admins, sketch region = found := by
  obtain ⟨split, hsplit, rfl⟩ := List.mem_map.mp ((visit_sublist h).subset hfound)
  have hstored := List.mem_of_mem_filter (List.mem_mergeSort.mp hsplit)
  rw [finderOf_holds.rtree, List.mem_reverse] at hstored
  obtain ⟨region, hregion, hentry⟩ := List.mem_filterMap.mp hstored
  refine ⟨region, List.mem_filter.mpr ⟨hregion, by rw [hentry]; rfl⟩, ?_⟩
  obtain ⟨boundary, _, haccept⟩ := Option.bind_eq_some_iff.mp hentry
  obtain ⟨bb, _, rfl⟩ := Option.map_eq_some_iff.mp haccept
  rfl

omit [Envelope E] in
theorem documentOf_sketch {region : Admin Shape Geometry}
    (hn : ((inserted (E := E) admins).map Admin.id).Nodup)
    (hregion : region ∈ inserted (E := E) admins) :
    documentOf (E := E) admins (sketch region) = some (filed region) := by
  have hreverse : ((inserted (E := E) admins).reverse.map Admin.id).Nodup := by
    rw [List.map_reverse, List.nodup_reverse]
    exact hn
  have hfind := Entries.find?_of_nodup hreverse (List.mem_reverse.mpr hregion)
  exact congrArg (Option.map filed) hfind

theorem sketch_get {place : Coord → Mimirsbrunn.Coord} {coord : Coord} {fuel : Nat}
    {result : List Mimirsbrunn.Admin}
    (hn : ((inserted (E := E) admins).map Admin.id).Nodup)
    (h : (finderOf admins : AdminGeoFinder Shape E).get fuel (place coord) = some result) :
    ((Geofinder.ofFinder (E := E) place).get admins coord).map sketch = result := by
  obtain ⟨whole, hreturns⟩ := exists_returns (finderOf admins : AdminGeoFinder Shape E)
    (place coord)
  obtain ⟨found, hlookup⟩ := lookup_returns (finderOf admins : AdminGeoFinder Shape E)
    (place coord)
  have hlast : (finderOf admins : AdminGeoFinder Shape E).get
      ((finderOf admins : AdminGeoFinder Shape E).links.card + 1) (place coord) =
        some found.res := by
    rw [get_eq_lookup, hlookup, Option.map_some]
  obtain rfl : found.res = result := (hreturns.eq_of_get hlast).symm.trans (hreturns.eq_of_get h)
  have hdocument : ∀ admin ∈ found.res,
      (documentOf (E := E) admins admin).map sketch = some admin := by
    intro admin hfound
    obtain ⟨region, hregion, rfl⟩ := entry_of_get h hfound
    rw [documentOf_sketch hn hregion, Option.map_some, sketch_filed]
  simp only [Geofinder.ofFinder, hlast, Option.getD_some]
  generalize found.res = result at hdocument ⊢
  induction result with
  | nil => rfl
  | cons admin result ih =>
      rw [List.forall_mem_cons] at hdocument
      obtain ⟨document, hsome, hsketch⟩ := Option.map_eq_some_iff.mp hdocument.1
      rw [List.filterMap_cons_some hsome, List.map_cons, hsketch, ih hdocument.2]

end Finder

instance : Envelope Unit := ⟨fun _ coord =>
  0 ≤ coord.lon ∧ coord.lon ≤ 10000000 ∧ 0 ≤ coord.lat ∧ coord.lat ≤ 10000000⟩

instance : Mimirsbrunn.Geometry Unit Unit :=
  ⟨some, fun _ coord => 0 ≤ coord.lon ∧ 0 ≤ coord.lat ∧ coord.lon + coord.lat ≤ 10000000⟩

instance : Areal Unit Unit :=
  ⟨fun _ coord => 0 < coord.lon ∧ 0 < coord.lat ∧ coord.lon + coord.lat < 10000000⟩

def decimicroOf (x : Float) : Int :=
  match F64.decode x with
  | .finite negative n =>
      let units : Nat := F64.magnitude n * 10 ^ 7 / 2 ^ 1074
      if negative then -(units : Int) else units
  | _ => 0

def decimicro (coord : Coord) : Mimirsbrunn.Coord := ⟨decimicroOf coord.lon, decimicroOf coord.lat⟩

end Mimirsbrunn.Places
