import Mimirsbrunn.Imports.Admins
import Mimirsbrunn.Imports.Stops
import Mimirsbrunn.Places.FiledAdmins
import Mimirsbrunn.Places.ZipCodes

namespace Mimirsbrunn.Imports
open Regex Std Places Internal

variable {Shape Geometry Color : Type}

inductive StopsError where
  | IndexGeneration (source : Internal.Error)
  | AdminRetrieval (details : Text)
  deriving DecidableEq, Repr

def cityWeight (admins : List (Places.Admin Shape Geometry)) : Float :=
  ((admins.filter Places.Admin.isCity).map Places.Admin.weight).head?.getD 0

def makeWeight (stop : Stop Shape Geometry Color) (stop_areas_weights : ExtTreeMap Text Float) :
    Stop Shape Geometry Color :=
  let admin_weight := cityWeight stop.administrative_regions
  { stop with
    weight :=
      match stop_areas_weights[stop.id]? with
      | some value => (value + admin_weight) / 2
      | none => admin_weight }

structure Ntfs (Shape Geometry Color : Type) where
  toLowercase : Text → Text
  human_sort : Text → Text → Ordering
  point : Float → Float → Geometry
  navitia : Transit.Model Color
  physical_mode_weight : Option (List PhysicalModeWeight)
  admins_geofinder : Geofinder Shape Geometry

namespace Ntfs

variable (ntfs : Ntfs Shape Geometry Color)

def attachStopsToAdmins (config : ElasticsearchStorageConfig) (pulls : Nat)
    (stops : List (Stop Shape Geometry Color)) :
    Client PitRequest (PitResponse (Places.Admin Shape Geometry))
      (Option (Except (Failure StopsError) (List (Stop Shape Geometry Color)))) :=
  (listDocuments config adminsAlias pulls).bind fun
    | .ok (admins, .finished) =>
        if admins.isEmpty then
          .done (some (.error (.err (.AdminRetrieval
            "no admin retrieved to enrich stops".toList))))
        else
          .done (some (.ok (stops.map (fun stop =>
            attachStop stop (ntfs.admins_geofinder.get admins stop.coord)))))
    | .ok (_, .failed (.err e)) => .done (some (.error (.err (.IndexGeneration e))))
    | .ok (_, .failed (.panicked m)) => .done (some (.error (.panicked m)))
    | .ok (_, .unpolled) => .done none
    | .error (.err _) =>
        .done (some (.error (.err (.AdminRetrieval
          "Could not retrieve admins to enrich stops".toList))))
    | .error (.panicked m) => .done (some (.error (.panicked m)))

def stops : List (Stop Shape Geometry Color) :=
  ntfs.navitia.stop_areas.map (toMimir ntfs.human_sort ntfs.point ntfs.navitia)

def finish (dataset : Text) (stop : Stop Shape Geometry Color) : Stop Shape Geometry Color :=
  makeWeight { stop with coverages := stop.coverages ++ [dataset] }
    (buildStopAreaWeight ntfs.toLowercase ntfs.navitia ntfs.physical_mode_weight)

-- What follows once the data set is read and before the stops are written.
def indexNtfs (storage : ElasticsearchStorageConfig) (pulls : Nat) (dataset : Text) :
    Client PitRequest (PitResponse (Places.Admin Shape Geometry))
      (Option (Except (Failure StopsError) (List (Stop Shape Geometry Color)))) :=
  (ntfs.attachStopsToAdmins storage pulls ntfs.stops).bind fun result =>
    .done (result.map (·.map (List.map (ntfs.finish dataset))))

def document (dataset : Text) (admins : List (Places.Admin Shape Geometry))
    (area : Transit.StopArea) : Stop Shape Geometry Color :=
  let stop := toMimir ntfs.human_sort ntfs.point ntfs.navitia area
  ntfs.finish dataset (attachStop stop (ntfs.admins_geofinder.get admins stop.coord))

structure Described (dataset : Text) (admins : List (Places.Admin Shape Geometry))
    (area : Transit.StopArea) (stop : Stop Shape Geometry Color) : Prop where
  id : stop.id = normalizeId "stop_area".toList area.id
  name : stop.name = area.name
  coverages : stop.coverages = [dataset]
  regions : ∀ region ∈ stop.administrative_regions, ∃ admin ∈ admins, region = filed admin
  zip_codes : Places.Admin.MostPrecise stop.administrative_regions stop.zip_codes ∨
    ∀ region ∈ stop.administrative_regions, region.zip_codes ≠ [] → region.level = 0
  weight : stop.weight =
    match summed (weightsOf ntfs.toLowercase ntfs.navitia ntfs.physical_mode_weight (fun sp =>
      bareId sp.stop_area_id = bareId area.id)) with
    | some value => (value + cityWeight stop.administrative_regions) / 2
    | none => cityWeight stop.administrative_regions

variable {ntfs} {dataset : Text} {admins : List (Places.Admin Shape Geometry)}

theorem described (area : Transit.StopArea) :
    ntfs.Described dataset admins area (ntfs.document dataset admins area) where
  id := rfl
  name := rfl
  coverages := rfl
  regions region hregion := ntfs.admins_geofinder.own admins _ region hregion
  zip_codes := by
    by_cases hsome : ∃ region ∈ (ntfs.document dataset admins area).administrative_regions,
        region.zip_codes ≠ [] ∧ 0 < region.level
    · exact .inl (Greatest.collected_iff.mpr fun _ => hsome)
    · refine .inr fun region hregion hzips => ?_
      by_contra hlevel
      exact hsome ⟨region, hregion, hzips, UInt32.pos_iff_ne_zero.mpr hlevel⟩
  weight := by
    have hweight : (buildStopAreaWeight ntfs.toLowercase ntfs.navitia ntfs.physical_mode_weight)[
        normalizeId "stop_area".toList area.id]? =
        summed (weightsOf ntfs.toLowercase ntfs.navitia ntfs.physical_mode_weight (fun sp =>
          bareId sp.stop_area_id = bareId area.id)) := weight_at area
    rw [← hweight]
    rfl

theorem finished_stops : (ntfs.stops.map (fun stop : Stop Shape Geometry Color =>
    attachStop stop (ntfs.admins_geofinder.get admins stop.coord))).map (ntfs.finish dataset) =
      ntfs.navitia.stop_areas.map (ntfs.document dataset admins) := by
  rw [stops, List.map_map, List.map_map]
  rfl

structure HoldsStops (ntfs : Ntfs Shape Geometry Color) (dataset : Text)
    (admins : List (Places.Admin Shape Geometry)) (a : Text)
    (s : PlaceStore Shape Geometry Color) : Prop where
  covers : ∀ area ∈ ntfs.navitia.stop_areas, ∃ same ∈ ntfs.navitia.stop_areas, ∃ stop,
    bareId same.id = bareId area.id ∧ ntfs.Described dataset admins same stop ∧
      s.document a (normalizeId "stop_area".toList area.id) = some (.Stop stop)
  sound : ∀ id place, s.document a id = some place → ∃ area ∈ ntfs.navitia.stop_areas, ∃ stop,
    place = .Stop stop ∧ ntfs.Described dataset admins area stop ∧
      id = normalizeId "stop_area".toList area.id

section Stored

variable {E : Engine (Place Shape Geometry Color)} {j : ImportOf Shape Geometry Color}
  {s₀ s : PlaceStore Shape Geometry Color} {a : Text} {index : Index}

theorem holds_stops (hd : Piece dataset) (hj : j.PublicFor PlaceDocType.Stop.asStr dataset)
    (hdocs : j.documents =
      (ntfs.navitia.stop_areas.map (ntfs.document dataset admins)).map Place.Stop)
    (ha : a ∈ aliases PlaceDocType.Stop.asStr dataset) (hnot : a ∉ s₀.indices)
    (hown : ∀ m, s₀.Aliased a m → Matches PlaceDocType.Stop.asStr dataset m)
    (h : (elasticsearch E).Reach (s₀, j.run) (s, Client.done (.ok index))) :
    HoldsStops ntfs dataset admins a s := by
  obtain ⟨hsingle, docs, hcontent, hholds⟩ :=
    import_single (by decide) hd hj ha hnot hown h
  have hread (id : Text) : s.document a id = docs[id]? := by
    rw [Store.document, hsingle.target, Option.bind_some, hcontent]
    rfl
  have hfrom (place : Place Shape Geometry Color) (hplace : place ∈ j.documents) :
      ∃ area ∈ ntfs.navitia.stop_areas, place = .Stop (ntfs.document dataset admins area) := by
    rw [hdocs] at hplace
    obtain ⟨stop, hstop, rfl⟩ := List.mem_map.mp hplace
    obtain ⟨area, harea, rfl⟩ := List.mem_map.mp hstop
    exact ⟨area, harea, rfl⟩
  constructor
  · intro area harea
    have hid : normalizeId "stop_area".toList area.id ∈ j.documents.map Document.id := by
      rw [hdocs, List.map_map, List.map_map]
      exact List.mem_map.mpr ⟨area, harea, rfl⟩
    obtain ⟨place, hplace, hfound, hsame⟩ := hsingle.document hcontent hholds hid
    obtain ⟨same, hmem, rfl⟩ := hfrom place hplace
    exact ⟨same, hmem, _, normalizeId_eq_iff.mp hsame, described same, hfound⟩
  · intro id place hplace
    rw [hread] at hplace
    obtain ⟨hmem, rfl⟩ := hholds.sound id place hplace
    obtain ⟨area, harea, rfl⟩ := hfrom place hmem
    exact ⟨area, harea, _, rfl, described area, rfl⟩

end Stored

inductive Attached (told : List (Stop Shape Geometry Color) → Prop) (few : Prop) :
    Option (Except (Failure StopsError) (List (Stop Shape Geometry Color))) → Prop
  | stops {l : List (Stop Shape Geometry Color)} : told l → Attached told few (some (.ok l))
  | failed (e : Failure StopsError) : Attached told few (some (.error e))
  | unpolled : few → Attached told few none

theorem session_indexNtfs {α D : Type} {read : D → Option (Places.Admin Shape Geometry)}
    {P : Store D × α → Prop} {moves : Store D × α → Store D × α → Prop}
    {storage : ElasticsearchStorageConfig} {pulls : Nat} (hsize : 0 < storage.scroll_chunk_size)
    {t : Option (Snapshot D)}
    {result : Option (Except (Failure StopsError) (List (Stop Shape Geometry Color)))}
    (h : (listing moves read).Session P (none, ntfs.indexNtfs storage pulls dataset)
      (t, .done result)) :
    Attached (fun stops => ∃ s c admins, P (s, c) ∧ ListedIn read s admins ∧ admins ≠ [] ∧
        stops = ntfs.navitia.stop_areas.map (ntfs.document dataset admins))
      (∃ s c, P (s, c) ∧ pulls < (s.listed adminsAlias).length + 2) result := by
  obtain ⟨u, attached, hattach, hfinish⟩ := Watching.session_bind h
  obtain ⟨v, listed, hlist, hdone⟩ := Watching.session_bind hattach
  have hresult := (Watching.session_done hfinish).2
  cases session_heard hsize hlist with
  | refused e =>
    cases e <;> obtain ⟨_, rfl⟩ := Watching.session_done hdone <;> exact hresult ▸ .failed _
  | broken l e =>
    cases e <;> obtain ⟨_, rfl⟩ := Watching.session_done hdone <;> exact hresult ▸ .failed _
  | unpolled l hfew =>
    obtain ⟨_, rfl⟩ := Watching.session_done hdone
    exact hresult ▸ .unpolled hfew
  | @admins admins htold =>
    obtain ⟨s, c, hs, hlisted⟩ := htold
    cases admins with
    | nil =>
      obtain ⟨_, rfl⟩ := Watching.session_done hdone
      exact hresult ▸ .failed _
    | cons admin admins =>
      obtain ⟨_, rfl⟩ := Watching.session_done hdone
      refine hresult ▸ .stops ⟨s, c, _, hs, hlisted, List.cons_ne_nil admin admins, ?_⟩
      exact finished_stops

section Run

variable {E : Engine (Place Shape Geometry Color)} {crates : Crates Shape Geometry Color}
  {i : ImportOf Shape Geometry Color} {s₀ : PlaceStore Shape Geometry Color} {regions : Text}
  {storage : ElasticsearchStorageConfig} {pulls : Nat}
  {p : PlaceStore Shape Geometry Color × Es (Place Shape Geometry Color) ModelError Index}
  {t : Option (Snapshot (Place Shape Geometry Color))}
  {result : Option (Except (Failure StopsError) (List (Stop Shape Geometry Color)))}

end Run

end Ntfs

def halte : Transit.StopArea where
  id := "StopArea:1".toList
  name := "Halte".toList
  coord := ⟨0.25, 0.25⟩
  timezone := none
  codes := []
  object_properties := ∅
  comment_links := []

def haltes : Transit.Model Text where
  stop_areas := [halte]
  stop_points := [⟨"1".toList, halte.id⟩]
  commercial_modes := []
  networks := []
  comments := []
  lines_of _ := []
  commercial_modes_of _ := []
  physical_modes_of _ := []
  contributors_of _ := []
  line_physical_modes _ := []
  stop_point_physical_modes _ := []
  distinct := List.nodup_singleton _
  attached sp hsp := ⟨halte, List.mem_singleton_self _, by rw [List.mem_singleton.mp hsp]⟩

def oneHalte : Ntfs Unit PlainGeometry Text where
  toLowercase := List.map Char.toLower
  human_sort := compare
  point := .Point
  navitia := haltes
  physical_mode_weight := none
  admins_geofinder := .ofFinder decimicro

def stopAlias : Text := rootDoctype PlaceDocType.Stop.asStr

def halteImport (stops : List (Stop Unit PlainGeometry Text)) : ImportOf Unit PlainGeometry Text :=
  .plain "stop".toList "fr".toList (.utc 2021 5 5 0 0 0 0) (stops.map Place.Stop)

theorem halte_elsewhere (stops : List (Stop Unit PlainGeometry Text)) :
    (halteImport stops).indexName ≠ lilleImport.indexName := by
  rw [show (halteImport stops).indexName = rootDoctypeDatasetTs "stop".toList "fr".toList
    (.utc 2021 5 5 0 0 0 0) from rfl]
  decide

theorem halte_call : ∃ f, oneHalte.indexNtfs onePage 3 "fr".toList =
      (listDocuments onePage adminsAlias 3).bind f ∧
    f (.ok ([lille.stored], .finished)) =
      .done (some (.ok [oneHalte.document "fr".toList [lille.stored] halte])) := by
  refine ⟨_, Client.bind_assoc .., ?_⟩
  rfl

end Mimirsbrunn.Imports
