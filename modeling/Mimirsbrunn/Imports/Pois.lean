import Mimirsbrunn.Bragi.Dsl
import Mimirsbrunn.Elasticsearch.Bulk
import Mimirsbrunn.Places.DecodesBack
import Mimirsbrunn.Places.NormalizeId
import Mimirsbrunn.Places.OpenAddresses

namespace Mimirsbrunn.Imports
open Regex Std Places

structure NavitiaCoord where
  lon : Float
  lat : Float

structure NavitiaPoi where
  id : Text
  name : Text
  coord : NavitiaCoord
  poi_type_id : Text
  properties : StringMap

structure NavitiaPoiType where
  id : Text
  name : Text

inductive SearchError where
  | documentRetrievalError (source : Text)
  deriving DecidableEq, Repr

namespace Pois

inductive Error where
  | IndexGeneration (source : ModelError)
  | ReverseAddressSearch (source : SearchError)
  | Json (details : Text)
  | UnrecognizedPoiType (details : Text)
  | NoAdminFound (details : Text)
  deriving DecidableEq, Repr

variable {Shape Geometry Color : Type}

abbrev SearchDocuments := List Text → Json Float → Nat → Except SearchError (List (Json Float))

structure Context (Shape Geometry Color : Type) where
  poi_types : ExtTreeMap Text NavitiaPoiType
  -- The backend as each point of interest meets it, by its place in the list.
  client : Nat → SearchDocuments
  admins_geofinder : Coordinate → List (Places.Admin Shape Geometry)
  crates : Crates Shape Geometry Color
  writer : JsonWriter Float Shape
  point : Float → Float → Geometry

def poiTypeFrom (poi_type : NavitiaPoiType) : PoiType :=
  ⟨normalizeId "poi_type:".toList poi_type.id, poi_type.name⟩

def placeAdmins : Place Shape Geometry Color → List (Places.Admin Shape Geometry)
  | .Admin admin => [admin]
  | .Street street => street.administrative_regions
  | .Addr addr => addr.street.administrative_regions
  | .Poi poi => poi.administrative_regions
  | .Stop stop => stop.administrative_regions

def placeAddress : Place Shape Geometry Color → Option (Address Shape Geometry)
  | .Street street => some (.Street street)
  | .Addr addr => some (.Addr addr)
  | _ => none

def formatPoiLabel (name : Text) (admins : List (Places.Admin Shape Geometry))
    (country_codes : List Text) : Text := Places.Labels.formatLabel name admins country_codes

namespace Context

variable (ctx : Context Shape Geometry Color)

def reverseSearch (n : Nat) (poi : NavitiaPoi) : Except SearchError (List (Json Float)) :=
  ctx.client n [rootDoctype "street".toList, rootDoctype "addr".toList]
    (buildReverseQuery ctx.writer "50m".toList poi.coord.lat poi.coord.lon) 1

def closestPlace (n : Nat) (poi : NavitiaPoi) :
    Except Error (Option (Place Shape Geometry Color)) :=
  match ctx.reverseSearch n poi with
  | .error source => .error (.ReverseAddressSearch source)
  | .ok [] => .ok none
  | .ok (value :: _) =>
      match Place.decode ctx.crates value with
      | some place => .ok (some place)
      | none => .error (.Json "could no deserialize place".toList)

def geofound (poi : NavitiaPoi) : List (Places.Admin Shape Geometry) :=
  ctx.admins_geofinder ⟨poi.coord.lon, poi.coord.lat⟩

def buildPoi (poi : NavitiaPoi) (poi_type : NavitiaPoiType)
    (place : Option (Place Shape Geometry Color)) (admins : List (Places.Admin Shape Geometry)) :
    Places.Poi Shape Geometry :=
  let country_codes := Places.Admin.findCountryCodes admins
  { id := normalizeId "poi".toList poi.id
    label := formatPoiLabel poi.name admins country_codes
    name := poi.name
    coord := ⟨poi.coord.lon, poi.coord.lat⟩
    approx_coord := some (ctx.point poi.coord.lon poi.coord.lat)
    administrative_regions := admins
    weight := ((admins.find? Places.Admin.isCity).map Places.Admin.weight).getD 0
    zip_codes := []
    poi_type := poiTypeFrom poi_type
    properties := poi.properties
    address := place.bind placeAddress
    country_codes := country_codes
    names := []
    labels := []
    distance := none
    context := none }

def intoPoi (n : Nat) (poi : NavitiaPoi) : Except Error (Places.Poi Shape Geometry) :=
  match ctx.poi_types[poi.poi_type_id]? with
  | none => .error (.UnrecognizedPoiType poi.poi_type_id)
  | some poi_type =>
      (ctx.closestPlace n poi).bind (fun place =>
        let admins := place.elim (ctx.geofound poi) placeAdmins
        if admins.isEmpty then
          .error (.NoAdminFound ("Could not find admins for POI ".toList ++ poi.id))
        else .ok (ctx.buildPoi poi poi_type place admins))

-- Each conversion waits for the one before it, and `ok` forgets why one failed.
def converted (pois : List NavitiaPoi) : List (Option (Places.Poi Shape Geometry)) :=
  pois.mapIdx (fun n poi => (ctx.intoPoi n poi).toOption)

end Context

instance : Document (Places.Poi Shape Geometry) := ⟨Places.Poi.id⟩

def importPois (storage : ElasticsearchStorageConfig) (config : ContainerConfig) (now : DateTime)
    (pois : List (Places.Poi Shape Geometry)) : Es (Places.Poi Shape Geometry) Error Unit := do
  let _index ← .mapErr .IndexGeneration (generateIndex storage config now pois)
  return ()

def indexPois (ctx : Context Shape Geometry Color) (storage : ElasticsearchStorageConfig)
    (config : ContainerConfig) (now : DateTime) (pois : List NavitiaPoi) :
    Es (Places.Poi Shape Geometry) Error Unit :=
  importPois storage config now ((ctx.converted pois).filterMap id)

theorem importPois_ne_throw {storage : ElasticsearchStorageConfig} {config : ContainerConfig}
    {now : DateTime} {pois : List (Places.Poi Shape Geometry)} (e : Failure Error) :
    importPois storage config now pois ≠ throw e :=
  fun h => nomatch h

theorem indexPois_completes (ctx : Context Shape Geometry Color) (pois : List NavitiaPoi)
    {storage : ElasticsearchStorageConfig} {config : ContainerConfig} {now : DateTime}
    {E : Engine (Places.Poi Shape Geometry)} {s₀ : Store (Places.Poi Shape Geometry)}
    (hsmooth : Smooth E ⟨storage, config, now, (ctx.converted pois).filterMap id⟩)
    (hfresh : rootDoctypeDatasetTs config.name config.dataset now ∉ s₀.indices) :
    ∃ s, (elasticsearch E).Reach (s₀, (indexPois ctx storage config now pois).run)
      (s, Client.done (.ok ())) := by
  obtain ⟨s, _index, hrun⟩ := Phase.import_completes hsmooth hfresh
  exact ⟨s, Es.bind_reach (Es.mapErr_reach Error.IndexGeneration hrun) .refl⟩

variable {ctx : Context Shape Geometry Color} {pois : List NavitiaPoi} {n : Nat} {poi : NavitiaPoi}

namespace Context

theorem getElem?_converted (ctx : Context Shape Geometry Color) (hpoi : pois[n]? = some poi) :
    (ctx.converted pois)[n]? = some (ctx.intoPoi n poi).toOption := by
  rw [converted, List.getElem?_mapIdx, hpoi, Option.map_some]

def adminsOf (ctx : Context Shape Geometry Color) (value : Json Float) :
    List (Places.Admin Shape Geometry) :=
  (Place.decode ctx.crates value).elim [] placeAdmins

def closestAdmins (ctx : Context Shape Geometry Color) (n : Nat) (poi : NavitiaPoi) :
    List (Places.Admin Shape Geometry) :=
  ((ctx.reverseSearch n poi).toOption.bind List.head?).elim [] ctx.adminsOf

def Excused (ctx : Context Shape Geometry Color) (n : Nat) (poi : NavitiaPoi) : Prop :=
  poi.poi_type_id ∉ ctx.poi_types ∨ ctx.closestAdmins n poi = [] ∧ ctx.geofound poi = []

inductive Answered (ctx : Context Shape Geometry Color) (n : Nat) (poi : NavitiaPoi) : Prop
  | nothing (h : ctx.reverseSearch n poi = .ok [])
  | hit (value : Json Float) (rest : List (Json Float))
      (h : ctx.reverseSearch n poi = .ok (value :: rest))
      (fallback : ctx.adminsOf value = [] → ctx.geofound poi = [])

theorem type_of_known (ctx : Context Shape Geometry Color)
    (h : poi.poi_type_id ∈ ctx.poi_types) :
    ∃ poi_type, ctx.poi_types[poi.poi_type_id]? = some poi_type :=
  Option.isSome_iff_exists.mp (ExtTreeMap.mem_iff_isSome_getElem?.mp h)

theorem intoPoi_lost_iff {poi_type : NavitiaPoiType}
    (htype : ctx.poi_types[poi.poi_type_id]? = some poi_type) :
    (ctx.intoPoi n poi).toOption = none ↔
      (∃ e, ctx.reverseSearch n poi = .error e) ∨
      (ctx.reverseSearch n poi = .ok [] ∧ ctx.geofound poi = []) ∨
      ∃ value rest, ctx.reverseSearch n poi = .ok (value :: rest) ∧ ctx.adminsOf value = [] := by
  rw [intoPoi, htype, closestPlace]
  rcases ctx.reverseSearch n poi with e | _ | ⟨value, rest⟩
  · simp [Except.bind, Except.toOption]
  · cases hfound : ctx.geofound poi <;> simp [Except.bind, Except.toOption]
  · simp only [adminsOf]
    cases hplace : Place.decode ctx.crates value with
    | none => simp [Except.bind, Except.toOption, hplace]
    | some place =>
        cases hadmins : placeAdmins place <;>
          simp [Except.bind, Except.toOption, hplace, hadmins]

theorem Answered.excused (h : ctx.Answered n poi) (hlost : (ctx.intoPoi n poi).toOption = none) :
    ctx.Excused n poi := by
  by_cases hknown : poi.poi_type_id ∈ ctx.poi_types
  · obtain ⟨poi_type, htype⟩ := ctx.type_of_known hknown
    refine .inr ?_
    rcases (intoPoi_lost_iff htype).mp hlost with
      ⟨e, he⟩ | ⟨hnil, hfound⟩ | ⟨value, rest, hv, hnone⟩
    · cases h with
      | nothing h => cases h.symm.trans he
      | hit value rest h fallback => cases h.symm.trans he
    · exact ⟨by rw [closestAdmins, hnil]; rfl, hfound⟩
    · cases h with
      | nothing h => cases h.symm.trans hv
      | hit value' rest' h fallback =>
          obtain ⟨rfl, -⟩ := List.cons.inj (Except.ok.inj (h.symm.trans hv))
          exact ⟨by rw [closestAdmins, hv]; exact hnone, fallback hnone⟩
  · exact .inl hknown

end Context

structure LosesOnlyUnadmined (ctx : Context Shape Geometry Color)
    (storage : ElasticsearchStorageConfig) (config : ContainerConfig) (now : DateTime)
    (pois : List NavitiaPoi) : Prop where
  absent : ∀ (n : Nat) (poi : NavitiaPoi), pois[n]? = some poi →
    (ctx.converted pois)[n]? = some none → ctx.Excused n poi
  fails : ∀ (n : Nat) (poi : NavitiaPoi) (source : SearchError), pois[n]? = some poi →
    poi.poi_type_id ∈ ctx.poi_types → ctx.reverseSearch n poi = .error source →
    ∃ e, indexPois ctx storage config now pois = throw (.err e)

-- Of the POIs handed to the import; those whose ids `normalize_id` makes one meet in the index.
theorem loses_only_unadmined_iff (ctx : Context Shape Geometry Color)
    (storage : ElasticsearchStorageConfig) (config : ContainerConfig) (now : DateTime)
    (pois : List NavitiaPoi) :
    LosesOnlyUnadmined ctx storage config now pois ↔
      ∀ (n : Nat) (poi : NavitiaPoi), pois[n]? = some poi → poi.poi_type_id ∈ ctx.poi_types →
        ctx.Answered n poi := by
  constructor
  · intro h n poi hpoi hknown
    obtain ⟨poi_type, htype⟩ := ctx.type_of_known hknown
    match hsearch : ctx.reverseSearch n poi with
    | .error source =>
        obtain ⟨e, he⟩ := h.fails n poi source hpoi hknown hsearch
        exact absurd he (importPois_ne_throw _)
    | .ok [] => exact .nothing hsearch
    | .ok (value :: rest) =>
        refine .hit value rest hsearch fun hnone => ?_
        have hlost : (ctx.intoPoi n poi).toOption = none :=
          (Context.intoPoi_lost_iff htype).mpr (.inr (.inr ⟨value, rest, hsearch, hnone⟩))
        have habsent := ctx.getElem?_converted hpoi
        rw [hlost] at habsent
        rcases h.absent n poi hpoi habsent with hunknown | ⟨_, hfound⟩
        · exact absurd hknown hunknown
        · exact hfound
  · intro h
    constructor
    · intro n poi hpoi habsent
      rw [ctx.getElem?_converted hpoi, Option.some.injEq] at habsent
      by_cases hknown : poi.poi_type_id ∈ ctx.poi_types
      · exact (h n poi hpoi hknown).excused habsent
      · exact .inl hknown
    · intro n poi source hpoi hknown hsearch
      cases h n poi hpoi hknown with
      | nothing h => cases h.symm.trans hsearch
      | hit value rest h fallback => cases h.symm.trans hsearch

def cinema : NavitiaPoi where
  id := "poi:cinema".toList
  name := "Le Champo".toList
  coord := ⟨2.3439, 48.85⟩
  poi_type_id := "poi_type:cinema".toList
  properties := ∅

def paris : Places.Admin Unit PlainGeometry :=
  { Admin.default with
    id := "admin:fr:75056".toList
    name := "Paris".toList
    zone_type := some .City }

def overloaded : Context Unit PlainGeometry Text where
  poi_types := (∅ : ExtTreeMap Text NavitiaPoiType).insert "poi_type:cinema".toList
    ⟨"poi_type:cinema".toList, "Cinema".toList⟩
  client _ _ _ _ := .error (.documentRetrievalError "timeout".toList)
  admins_geofinder _ := [paris]
  crates := plainCrates
  writer := floatWriter compensatedLn1p fun _ => .null
  point := .Point

theorem overloaded_loses : ¬ LosesOnlyUnadmined overloaded
    ⟨1000, "1m".toList, 8, 100, ⟨false, 1⟩⟩ ⟨"poi".toList, "fr".toList, .Public, 1, 1⟩
    (.utc 2022 3 1 12 0 0 0) [cinema] := by
  intro h
  obtain ⟨e, he⟩ := h.fails 0 cinema _ rfl ExtTreeMap.mem_insert_self rfl
  exact importPois_ne_throw _ he

end Pois

end Mimirsbrunn.Imports
