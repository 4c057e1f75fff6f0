import Mimirsbrunn.Bragi.Dsl

namespace Mimirsbrunn
open Regex Settings BoolQuery

variable {F Shape : Type} {writer : JsonWriter F Shape}

def labelMatches (q : Text) (query_type : QueryType) (doc : BoolQuery.Document F) : Bool :=
  match query_type with
  | .PREFIX => doc.matchesText "full_label.prefix".toList
      (.obj [("query", .str q), ("operator", .str "and".toList)])
  | .FUZZY => doc.matchesText "full_label.ngram".toList
      (.obj [("query", .str q), ("minimum_should_match", .str "1<-1 3<-2 9<-4 20<25%".toList)])

structure Admitted (writer : JsonWriter F Shape) (q : Text) (filters : Filters F Shape)
    (query_type : QueryType) (doc : BoolQuery.Document F) : Prop where
  shape : ∀ shape, filters.shape = some shape →
    (∀ type ∈ doc.values "type".toList, type ∉ shape.2) ∨
      doc.intersects "approx_coord".toList (writer.shape shape.1) = true
  poi_types : ∀ poi_types, filters.poi_types = some poi_types →
    "poi".toList ∉ doc.values "type".toList ∨
      ∃ poi_type ∈ poi_types, poi_type ∈ doc.values "poi_type.id".toList
  zone_types : ∀ zone_types, filters.zone_types = some zone_types →
    "admin".toList ∉ doc.values "type".toList ∨
      ∃ zone_type ∈ zone_types, zone_type ∈ doc.values "zone_type".toList
  full_label : labelMatches q query_type doc = true
  house_number : doc.isPresent "house_number".toList = false ∨
    1 < (splitWhitespace q).length ∧
      doc.matchesText "house_number".toList (.obj [("query", .str q)]) = true

def filterOf (body : Json F) : Option (List (BoolQuery.Query F)) :=
  (body.get? "query").bind fun query =>
    (query.get? "bool").bind fun clauses =>
      (clauses.get? "filter").bind parseValue

theorem means_shape_query (geometry : Shape) (scope : List Text) :
    Means (buildShapeQuery writer geometry scope) (fun doc =>
      (∀ type ∈ doc.values "type".toList, type ∉ scope) ∨
        doc.intersects "approx_coord".toList (writer.shape geometry) = true) := by
  have inside := (means_terms "type" scope).must_filter
    (means_geo_shape "approx_coord" (writer.shape geometry))
  refine (inside.or (means_terms "type" scope).not).congr fun doc => ?_
  grind

theorem means_typed_filter (type : Text) (field : String) (values : List Text) :
    Means (F := F) (buildTypedFilter type field values) (fun doc =>
      type ∉ doc.values "type".toList ∨ ∃ value ∈ values, value ∈ doc.values field.toList) := by
  have typed := (means_term (F := F) "type" type).and (means_terms field values)
  refine (typed.or (means_term "type" type).not).congr fun doc => ?_
  grind

theorem means_filters (filters : Filters F Shape) :
    MeansAll (buildFilters writer filters.shape filters.poi_types filters.zone_types) (fun doc =>
      (∀ shape, filters.shape = some shape →
        (∀ type ∈ doc.values "type".toList, type ∉ shape.2) ∨
          doc.intersects "approx_coord".toList (writer.shape shape.1) = true) ∧
      (∀ poi_types, filters.poi_types = some poi_types →
        "poi".toList ∉ doc.values "type".toList ∨
          ∃ poi_type ∈ poi_types, poi_type ∈ doc.values "poi_type.id".toList) ∧
      (∀ zone_types, filters.zone_types = some zone_types →
        "admin".toList ∉ doc.values "type".toList ∨
          ∃ zone_type ∈ zone_types, zone_type ∈ doc.values "zone_type".toList) ∧ True) :=
  MeansAll.option _ (fun shape => means_shape_query shape.1 shape.2)
    (MeansAll.option _ (means_typed_filter _ "poi_type.id")
      (MeansAll.option _ (means_typed_filter _ "zone_type") meansAll_nil))

theorem means_without_house_number :
    Means (F := F) withoutHouseNumber (fun doc => doc.isPresent "house_number".toList = false) :=
  (means_exists "house_number".toList).not.congr fun doc => by rw [Bool.not_eq_true]

theorem means_house_number_condition (q : Text) :
    Means (F := F) (buildHouseNumberCondition q) (fun doc =>
      doc.isPresent "house_number".toList = false ∨
        1 < (splitWhitespace q).length ∧
          doc.matchesText "house_number".toList (.obj [("query", .str q)]) = true) := by
  rw [buildHouseNumberCondition]
  split
  case isTrue several =>
    refine (means_without_house_number.or (means_match "house_number" _)).congr fun doc => ?_
    simp only [several, true_and]
  case isFalse single =>
    refine means_without_house_number.congr fun doc => ?_
    simp only [single, false_and, or_false]

theorem means_matching_condition (q : Text) (query_type : QueryType) :
    Means (F := F) (buildMatchingCondition q query_type)
      (fun doc => labelMatches q query_type doc = true) := by
  cases query_type with
  | PREFIX => exact means_match "full_label.prefix" _
  | FUZZY => exact means_match "full_label.ngram" _

variable [OfNat F 1] [Add F] [Sub F] [Mul F] [Div F] [OfNat F 1000000]

theorem filterOf_buildQuery (q : Text) (filters : Filters F Shape) (lang : Text)
    (settings : QuerySettings F) (query_type : QueryType) (excludes : Option (List Text)) :
    filterOf (buildQuery writer q filters lang settings query_type excludes) =
      parseItems (buildFilters writer filters.shape filters.poi_types filters.zone_types ++
        [buildMatchingCondition q query_type, buildHouseNumberCondition q]) := by
  cases excludes <;> rfl

theorem filter_admits_iff (writer : JsonWriter F Shape) (q : Text) (filters : Filters F Shape)
    (lang : Text) (settings : QuerySettings F) (query_type : QueryType)
    (excludes : Option (List Text)) :
    ∃ queries,
      filterOf (buildQuery writer q filters lang settings query_type excludes) = some queries ∧
      ∀ doc, passesAll doc queries = true ↔ Admitted writer q filters query_type doc := by
  rw [filterOf_buildQuery]
  have conditions := (means_matching_condition (F := F) q query_type).cons
    ((means_house_number_condition q).cons meansAll_nil)
  obtain ⟨queries, hqueries, hpasses⟩ := (means_filters filters).append conditions
  refine ⟨queries, hqueries, fun doc => (hpasses doc).trans ⟨?_, ?_⟩⟩
  · rintro ⟨⟨hshape, hpoi, hzone, -⟩, hlabel, hhouse, -⟩
    exact ⟨hshape, hpoi, hzone, hlabel, hhouse⟩
  · rintro ⟨hshape, hpoi, hzone, hlabel, hhouse⟩
    exact ⟨⟨hshape, hpoi, hzone, trivial⟩, hlabel, hhouse, trivial⟩

end Mimirsbrunn
