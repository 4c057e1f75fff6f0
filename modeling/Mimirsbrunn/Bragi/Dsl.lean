import Mimirsbrunn.Library.BoolQuery
import Mimirsbrunn.Bragi.Api
import Mimirsbrunn.Bragi.Settings
import Mimirsbrunn.Places.Float64

namespace Mimirsbrunn
open Regex Settings

inductive QueryType where
  | PREFIX
  | FUZZY
  deriving DecidableEq, Repr

-- What `f64` does beside its four operations, and how a shape is written.
structure JsonWriter (F Shape : Type) where
  finite : F → Bool
  widen : Float32 → F
  min : F → F → F
  max : F → F → F
  ln_1p : F → F
  display : F → Text
  shape : Shape → Json F

-- `f64` itself; the smaller and the greater of two numbers pass over NaN.
def floatWriter {Shape : Type} (ln_1p : Float → Float) (shape : Shape → Json Float) :
    JsonWriter Float Shape where
  finite := Float.isFinite
  widen := Float32.toFloat
  min x y := if x.isNaN then y else if y < x then y else x
  max x y := if x.isNaN then y else if x < y then y else x
  ln_1p := ln_1p
  display := F64.display
  shape := shape

-- A logarithm that keeps what `1 + x` rounds away; it stands for `f64::ln_1p` on fixed inputs.
def compensatedLn1p (x : Float) : Float :=
  let u := 1 + x
  if u == 1 then x else u.log * (x / (u - 1))

variable {F Shape : Type} (writer : JsonWriter F Shape)

def JsonWriter.num (x : F) : Json F := if writer.finite x then .num x else .null

def isWhitespace (c : Char) : Bool :=
  (9 ≤ c.toNat && c.toNat ≤ 13) || c.toNat = 0x20 || c.toNat = 0x85 || c.toNat = 0xA0 ||
    c.toNat = 0x1680 || (0x2000 ≤ c.toNat && c.toNat ≤ 0x200A) || c.toNat = 0x2028 ||
    c.toNat = 0x2029 || c.toNat = 0x202F || c.toNat = 0x205F || c.toNat = 0x3000

def splitWhitespace (q : Text) : List Text :=
  (q.splitOnP isWhitespace).filter (fun word => !word.isEmpty)

def buildMultiMatchQuery (query : Text) (fields : List Text) (boost : F) : Json F :=
  .obj [("multi_match", .obj [
    ("query", .str query),
    ("fields", .strs fields),
    ("boost", writer.num boost)])]

def buildMatchQuery (query : Text) (field : String) (boost : F) : Json F :=
  .obj [("match", .obj [(field, .obj [
    ("query", .str query),
    ("boost", writer.num boost)])])]

def buildStringQuery (q lang : Text) (settings : StringQuery F) (query_type : QueryType)
    (coord : Option QueryCoord) : Json F :=
  let boosts := settings.boosts
  let string_should := [
    buildMultiMatchQuery writer q ["name".toList, "names.".toList ++ lang] boosts.name,
    buildMultiMatchQuery writer q ["label".toList, "label.".toList ++ lang] boosts.label,
    buildMultiMatchQuery writer q
      ["label.prefix".toList, "label.".toList ++ lang ++ ".prefix".toList] boosts.label_prefix,
    buildMatchQuery writer q "zip_codes" boosts.zip_codes,
    buildMatchQuery writer q "house_number" boosts.house_number]
  let ngrams := match query_type with
    | .FUZZY => [buildMultiMatchQuery writer q
        ["label.ngram".toList, "label.".toList ++ lang ++ ".ngram".toList]
        (if coord.isSome then boosts.label_ngram_with_coord else boosts.label_ngram)]
    | .PREFIX => []
  .obj [("bool", .obj [
    ("boost", writer.num settings.global),
    ("should", .arr (string_should ++ ngrams))])]

-- The function of one type; the one of addresses gives its filter twice, the last being kept.
def weightOfType (build_weight : BuildWeight F) (type : Text) (weight : F) : Json F :=
  .obj [
    ("filter", .obj [("term", .obj [("type", .str type)])]),
    ("field_value_factor", .obj [
      ("field", .str "weight".toList),
      ("factor", writer.num build_weight.factor),
      ("missing", writer.num build_weight.missing)]),
    ("weight", writer.num weight)]

def buildWithWeight (build_weight : BuildWeight F) (types : Types F) : Json F :=
  .obj [("function_score", .obj [
    ("boost_mode", .str "replace".toList),
    ("functions", .arr [
      weightOfType writer build_weight "stop".toList types.stop,
      weightOfType writer build_weight "addr".toList types.address,
      weightOfType writer build_weight "admin".toList types.admin,
      weightOfType writer build_weight "poi".toList types.poi,
      weightOfType writer build_weight "street".toList types.street])])]

def buildAdminWeightQuery [OfNat F 1000000] (weights : BuildWeight F) : Json F :=
  .obj [("function_score", .obj [
    ("boost_mode", .str "replace".toList),
    ("functions", .arr [.obj [
      ("filter", .obj [("term", .obj [("type", .str "admin".toList)])]),
      ("field_value_factor", .obj [
        ("field", .str "weight".toList),
        ("factor", .num 1000000),
        ("modifier", .str "log1p".toList),
        ("missing", .int 0)]),
      ("weight", writer.num weights.admin)]])])]

def typeBoost (type : Text) (boost : F) : Json F :=
  .obj [("term", .obj [("type", .obj [("value", .str type), ("boost", writer.num boost)])])]

def buildPlaceTypeBoost (settings : TypeQueryBoosts F) : Json F :=
  let boosts := settings.boosts
  .obj [("bool", .obj [
    ("should", .arr [
      typeBoost writer "admin".toList boosts.admin,
      typeBoost writer "addr".toList boosts.address,
      typeBoost writer "stop".toList boosts.stop,
      typeBoost writer "poi".toList boosts.poi,
      typeBoost writer "street".toList boosts.street]),
    ("boost", writer.num settings.global)])]

def buildProximityBoost (coord : QueryCoord) (settings_decay : Decay F) (weight_boost : F) :
    Json F :=
  .obj [("function_score", .obj [
    ("boost_mode", .str "replace".toList),
    ("functions", .arr [
      .obj [(settings_decay.func, .obj [("coord", .obj [
        ("origin", .obj [
          ("lat", writer.num (writer.widen coord.lat)),
          ("lon", writer.num (writer.widen coord.lon))]),
        ("scale", .str (writer.display settings_decay.scale ++ "km".toList)),
        ("offset", .str (writer.display settings_decay.offset ++ "km".toList)),
        ("decay", writer.num settings_decay.decay)])])],
      .obj [("weight", writer.num weight_boost)]])])]

section Arithmetic

variable [OfNat F 1] [Add F] [Sub F] [Mul F] [Div F]

def buildWeightDependingOnRadius (importance_query_settings : ImportanceQueryBoosts F)
    (coord : Option QueryCoord) : BuildWeight F :=
  let settings_weight := importance_query_settings.weights
  let min_weights := settings_weight.min_radius_prefix
  let max_weights := settings_weight.max_radius
  let zoom_ratio : F := match coord with
    | none => 1
    | some _ =>
        let (min_radius, max_radius) := settings_weight.radius_range
        let curve := importance_query_settings.proximity.decay
        let radius := writer.max (writer.min (curve.offset + curve.scale) max_radius) min_radius
        (writer.ln_1p radius - writer.ln_1p min_radius) /
          (writer.ln_1p max_radius - writer.ln_1p min_radius)
  { admin := (1 - zoom_ratio) * min_weights.admin + zoom_ratio * max_weights.admin
    factor := (1 - zoom_ratio) * min_weights.factor + zoom_ratio * max_weights.factor
    missing := (1 - zoom_ratio) * min_weights.missing + zoom_ratio * max_weights.missing }

def buildBoosts [OfNat F 1000000] (settings : QuerySettings F) (filters : Filters F Shape)
    (query_type : QueryType) : List (Json F) :=
  let importance := settings.importance_query
  let weights := buildWeightDependingOnRadius writer importance filters.coord
  let decay := match filters.proximity with
    | some proximity => { importance.proximity.decay with
        scale := proximity.scale, offset := proximity.offset, decay := proximity.decay }
    | none => importance.proximity.decay
  let weight_boost := match query_type with
    | .PREFIX => importance.proximity.weight
    | .FUZZY => importance.proximity.weight_fuzzy
  [some (buildWithWeight writer weights importance.weights.types),
    match query_type with
      | .PREFIX => some (buildAdminWeightQuery writer weights)
      | .FUZZY => none,
    filters.coord.map (fun coord => buildProximityBoost writer coord decay weight_boost)].reduceOption

end Arithmetic

def buildShapeQuery (shape : Shape) (scope : List Text) : Json F :=
  .obj [("bool", .obj [("should", .arr [
    .obj [("bool", .obj [
      ("must", .obj [("terms", .obj [("type", .strs scope)])]),
      ("filter", .obj [("geo_shape", .obj [("approx_coord", .obj [
        ("shape", writer.shape shape),
        ("relation", .str "intersects".toList)])])])])],
    .obj [("bool", .obj [("must_not", .obj [("terms", .obj [("type", .strs scope)])])])]])])]

def buildTypedFilter (type : Text) (field : String) (values : List Text) : Json F :=
  .obj [("bool", .obj [("should", .arr [
    .obj [("bool", .obj [("must", .arr [
      .obj [("term", .obj [("type", .str type)])],
      .obj [("terms", .obj [(field, .strs values)])]])])],
    .obj [("bool", .obj [("must_not", .obj [("term", .obj [("type", .str type)])])])]])])]

def buildPoiTypesFilter (poi_types : List Text) : Json F :=
  buildTypedFilter "poi".toList "poi_type.id" poi_types

def buildZoneTypesFilter (zone_types : List Text) : Json F :=
  buildTypedFilter "admin".toList "zone_type" zone_types

def buildFilters (shape : Option (Shape × List Text)) (poi_types zone_types : Option (List Text)) :
    List (Json F) :=
  [shape.map (fun (geometry, scope) => buildShapeQuery writer geometry scope),
    poi_types.map buildPoiTypesFilter, zone_types.map buildZoneTypesFilter].reduceOption

def withoutHouseNumber : Json F :=
  .obj [("bool", .obj [("must_not", .obj [
    ("exists", .obj [("field", .str "house_number".toList)])])])]

def buildHouseNumberCondition (q : Text) : Json F :=
  if 1 < (splitWhitespace q).length then
    .obj [("bool", .obj [("should", .arr [
      withoutHouseNumber,
      .obj [("match", .obj [("house_number", .obj [("query", .str q)])])]])])]
  else withoutHouseNumber

def buildMatchingCondition (q : Text) : QueryType → Json F
  | .PREFIX => .obj [("match", .obj [("full_label.prefix", .obj [
      ("query", .str q),
      ("operator", .str "and".toList)])])]
  | .FUZZY => .obj [("match", .obj [("full_label.ngram", .obj [
      ("query", .str q),
      ("minimum_should_match", .str "1<-1 3<-2 9<-4 20<25%".toList)])])]

def buildQuery [OfNat F 1] [Add F] [Sub F] [Mul F] [Div F] [OfNat F 1000000] (q : Text)
    (filters : Filters F Shape) (lang : Text) (settings : QuerySettings F)
    (query_type : QueryType) (excludes : Option (List Text)) : Json F :=
  let type_query := buildPlaceTypeBoost writer settings.type_query
  let string_query :=
    buildStringQuery writer q lang settings.string_query query_type filters.coord
  let boosts := buildBoosts writer settings filters query_type
  let query := .obj [("bool", .obj [
    ("must", .arr [type_query, string_query]),
    ("should", .arr boosts),
    ("filter", .arr (buildFilters writer filters.shape filters.poi_types filters.zone_types ++
      [buildMatchingCondition q query_type, buildHouseNumberCondition q]))])]
  match excludes with
  | some values =>
      .obj [("query", query), ("_source", .obj [("excludes", .strs values)])]
  | none => .obj [("query", query)]

def buildReverseQuery (distance : Text) (lat lon : F) : Json F :=
  let coord : Json F := .obj [("lat", writer.num lat), ("lon", writer.num lon)]
  .obj [
    ("query", .obj [("bool", .obj [("filter", .obj [("geo_distance", .obj [
      ("distance", .str distance),
      ("coord", coord)])])])]),
    ("_source", .obj [("excludes", .strs ["boundary".toList])]),
    ("sort", .arr [.obj [("_geo_distance", .obj [
      ("coord", coord),
      ("order", .str "asc".toList),
      ("unit", .str "m".toList),
      ("mode", .str "min".toList),
      ("distance_type", .str "arc".toList),
      ("ignore_unmapped", .bool true)])]])]

def buildFeaturesQuery (indices : List Text) (doc_id : Text) : Json F :=
  .obj [("docs", .arr (indices.map (fun index => .obj [
    ("_index", .str index),
    ("_id", .str doc_id),
    ("_source", .obj [("exclude", .str "boundary".toList)])])))]

end Mimirsbrunn
