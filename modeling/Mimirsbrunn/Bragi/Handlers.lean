import Mimirsbrunn.Bragi.Indices
import Mimirsbrunn.Bragi.Served

namespace Mimirsbrunn.Places
open Regex Settings

inductive InternalErrorReason where
  | ElasticSearchError
  | SerializationError
  | ObjectNotFoundError
  | StatusError
  deriving DecidableEq, Repr

structure InternalError where
  reason : InternalErrorReason
  info : Text
  deriving DecidableEq, Repr

structure Bragi (Shape Geometry Color : Type) where
  crates : Crates Shape Geometry Color
  writer : JsonWriter Float Geometry
  haversineDistance : Float → Float → Coord → Float
  decodeMessage : List (Json Float) → Text
  bragi_version : Text
  mimir_version : Text
  config_timeout : Nat

structure StatusResponseBody where
  bragi_version : Text
  mimir_version : Text
  elasticsearch_version : Text
  elasticsearch_health : Text
  elasticsearch_url : Text
  deriving DecidableEq, Repr

variable {Shape Geometry Color : Type} (self : Bragi Shape Geometry Color)

abbrev Handled (α : Type) :=
  Client (ReadRequest Float) (ReadResponse Float) (Except (Failure InternalError) α)

def retrievalError (err : ReadError) : InternalError :=
  ⟨.ElasticSearchError,
    "Document Retrieval Error: Document Retrieval Error: ".toList ++ err.display⟩

def statusError (err : StatusError) : InternalError :=
  ⟨.StatusError, "Status Error: ".toList ++
    match err with
    | .healthRetrievalError source => "Health Retrieval Error: ".toList ++ source.display
    | .versionRetrievalError source => "Version Retrieval Error: ".toList ++ source.display⟩

def withDocuments {α : Type} (documents : Reading Float ReadError (List (Json Float)))
    (k : List (Json Float) → Handled α) : Handled α :=
  documents.run.bind fun
    | .ok res => k res
    | .error (.err err) => .done (.error (.err (retrievalError err)))
    | .error (.panicked m) => .done (.error (.panicked m))

namespace Bragi

def buildFeature (places : List (Place Shape Geometry Color)) (query_coord : Option QueryCoord) :
    List (Feature Geometry Color) :=
  places.map fun p =>
    match query_coord with
    | some coord =>
        let distance := self.haversineDistance coord.lon.toFloat coord.lat.toFloat p.coord
        Feature.fromWithLang self.crates (p.setDistance distance.toUInt32) none
    | none => Feature.fromWithLang self.crates p none

def forwardQuery (params : ForwardGeocoderQuery Float) (geometry : Option Geometry)
    (settings : QuerySettings Float) (query_type : QueryType) : Json Float :=
  buildQuery self.writer params.q (Filters.from params geometry) params.lang settings query_type
    (some ["boundary".toList])

def forwardSearch (params : ForwardGeocoderQuery Float) (geometry : Option Geometry)
    (settings : QuerySettings Float) (timeout : Nat) (query_type : QueryType) :
    Reading Float ReadError (List (Json Float)) :=
  Internal.searchDocuments self.config_timeout
    (buildEsIndicesToSearch params.types params.pt_dataset params.poi_dataset)
    (.QueryDSL (self.forwardQuery params geometry settings query_type)) params.limit
    (some (params.timeout.getD timeout))

def firstAnswer (q : Text) (coord : Option QueryCoord) :
    List (Reading Float ReadError (List (Json Float))) →
      Handled (GeocodeJsonResponse Geometry Color)
  | [] => .done (.ok (.new q []))
  | futur :: futurs => withDocuments futur fun res =>
      match res.mapM (Place.decode self.crates) with
      | some [] => firstAnswer q coord futurs
      | some places => .done (.ok (.new q (self.buildFeature places coord)))
      | none => .done (.error (.err ⟨.SerializationError, self.decodeMessage res⟩))

def forwardGeocoder (params : ForwardGeocoderQuery Float) (geometry : Option Geometry)
    (settings : QuerySettings Float) (timeout : Nat) :
    Handled (GeocodeJsonResponse Geometry Color) :=
  self.firstAnswer params.q (Filters.from params geometry).coord
    [self.forwardSearch params geometry settings timeout .PREFIX,
      self.forwardSearch params geometry settings timeout .FUZZY]

def forwardGeocoderExplain (params : ForwardGeocoderExplainQuery Float)
    (geometry : Option Geometry) (settings : QuerySettings Float) : Handled (Json Float) :=
  let dsl := buildQuery self.writer params.query.q (Filters.from params.query geometry)
    params.query.lang settings .PREFIX none
  (Internal.explainSearch self.config_timeout (rootDoctype params.doc_type) (.QueryDSL dsl)
    params.doc_id).run.bind fun
      | .ok res => .done (.ok res)
      | .error (.err err) => .done (.error (.err (retrievalError err)))
      | .error (.panicked m) => .done (.error (.panicked m))

def reverseGeocoder (params : ReverseGeocoderQuery) (settings : QuerySettings Float)
    (timeout : Nat) : Handled (GeocodeJsonResponse Geometry Color) :=
  let distance := Nat.toDigits 10 settings.reverse_query.radius ++ "m".toList
  let dsl := buildReverseQuery self.writer distance params.lat params.lon
  withDocuments
    (Internal.searchDocuments self.config_timeout
      [rootDoctype PlaceDocType.Street.asStr, rootDoctype PlaceDocType.Addr.asStr]
      (.QueryDSL dsl) params.limit (some (params.timeout.getD timeout)))
    fun res =>
      match res.mapM (Place.decode self.crates) with
      | some places => .done (.ok (.fromWithLang self.crates places none))
      | none => .done (.error (.panicked Internal.unwrapErr))

def features (doc_id : Text) (params : FeaturesQuery) (timeout : Nat) :
    Handled (GeocodeJsonResponse Geometry Color) :=
  let indices := buildEsIndicesToSearch none params.pt_dataset params.poi_dataset
  withDocuments
    (Internal.getDocumentsById self.config_timeout
      (.QueryDSL (buildFeaturesQuery indices doc_id)) (some (params.timeout.getD timeout)))
    fun res =>
      match res.mapM (Place.decode self.crates) with
      | some [] => .done (.error (.err ⟨.ObjectNotFoundError, "Unable to find object".toList⟩))
      | some places => .done (.ok (.new []
          (places.map (fun p => Feature.fromWithLang self.crates p none))))
      | none => .done (.error (.err ⟨.SerializationError, self.decodeMessage res⟩))

def status (url : Text) : Handled StatusResponseBody :=
  (storageStatus self.config_timeout).run.bind fun
    | .ok res => .done (.ok {
        bragi_version := self.bragi_version
        mimir_version := self.mimir_version
        elasticsearch_version := res.version
        elasticsearch_health := res.health.display
        elasticsearch_url := url })
    | .error (.err err) => .done (.error (.err (statusError err)))
    | .error (.panicked m) => .done (.error (.panicked m))

end Bragi

end Mimirsbrunn.Places
