import Mimirsbrunn.Bragi.Api

namespace Mimirsbrunn
open Regex Std

inductive HttpMethod where
  | Get
  | Post
  | Other (name : Text)
  deriving DecidableEq, Repr

structure HttpRequest where
  method : HttpMethod
  path : List Text
  query : Option Text
  content_length : Option Nat
  body : Text
  deriving DecidableEq, Repr

inductive InvalidRequestReason where
  | CannotDeserialize
  | EmptyQueryString
  | InconsistentPoiRequest
  | InconsistentZoneRequest
  | InconsistentLatLonRequest
  | OutOfRangeLatLonRequest
  deriving DecidableEq, Repr

inductive Rejection where
  | methodNotAllowed
  | notFound
  | invalidQuery
  | lengthRequired
  | payloadTooLarge
  | bodyDeserializeError (info : Text)
  | invalidRequest (reason : InvalidRequestReason) (info : Text)
  | invalidPostBody
  deriving DecidableEq, Repr

inductive GeoJson (Shape : Type) where
  | Feature (geometry : Option Shape)
  | Other

-- What is read by serde: query strings by serde_qs, bodies by serde_json.
structure Reader (F Shape : Type) where
  forward : Text → Except Text (ForwardGeocoderQuery F)
  explain : Text → Except Text (ForwardGeocoderExplainQuery F)
  reverse : Text → Except Text ReverseGeocoderQuery
  body : Text → Except Text (GeoJson Shape)
  display : Float32 → Text

variable {F Shape : Type}

def cannotDeserialize {α : Type} (read : Except Text α) : Except Rejection α :=
  read.mapError (.invalidRequest .CannotDeserialize)

def withMethod (method : HttpMethod) (request : HttpRequest) : Except Rejection Unit :=
  if request.method = method then .ok () else .error .methodNotAllowed

def pathPrefix (request : HttpRequest) : Except Rejection (List Text) :=
  if request.path.take 2 = ["api".toList, "v1".toList] then .ok (request.path.drop 2)
  else .error .notFound

def pathSegment (name : Text) : List Text → Except Rejection (List Text)
  | segment :: rest => if segment = name then .ok rest else .error .notFound
  | [] => .error .notFound

def pathEnd : List Text → Except Rejection Unit
  | [] => .ok ()
  | _ :: _ => .error .notFound

def rawQuery (request : HttpRequest) : Except Rejection Text :=
  match request.query with
  | some param => .ok param
  | none => .error .invalidQuery

def ensureQueryStringNotEmpty (params : ForwardGeocoderQuery F) :
    Except Rejection (ForwardGeocoderQuery F) :=
  if params.q.isEmpty then
    .error (.invalidRequest .EmptyQueryString
      "You must provide and non-empty query string".toList)
  else .ok params

def ensureLatLonConsistent (display : Float32 → Text) (params : ForwardGeocoderQuery F) :
    Except Rejection (ForwardGeocoderQuery F) :=
  match params.lat, params.lon with
  | some lat, some lon =>
      if ¬ (-90 ≤ lat ∧ lat ≤ 90) then
        .error (.invalidRequest .OutOfRangeLatLonRequest
          ("requested latitude ".toList ++ display lat ++
            " is outside of range [-90;90]".toList))
      else if ¬ (-180 ≤ lon ∧ lon ≤ 180) then
        .error (.invalidRequest .OutOfRangeLatLonRequest
          ("requested longitude ".toList ++ display lon ++
            " is outside of range [-180;180]".toList))
      else .ok params
  | none, none => .ok params
  | _, _ => .error (.invalidRequest .InconsistentLatLonRequest
      "you should provide a 'lon' AND a 'lat' parameter if you provide one of them".toList)

def ensureZoneTypeConsistent (params : ForwardGeocoderQuery F) :
    Except Rejection (ForwardGeocoderQuery F) :=
  if params.types.elim false (fun types => types.any (· == .Zone)) &&
      params.zone_types.elim true List.isEmpty then
    .error (.invalidRequest .InconsistentZoneRequest
      "'zone_type' must be specified when you query with 'type' parameter 'zone'".toList)
  else .ok params

def validateGeojsonShape : GeoJson Shape → Except Rejection (Option Shape)
  | .Feature (some geometry) => .ok (some geometry)
  | .Feature none => .error .invalidPostBody
  | .Other => .error .invalidPostBody

def addressed (method : HttpMethod) (segment : Text) (request : HttpRequest) :
    Except Rejection Unit := do
  withMethod method request
  pathEnd (← pathSegment segment (← pathPrefix request))

def getFilter {α : Type} (segment : Text) (query : HttpRequest → Except Rejection α)
    (request : HttpRequest) : Except Rejection (α × Option Shape) := do
  addressed .Get segment request
  return (← query request, none)

def postFilter {α : Type} (segment : Text) (query : HttpRequest → Except Rejection α)
    (body : HttpRequest → Except Rejection (Option Shape)) (request : HttpRequest) :
    Except Rejection (α × Option Shape) := do
  addressed .Post segment request
  return (← query request, ← body request)

namespace Reader

variable (reader : Reader F Shape)

def forwardGeocoderQuery (request : HttpRequest) : Except Rejection (ForwardGeocoderQuery F) := do
  let param ← rawQuery request
  let params ← cannotDeserialize (reader.forward param)
  let params ← ensureQueryStringNotEmpty params
  let params ← ensureZoneTypeConsistent params
  ensureLatLonConsistent reader.display params

def forwardGeocoderExplainQuery (request : HttpRequest) :
    Except Rejection (ForwardGeocoderExplainQuery F) := do
  let param ← rawQuery request
  cannotDeserialize (reader.explain param)

def reverseGeocoderQuery (request : HttpRequest) : Except Rejection ReverseGeocoderQuery := do
  let param ← rawQuery request
  cannotDeserialize (reader.reverse param)

def forwardGeocoderBody (request : HttpRequest) : Except Rejection (Option Shape) :=
  match request.content_length with
  | none => .error .lengthRequired
  | some length => do
      if length > 1024 * 32 then throw .payloadTooLarge
      let json ← (reader.body request.body).mapError .bodyDeserializeError
      validateGeojsonShape json

def forwardGeocoderGet (request : HttpRequest) :
    Except Rejection (ForwardGeocoderQuery F × Option Shape) :=
  getFilter "autocomplete".toList reader.forwardGeocoderQuery request

def forwardGeocoderPost (request : HttpRequest) :
    Except Rejection (ForwardGeocoderQuery F × Option Shape) :=
  postFilter "autocomplete".toList reader.forwardGeocoderQuery reader.forwardGeocoderBody request

def forwardGeocoderExplainGet (request : HttpRequest) :
    Except Rejection (ForwardGeocoderExplainQuery F × Option Shape) :=
  getFilter "autocomplete-explain".toList reader.forwardGeocoderExplainQuery request

def forwardGeocoderExplainPost (request : HttpRequest) :
    Except Rejection (ForwardGeocoderExplainQuery F × Option Shape) :=
  postFilter "autocomplete-explain".toList reader.forwardGeocoderExplainQuery
    reader.forwardGeocoderBody request

-- The only filter that does not end its path.
def reverseGeocoder (request : HttpRequest) : Except Rejection ReverseGeocoderQuery := do
  withMethod .Get request
  let _ ← pathSegment "reverse".toList (← pathPrefix request)
  reader.reverseGeocoderQuery request

end Reader

end Mimirsbrunn
