import Mimirsbrunn.Bragi.Handlers
import Mimirsbrunn.Bragi.Validation
import Mimirsbrunn.Library.Alternatives

namespace Mimirsbrunn
open Regex

def pathParam : List Text → Except Rejection (Text × List Text)
  | segment :: rest => if segment.isEmpty then .error .notFound else .ok (segment, rest)
  | [] => .error .notFound

end Mimirsbrunn

namespace Mimirsbrunn.Places
open Regex Settings

inductive Cause where
  | filter (rejection : Rejection)
  | internal (error : InternalError)
  deriving DecidableEq, Repr

-- The filters of a route that was not found say nothing.
def Cause.ofRejection : Rejection → List Cause
  | .notFound => []
  | rejection => [.filter rejection]

structure ApiError where
  short : Text
  long : Text
  deriving DecidableEq, Repr

inductive ReplyBody (Geometry Color : Type) where
  | geocode (resp : GeocodeJsonResponse Geometry Color)
  | explanation (res : Json Float)
  | status (resp : StatusResponseBody)
  | metrics (text : Text)
  | error (err : ApiError)

structure Reply (Geometry Color : Type) where
  status : Nat
  content_type : Text
  cache_control : Option Text
  body : ReplyBody Geometry Color

variable {Shape Geometry Color α β : Type}

def Reply.json (status : Nat) (body : ReplyBody Geometry Color) : Reply Geometry Color :=
  ⟨status, "application/json".toList, none, body⟩

inductive Called (Geometry : Type) where
  | reverse (params : ReverseGeocoderQuery)
  | forward (params : ForwardGeocoderQuery Float) (geometry : Option Geometry)
  | features (doc_id : Text) (params : FeaturesQuery)
  | explain (params : ForwardGeocoderExplainQuery Float) (geometry : Option Geometry)
  | status
  | metrics

-- What the server is started with, and how warp names two of its rejections.
structure Server (Shape Geometry Color : Type) where
  bragi : Bragi Shape Geometry Color
  reader : Reader Float Geometry
  readFeatures : Text → Except Text FeaturesQuery
  settings : QuerySettings Float
  reverse_timeout : Nat
  autocomplete_timeout : Nat
  features_timeout : Nat
  elasticsearch_url : Text
  metrics : Text
  http_cache_duration : Nat
  invalidQuery : Text
  methodNotAllowed : Text

abbrev Route (Geometry Color : Type) :=
  Client (ReadRequest Float) (ReadResponse Float)
    (Except (List Cause) (Except Text (Reply Geometry Color)))

def orFilter (f g : HttpRequest → Except (List Cause) α) (request : HttpRequest) :
    Except (List Cause) α :=
  match f request with
  | .ok a => .ok a
  | .error es => match g request with
      | .ok a => .ok a
      | .error es' => .error (es ++ es')

def filtered (f : HttpRequest → Except Rejection α) (request : HttpRequest) :
    Except (List Cause) α :=
  (f request).mapError Cause.ofRejection

def replied (f : α → Reply Geometry Color) (handled : Handled α) : Route Geometry Color :=
  handled.bind fun
    | .ok a => .done (.ok (.ok (f a)))
    | .error (.err err) => .done (.error [.internal err])
    | .error (.panicked m) => .done (.ok (.error m))

def andThen (filter : Except (List Cause) α) (handler : α → Route Geometry Color) :
    Route Geometry Color :=
  match filter with
  | .ok a => handler a
  | .error es => Client.declines es

def Cause.invalid : Cause → Option Text
  | .filter (.invalidRequest _ info) => some info
  | _ => none

def Cause.failure : Cause → Option InternalError
  | .internal err => some err
  | _ => none

def InternalError.short (err : InternalError) : Text :=
  match err.reason with
  | .ObjectNotFoundError => "Unable to find object".toList
  | _ => "query error".toList

namespace Server

variable (self : Server Shape Geometry Color)

def featuresFilter (request : HttpRequest) : Except Rejection (Text × FeaturesQuery) := do
  withMethod .Get request
  let (doc_id, rest) ← pathParam (← pathSegment "features".toList (← pathPrefix request))
  pathEnd rest
  let param ← rawQuery request
  return (doc_id, ← cannotDeserialize (self.readFeatures param))

def statusFilter (request : HttpRequest) : Except Rejection Unit := do
  withMethod .Get request
  let _ ← pathSegment "status".toList (← pathPrefix request)

def metricsFilter (request : HttpRequest) : Except Rejection Unit :=
  addressed .Get "metrics".toList request

def handle : Called Geometry → Route Geometry Color
  | .reverse params => replied (fun resp => .json 200 (.geocode resp))
      (self.bragi.reverseGeocoder params self.settings self.reverse_timeout)
  | .forward params geometry => replied (fun resp => .json 200 (.geocode resp))
      (self.bragi.forwardGeocoder params geometry self.settings self.autocomplete_timeout)
  | .features doc_id params => replied (fun resp => .json 200 (.geocode resp))
      (self.bragi.features doc_id params self.features_timeout)
  | .explain params geometry => replied (fun res => .json 200 (.explanation res))
      (self.bragi.forwardGeocoderExplain params geometry self.settings)
  | .status => replied (fun resp => .json 200 (.status resp))
      (self.bragi.status self.elasticsearch_url)
  | .metrics => .done (.ok (.ok
      ⟨200, "text/plain; charset=utf-8".toList, none, .metrics self.metrics⟩))

def reverseRoute (request : HttpRequest) : Route Geometry Color :=
  andThen (filtered self.reader.reverseGeocoder request) fun params => self.handle (.reverse params)

def forwardRoute (request : HttpRequest) : Route Geometry Color :=
  andThen (orFilter (filtered self.reader.forwardGeocoderGet)
    (filtered self.reader.forwardGeocoderPost) request) fun (params, geometry) =>
      self.handle (.forward params geometry)

def featuresRoute (request : HttpRequest) : Route Geometry Color :=
  andThen (filtered self.featuresFilter request) fun (doc_id, params) =>
    self.handle (.features doc_id params)

def explainRoute (request : HttpRequest) : Route Geometry Color :=
  andThen (orFilter (filtered self.reader.forwardGeocoderExplainGet)
    (filtered self.reader.forwardGeocoderExplainPost) request) fun (params, geometry) =>
      self.handle (.explain params geometry)

def statusRoute (request : HttpRequest) : Route Geometry Color :=
  andThen (filtered statusFilter request) fun _ => self.handle .status

def metricsRoute (request : HttpRequest) : Route Geometry Color :=
  andThen (filtered metricsFilter request) fun _ => self.handle .metrics

def reportInvalid (causes : List Cause) : Reply Geometry Color :=
  if .filter .invalidQuery ∈ causes then
    .json 400 (.error ⟨"invalid query".toList, self.invalidQuery⟩)
  else match causes.findSome? Cause.invalid with
    | some info => .json 400 (.error ⟨"validation error".toList, info⟩)
    | none => match causes.findSome? Cause.failure with
        | some err => .json 400 (.error ⟨err.short, err.info⟩)
        | none =>
            if .filter .methodNotAllowed ∈ causes then
              .json 404 (.error ⟨"no route".toList, self.methodNotAllowed⟩)
            else .json 500 (.error
              ⟨"INTERNAL_SERVER_ERROR".toList, "INTERNAL_SERVER_ERROR".toList⟩)

def cacheFilter (reply : Reply Geometry Color) : Reply Geometry Color :=
  { reply with
    cache_control := some ("max-age=".toList ++ Nat.toDigits 10 self.http_cache_duration) }

def recover : Except (List Cause) (Except Text (Reply Geometry Color)) →
    Except Text (Reply Geometry Color)
  | .ok (.ok reply) => .ok (self.cacheFilter reply)
  | .ok (.error m) => .error m
  | .error causes => .ok (self.cacheFilter (self.reportInvalid causes))

-- The reverse geocoder comes first because it is the most likely to be asked.
def api (request : HttpRequest) :
    Client (ReadRequest Float) (ReadResponse Float) (Except Text (Reply Geometry Color)) :=
  (Client.firstOf [self.reverseRoute request, self.forwardRoute request, self.featuresRoute request,
    self.explainRoute request, self.statusRoute request, self.metricsRoute request]).bind
      fun x => .done (self.recover x)

end Server

end Mimirsbrunn.Places
