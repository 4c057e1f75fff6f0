import Mimirsbrunn.Elasticsearch.Listing
import Mimirsbrunn.Library.Json

namespace Mimirsbrunn
open Regex Internal

-- A timeout is a number of nanoseconds; the greatest one is a second short of 2 ^ 64 seconds.
def durationMax : Nat := 2 ^ 64 * 1000000000 - 1

def saturatingAdd (a b : Nat) : Nat := min (a + b) durationMax

def asMillis (duration : Nat) : Nat := duration / 1000000

inductive ModelQuery (F : Type) where
  | QueryString (q : Text)
  | QueryDSL (json : Json F)

inductive ReadRequest (F : Type) where
  | search (indices : List Text) (query : ModelQuery F) (track_total_hits : Bool) (size : Int)
      (timeout : Text) (request_timeout : Nat)
  | mget (body : Json F) (request_timeout : Nat)
  | explain (index id : Text) (query : ModelQuery F) (request_timeout : Nat)
  | clusterHealth (request_timeout : Nat)
  | catNodes (columns : List Text) (format : Text) (request_timeout : Nat)

inductive ReadResponse (F : Type) where
  | transport
  | rejected (exception : Option (Option Exception))
  | unparsable
  | found (body : ElasticsearchSearchResponse (Json F))
  | docs (sources : List (Option (Json F)))
  | value (json : Json F)

inductive ReadError where
  | storage (source : Internal.Error)
  | internal (reason : Text)
  | elasticsearchUnhandledStatus (details : Text)
  deriving DecidableEq, Repr

def ReadError.display : ReadError → Text
  | .storage source => source.display
  | .internal reason => "Internal Error: ".toList ++ reason
  | .elasticsearchUnhandledStatus details =>
      "Elasticsearch Unhandled Status: ".toList ++ details

inductive StorageHealth where
  | OK
  | FAIL
  deriving DecidableEq, Repr

def StorageHealth.display : StorageHealth → Text
  | .OK => "ok".toList
  | .FAIL => "fail".toList

structure StorageStatus where
  health : StorageHealth
  version : Text
  deriving DecidableEq, Repr

inductive StatusError where
  | healthRetrievalError (source : ReadError)
  | versionRetrievalError (source : ReadError)
  deriving DecidableEq, Repr

abbrev ReadReply (F α : Type) := ReadResponse F → Except (Failure ReadError) α

abbrev Reading (F ε α : Type) :=
  ExceptT (Failure ε) (Client (ReadRequest F) (ReadResponse F)) α

namespace Reading

variable {F ε ε' α : Type}

def ofReply (r : ReadRequest F) (reply : ReadResponse F → Except (Failure ε) α) :
    Reading F ε α :=
  ExceptT.mk (.call r (fun x => .done (reply x)))

def mapErr (f : ε → ε') (x : Reading F ε α) : Reading F ε' α :=
  ExceptT.mk (x.run.bind (fun r => .done (Es.mapFailure f r)))

end Reading

namespace Internal

variable {F : Type}

def failRead {α : Type} (e : Internal.Error) : Except (Failure ReadError) α :=
  .error (.err (.storage e))

def readReply {α : Type} (client : Internal.Error)
    (read : ReadResponse F → Except (Failure ReadError) α) : ReadReply F α
  | .transport => failRead client
  | .rejected (some exception) => failRead (.ofOption exception)
  | .rejected none => .error (.panicked unreadException)
  | .unparsable => failRead .elasticsearchDeserialization
  | x => read x

def cappedTimeout (config_timeout : Nat) (timeout : Option Nat) : Nat :=
  (timeout.map (fun t => if config_timeout < t then config_timeout else t)).getD config_timeout

def searchRequest (config_timeout : Nat) (indices : List Text) (query : ModelQuery F)
    (limit_result : Int) (timeout : Option Nat) : ReadRequest F :=
  let timeout := cappedTimeout config_timeout timeout
  .search indices query false limit_result
    ((Nat.toDigits 10 (asMillis timeout)) ++ "ms".toList) (saturatingAdd timeout timeout)

def searchDocumentsReply (indices : List Text) : ReadReply F (List (Json F)) :=
  readReply
    (.elasticsearchClient
      ("could not search indices ".toList ++ List.intercalate ", ".toList indices))
    (fun
      | .found body => .ok body.intoHits
      | _ => failRead .elasticsearchDeserialization)

def searchDocuments (config_timeout : Nat) (indices : List Text) (query : ModelQuery F)
    (limit_result : Int) (timeout : Option Nat) : Reading F ReadError (List (Json F)) :=
  .ofReply (searchRequest config_timeout indices query limit_result timeout)
    (searchDocumentsReply indices)

def getDocumentsReply : ReadReply F (List (Json F)) :=
  readReply (.elasticsearchClient "could not get document by id".toList)
    (fun
      | .docs sources => .ok sources.reduceOption
      | _ => failRead .elasticsearchDeserialization)

def getDocumentsById (config_timeout : Nat) (query : ModelQuery F) (timeout : Option Nat) :
    Reading F ReadError (List (Json F)) :=
  match query with
  | .QueryString _ =>
      throw (.err (.internal "QueryString not handled for get document by id".toList))
  | .QueryDSL json => .ofReply (.mget json (cappedTimeout config_timeout timeout)) getDocumentsReply

def explanationOf (json : Json F) : Except (Failure ReadError) (Json F) :=
  match json with
  | .obj fields =>
      match fields.lookup "explanation" with
      | some explanation => .ok explanation
      | none => failRead (.jsonInvalid "expected 'hits'".toList)
  | _ => failRead (.jsonInvalid "expected JSON object".toList)

def explainSearchReply (index id : Text) : ReadReply F (Json F) :=
  readReply
    (.elasticsearchClient
      ("could not explain document ".toList ++ id ++ " in index ".toList ++ index))
    (fun
      | .value json => explanationOf json
      | _ => failRead .elasticsearchDeserialization)

def explainSearch (config_timeout : Nat) (index : Text) (query : ModelQuery F) (id : Text) :
    Reading F ReadError (Json F) :=
  .ofReply (.explain index id query config_timeout) (explainSearchReply index id)

def StorageHealth.tryFrom (value : Text) : Except (Failure ReadError) StorageHealth :=
  if value = "green".toList ∨ value = "yellow".toList then .ok .OK
  else if value = "red".toList then .ok .FAIL
  else .error (.err (.elasticsearchUnhandledStatus value))

def healthOf (json : Json F) : Except (Failure ReadError) StorageHealth :=
  match json with
  | .obj fields =>
      match fields.lookup "status" with
      | some (.str health) => StorageHealth.tryFrom health
      | some _ => failRead (.jsonInvalid "expected JSON string".toList)
      | none => failRead (.jsonInvalid "expected 'status'".toList)
  | _ => failRead (.jsonInvalid "expected JSON object".toList)

def clusterHealthReply : ReadReply F StorageHealth :=
  readReply (.elasticsearchClient "cannot query cluster health".toList)
    (fun
      | .value json => healthOf json
      | _ => failRead .elasticsearchDeserialization)

def clusterHealth (config_timeout : Nat) : Reading F ReadError StorageHealth :=
  .ofReply (.clusterHealth config_timeout) clusterHealthReply

def versionOf (json : Json F) : Except (Failure ReadError) Text :=
  match json with
  | .arr (node :: _) =>
      match node.get? "v" with
      | some (.str version) => .ok version
      | some _ => failRead (.jsonInvalid "expected JSON string".toList)
      | none => failRead (.jsonInvalid "expected 'v' (version)".toList)
  | .arr [] => failRead (.jsonInvalid "empty list of node information".toList)
  | _ => failRead (.jsonInvalid "expected JSON array".toList)

def clusterVersionReply : ReadReply F Text :=
  readReply (.elasticsearchClient "cannot query cluster health".toList)
    (fun
      | .value json => versionOf json
      | _ => failRead .elasticsearchDeserialization)

def clusterVersion (config_timeout : Nat) : Reading F ReadError Text :=
  .ofReply (.catNodes ["v".toList] "json".toList config_timeout) clusterVersionReply

end Internal

def storageStatus {F : Type} (config_timeout : Nat) : Reading F StatusError StorageStatus := do
  let health ← .mapErr .healthRetrievalError (clusterHealth config_timeout)
  let version ← .mapErr .versionRetrievalError (clusterVersion config_timeout)
  return { health, version }

end Mimirsbrunn
