import Mathlib.Control.Basic
import Mimirsbrunn.Domain.Configuration
import Mimirsbrunn.Elasticsearch.Store
import Mimirsbrunn.Library.Chunks

namespace Mimirsbrunn
open Regex Std

structure ForceMergeConfig where
  enabled : Bool
  max_number_segments : Int
  deriving DecidableEq, Repr

structure ElasticsearchStorageConfig where
  scroll_chunk_size : Nat
  scroll_pit_alive : Text
  insertion_concurrent_requests : Nat
  insertion_chunk_size : Nat
  force_merge : ForceMergeConfig
  deriving DecidableEq, Repr

inductive IndexStatus where
  | Available
  | NotAvailable
  deriving DecidableEq, Repr

structure Index where
  name : Text
  dataset : Text
  doc_type : Text
  docs_count : Nat
  status : IndexStatus
  deriving DecidableEq, Repr

structure InsertStats where
  created : Nat
  updated : Nat
  deriving DecidableEq, Repr

def InsertStats.default : InsertStats := ⟨0, 0⟩

def InsertStats.add (l r : InsertStats) : InsertStats :=
  ⟨l.created + r.created, l.updated + r.updated⟩

namespace Internal

inductive Error where
  | elasticsearchClient (details : Text)
  | notCreated (details : Text)
  | notDeleted (details : Text)
  | notAcknowledged (details : Text)
  | failed (details : Text)
  | elasticsearchFailureWithoutException
  | elasticsearchUnhandledException (details : Text)
  | elasticsearchDuplicateIndex (index : Text)
  | elasticsearchFailedToParse
  | elasticsearchInvalidMapping (object reason : Text)
  | elasticsearchUnknownIndex (index : Text)
  | elasticsearchUnknownSetting (setting : Text)
  | indexConversion (details : Text)
  | elasticsearchDeserialization
  | jsonDeserialization (details : Text)
  | jsonInvalid (details : Text)
  | elasticsearchResponseMissingPIT
  deriving DecidableEq, Repr

def Error.display : Error → Text
  | .elasticsearchClient details => "Elasticsearch Error: [".toList ++ details ++ "]".toList
  | .notCreated details => "Elasticsearch Response: Not Created: ".toList ++ details
  | .notDeleted details => "Elasticsearch Response: Not Deleted: ".toList ++ details
  | .notAcknowledged details => "Elasticsearch Response: Not Acknowledged: ".toList ++ details
  | .failed details => "Elasticsearch Response: Failed: ".toList ++ details
  | .elasticsearchFailureWithoutException => "Elasticsearch Failure without Exception".toList
  | .elasticsearchUnhandledException details =>
      "Elasticsearch Unhandled Exception: ".toList ++ details
  | .elasticsearchDuplicateIndex index => "Elasticsearch Duplicate Index: ".toList ++ index
  | .elasticsearchFailedToParse => "Elasticsearch Failed to Parse".toList
  | .elasticsearchInvalidMapping object reason =>
      "Elasticsearch Failed to Parse Mapping of ".toList ++ object ++ ": ".toList ++ reason
  | .elasticsearchUnknownIndex index => "Elasticsearch Unknown Index: ".toList ++ index
  | .elasticsearchUnknownSetting setting => "Elasticsearch Unknown Setting: ".toList ++ setting
  | .indexConversion details => "Index Conversion Error: ".toList ++ details
  | .elasticsearchDeserialization => "JSON Elasticsearch Deserialization Error: ".toList
  | .jsonDeserialization details => "JSON Serde Deserialization Error: ".toList ++ details
  | .jsonInvalid details => "JSON Deserialization Invalid: ".toList ++ details
  | .elasticsearchResponseMissingPIT => "Elasticsearch Response is Missing a PIT".toList

def notBracket (c : Char) : Bool := c != ']' && c != '/'

def notNewline (c : Char) : Bool := c != '\n'

-- before \[([^\]/]+).*\] after
def bracketed (before after : Text) : Rx :=
  .seq (.literal (before ++ ['['])) (.seq (.group (.many1 notBracket))
    (.seq (.many notNewline) (.literal (']' :: after))))

def alreadyExists : Rx := bracketed "index ".toList " already exists".toList

def notFound : Rx := bracketed "no such index ".toList []

def failedParse : Rx := .literal "failed to parse".toList

def failedParseMapping : Rx :=
  .seq (bracketed "Failed to parse mapping ".toList ": ".toList) (.group (.many notNewline))

def unknownSetting : Rx := bracketed "unknown setting ".toList []

def Error.ofReason (reason : Text) : Error :=
  match alreadyExists.captures reason with
  | some ⟨_, index :: _, _⟩ => .elasticsearchDuplicateIndex index
  | _ => match notFound.captures reason with
  | some ⟨_, index :: _, _⟩ => .elasticsearchUnknownIndex index
  | _ => match failedParseMapping.captures reason with
  | some ⟨_, object :: reason :: _, _⟩ => .elasticsearchInvalidMapping object reason
  | _ => if (failedParse.captures reason).isSome then .elasticsearchFailedToParse
    else match unknownSetting.captures reason with
    | some ⟨_, setting :: _, _⟩ => .elasticsearchUnknownSetting setting
    | _ => .elasticsearchUnhandledException ("Unidentified reason: ".toList ++ reason)

def Error.ofException (exception : Exception) : Error :=
  match exception.root_cause with
  | [] =>
      match exception.reason with
      | some reason => .elasticsearchUnhandledException reason
      | none => .elasticsearchUnhandledException "Unspecified root cause or reason".toList
  | some reason :: _ => .ofReason reason
  | none :: _ => .elasticsearchUnhandledException "Unspecified reason".toList

def Error.ofOption : Option Exception → Error
  | some exception => .ofException exception
  | none => .elasticsearchFailureWithoutException

end Internal

inductive Failure (ε : Type) where
  | err (e : ε)
  | panicked (message : Text)
  deriving DecidableEq, Repr

abbrev Es (D ε α : Type) := ExceptT (Failure ε) (Client (Request D) Response) α

namespace Es

variable {D ε ε' α : Type}

def ofReply (r : Request D) (reply : Response → Except (Failure ε) α) : Es D ε α :=
  ExceptT.mk ((Client.send r).bind (fun x => .done (reply x)))

def mapFailure (f : ε → ε') : Except (Failure ε) α → Except (Failure ε') α
  | .ok a => .ok a
  | .error (.err e) => .error (.err (f e))
  | .error (.panicked m) => .error (.panicked m)

def mapErr (f : ε → ε') (x : Es D ε α) : Es D ε' α :=
  ExceptT.mk (x.run.bind (fun r => .done (mapFailure f r)))

end Es

namespace Internal

variable {D : Type}

abbrev Reply (α : Type) := Response → Except (Failure Error) α

def fail {α : Type} (e : Error) : Except (Failure Error) α := .error (.err e)

def unreadException : Text := "failed to fetch Elasticsearch exception".toList

def unwrapNone : Text := "called `Option::unwrap()` on a `None` value".toList

def rejection {α : Type} (unread : Text) : Option (Option Exception) → Except (Failure Error) α
  | some exception => fail (.ofOption exception)
  | none => .error (.panicked unread)

def Response.acknowledgement : Response → Acknowledgement
  | .acknowledged a => a
  | _ => .missing

def acknowledgedReply (unread : Text) (client notBool notAcknowledged : Error) : Reply Unit
  | .transport => fail client
  | .rejected exception => rejection unread exception
  | .unparsable => fail .elasticsearchDeserialization
  | x =>
      match Response.acknowledgement x with
      | .notObject => fail (.jsonInvalid "expected JSON object".toList)
      | .missing => fail (.jsonInvalid "expected 'acknowledged'".toList)
      | .notBool => fail notBool
      | .value true => .ok ()
      | .value false => fail notAcknowledged

def createIndexReply (index_name : Text) : Reply Unit :=
  acknowledgedReply unwrapNone
    (.elasticsearchClient ("cannot create index '".toList ++ index_name ++ "'".toList))
    (.jsonInvalid "expected JSON bool".toList)
    (.notCreated ("index creation ".toList ++ index_name))

def createIndex (index_name : Text) (number_of_shards number_of_replicas : Nat) : Es D Error Unit :=
  .ofReply (.createIndex index_name number_of_shards number_of_replicas)
    (createIndexReply index_name)

def deleteIndexReply (index : Text) : Reply Unit :=
  acknowledgedReply unwrapNone
    (.elasticsearchClient ("cannot find index '".toList ++ index ++ "'".toList))
    (.jsonInvalid "expected JSON bool".toList)
    (.notDeleted "Elasticsearch response to index deletion not acknowledged".toList)

def deleteIndex (index : Text) : Es D Error Unit :=
  .ofReply (.deleteIndex index) (deleteIndexReply index)

def addPipelineReply (name : Text) : Reply Unit :=
  acknowledgedReply unreadException
    (.elasticsearchClient ("cannot add pipeline '".toList ++ name ++ "'".toList))
    (.jsonInvalid "expected JSON boolean".toList)
    (.notAcknowledged ("pipeline ".toList ++ name ++ " creation".toList))

def addPipeline (name : Text) : Es D Error Unit :=
  .ofReply (.putPipeline name) (addPipelineReply name)

def IndexStatus.ofText : Text → IndexStatus := fun _ => .Available

def Index.tryFrom (index : ElasticsearchIndex) : Except (Failure Error) Index :=
  match splitIndexName index.name with
  | .error (.invalidName details) =>
      fail (.indexConversion
        ("could not convert elasticsearch index into model index: Invalid Name: ".toList ++ details))
  | .ok (doc_type, dataset) =>
      match index.docs_count with
      | some count =>
          if count < 2 ^ 32 then
            .ok ⟨index.name, dataset, doc_type, count, IndexStatus.ofText index.status⟩
          else .error (.panicked "docs count".toList)
      | none => .ok ⟨index.name, dataset, doc_type, 0, IndexStatus.ofText index.status⟩

def findIndexReply (index : Text) : Reply (Option Index)
  | .transport => fail (.elasticsearchClient ("cannot find index '".toList ++ index ++ "'".toList))
  | .rejected (some (some exception)) =>
      match Error.ofException exception with
      | .elasticsearchUnknownIndex _ => .ok none
      | e => fail e
  | .rejected exception => rejection unwrapNone exception
  | .cat rows =>
      match rows.getLast? with
      | some row => (Index.tryFrom row).map some
      | none => .ok none
  | .unparsable => fail .elasticsearchDeserialization
  | _ => fail (.jsonDeserialization "could not deserialize Elasticsearch indices".toList)

def findIndex (index : Text) : Es D Error (Option Index) :=
  .ofReply (.catIndices index) (findIndexReply index)

def countItem (stats : InsertStats) (item : BulkStatus) : Except (Failure Error) InsertStats :=
  match item.result with
  | .error err =>
      fail (.notCreated ("Object id ".toList ++ item.id ++ ", Error: ".toList ++ err.reason ++
        ", ".toList ++ err.caused_by.getD []))
  | .ok .Created => .ok { stats with created := stats.created + 1 }
  | .ok .Updated => .ok { stats with updated := stats.updated + 1 }
  | .ok .Deleted =>
      .error (.panicked
        "internal error: entered unreachable code: no port implements document deletion".toList)

def bulkBlockReply : Reply InsertStats
  | .transport | .rejected _ => fail (.elasticsearchClient "cannot bulk insert".toList)
  | .items items => items.foldlM countItem .default
  | _ => fail .elasticsearchDeserialization

-- The task of one chunk is joined with expect, its error with panic!.
def joinBlock (x : Response) : Except (Failure Error) InsertStats :=
  match bulkBlockReply x with
  | .ok stats => .ok stats
  | .error (.err e) => .error (.panicked ("Error inserting chunk: ".toList ++ e.display))
  | .error (.panicked _) => .error (.panicked "tokio task panicked".toList)

def foldStats (xs : List Response) : Except (Failure Error) InsertStats :=
  xs.foldlM (fun acc x => (joinBlock x).map acc.add) .default

def bulk (config : ElasticsearchStorageConfig) (index : Text) (documents : List (BulkOperation D)) :
    Es D Error InsertStats :=
  if config.insertion_chunk_size = 0 then
    ExceptT.mk (.done (.error (.panicked "assertion failed: capacity > 0".toList)))
  else
    ExceptT.mk ((Client.bufferUnordered config.insertion_concurrent_requests
      (fun x => (joinBlock x).toBool)
      ((Chunks.chunks config.insertion_chunk_size documents).map (Request.bulk index))).bind
        (fun xs => .done (foldStats xs)))

def insertDocumentsInIndex [Document D] (config : ElasticsearchStorageConfig) (index : Text)
    (documents : List D) : Es D Error InsertStats :=
  bulk config index (documents.map (fun doc => .index (Document.id doc) doc))

def updateDocumentsInIndex (config : ElasticsearchStorageConfig) (index : Text)
    (updates : List (Text × UpdateOperation)) : Es D Error InsertStats :=
  bulk config index (updates.map (fun u => .update u.1 u.2))

def updateAliasReply (aliasName : Text) : Reply Unit
  | .transport | .rejected _ =>
      fail (.elasticsearchClient ("cannot update alias '".toList ++ aliasName ++ "'".toList))
  | .unparsable => fail .elasticsearchDeserialization
  | .acknowledged (.value true) => .ok ()
  | _ => fail (.notAcknowledged ("cannot update alias '".toList ++ aliasName ++ "'".toList))

def aliasActions (aliasName : Text) (indices_to_add indices_to_remove : List Text) :
    List AliasAction :=
  (if indices_to_add.isEmpty then [] else [.add aliasName indices_to_add]) ++
  (if indices_to_remove.isEmpty then [] else [.remove aliasName indices_to_remove])

def updateAlias (aliasName : Text) (indices_to_add indices_to_remove : List Text) : Es D Error Unit :=
  let actions := aliasActions aliasName indices_to_add indices_to_remove
  if actions.isEmpty then pure ()
  else .ofReply (.updateAliases actions) (updateAliasReply aliasName)

def aliasPattern (index : Text) : Text := index ++ "_*".toList

def findAliasesReply (index : Text) : Reply (TreeMap Text (List Text))
  | .transport => fail (.elasticsearchClient ("cannot find aliases to ".toList ++ index))
  | .rejected exception => rejection unreadException exception
  | .aliases (some rows) =>
      .ok (TreeMap.ofList (rows.filterMap (fun row => row.2.map (fun aliases => (row.1, aliases)))))
  | .aliases none => .ok ∅
  | _ => fail .elasticsearchDeserialization

def findAliases (index : Text) : Es D Error (TreeMap Text (List Text)) :=
  .ofReply (.getAlias (aliasPattern index)) (findAliasesReply (aliasPattern index))

def getPreviousIndices (index : Index) : Es D Error (List Text) := do
  let base_index := rootDoctypeDataset index.doc_type index.dataset
  let aliases ← findAliases base_index
  return (aliases.toList.map Prod.fst).filter (· ≠ index.name)

def refreshIndexReply (index : Text) : Reply Unit
  | .transport => fail (.elasticsearchClient ("cannot refresh index ".toList ++ index))
  | .rejected exception => rejection unreadException exception
  | _ => .ok ()

def refreshIndex (index : Text) : Es D Error Unit :=
  .ofReply (.refresh index) (refreshIndexReply index)

def forceMergeReply (indices : List Text) : Reply Unit
  | .transport | .rejected _ => fail (.elasticsearchClient
      ("cannot force merge indices '".toList ++ List.intercalate ", ".toList indices ++ "'".toList))
  | .unparsable => fail .elasticsearchDeserialization
  | .shards (some 1) => .ok ()
  | _ => fail (.failed
      ("cannot force merge '".toList ++ List.intercalate ", ".toList indices ++ "'".toList))

def forceMerge (indices : List Text) (max_num_segments : Int) : Es D Error Unit :=
  .ofReply (.forcemerge indices max_num_segments) (forceMergeReply indices)

end Internal

end Mimirsbrunn
