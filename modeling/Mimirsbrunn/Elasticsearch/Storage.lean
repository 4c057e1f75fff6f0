import Mimirsbrunn.Elasticsearch.Internal

namespace Mimirsbrunn
open Regex Internal

inductive StorageError where
  | containerCreationError (source : Error)
  | containerDeletionError (source : Error)
  | containerSearchError (source : Error)
  | documentInsertionError (source : Error)
  | documentUpdateError (source : Error)
  | indexPublicationError (source : Error)
  | forceMergeError (source : Error)
  deriving DecidableEq, Repr

namespace Storage

variable {D : Type}

def createContainer (config : ContainerConfig) (now : DateTime) : Es D StorageError Index :=
  let index_name := rootDoctypeDatasetTs config.name config.dataset now
  .mapErr .containerCreationError (do
    createIndex index_name config.number_of_shards config.number_of_replicas
    match ← findIndex index_name with
    | some index => pure index
    | none => throw (.err (.elasticsearchUnknownIndex index_name)))

def deleteContainer (index : Text) : Es D StorageError Unit :=
  .mapErr .containerDeletionError (deleteIndex index)

def findContainer (index : Text) : Es D StorageError (Option Index) :=
  .mapErr .containerSearchError (findIndex index)

def insertDocuments [Document D] (storage : ElasticsearchStorageConfig) (index : Text)
    (documents : List D) : Es D StorageError InsertStats := do
  .mapErr .documentInsertionError (addPipeline "indexed_at".toList)
  .mapErr .documentInsertionError (insertDocumentsInIndex storage index documents)

def updateDocuments (storage : ElasticsearchStorageConfig) (index : Text)
    (operations : List (Text × UpdateOperation)) : Es D StorageError InsertStats :=
  .mapErr .documentUpdateError (updateDocumentsInIndex storage index operations)

def publishIndex (storage : ElasticsearchStorageConfig) (index : Index)
    (visibility : ContainerVisibility) : Es D StorageError Unit := do
  .mapErr .indexPublicationError (refreshIndex index.name)
  let previous_indices ← .mapErr .indexPublicationError (getPreviousIndices index)
  let doctype_dataset_alias := rootDoctypeDataset index.doc_type index.dataset
  .mapErr .indexPublicationError
    (updateAlias doctype_dataset_alias [index.name] previous_indices)
  if visibility = .Public then
    let doctype_alias := rootDoctype index.doc_type
    .mapErr .indexPublicationError (updateAlias doctype_alias [index.name] previous_indices)
    let root_alias := root
    .mapErr .indexPublicationError (updateAlias root_alias [index.name] previous_indices)
  previous_indices.forM deleteContainer
  if storage.force_merge.enabled then
    .mapErr .forceMergeError (forceMerge [index.name] storage.force_merge.max_number_segments)

end Storage

end Mimirsbrunn
