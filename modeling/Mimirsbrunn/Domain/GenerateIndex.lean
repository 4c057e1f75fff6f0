import Mimirsbrunn.Elasticsearch.Storage

namespace Mimirsbrunn
open Regex

inductive ModelError where
  | indexCreation (source : StorageError)
  | documentStreamInsertion (source : StorageError)
  | documentStreamUpdate (source : StorageError)
  | indexPublication (source : StorageError)
  | expectedIndex (index : Text)
  deriving DecidableEq, Repr

structure ContainerGenerator where
  storage : ElasticsearchStorageConfig
  config : ContainerConfig
  index : Index
  deriving DecidableEq, Repr

variable {D : Type}

def initContainer (storage : ElasticsearchStorageConfig) (config : ContainerConfig)
    (now : DateTime) : Es D ModelError ContainerGenerator := do
  let index ← .mapErr .indexCreation (Storage.createContainer config now)
  return ⟨storage, config, index⟩

namespace ContainerGenerator

def insertDocuments [Document D] (self : ContainerGenerator) (documents : List D) :
    Es D ModelError ContainerGenerator := do
  let _stats ← .mapErr .documentStreamInsertion
    (Storage.insertDocuments self.storage self.index.name documents)
  return self

def updateDocuments (self : ContainerGenerator) (updates : List (Text × UpdateOperation)) :
    Es D ModelError ContainerGenerator := do
  let _stats ← .mapErr .documentStreamUpdate
    (Storage.updateDocuments self.storage self.index.name updates)
  return self

def publish (self : ContainerGenerator) : Es D ModelError Index := do
  .mapErr .indexPublication
    (Storage.publishIndex self.storage self.index self.config.visibility)
  match ← Es.mapErr .documentStreamInsertion (Storage.findContainer self.index.name) with
  | some index => return index
  | none => throw (.err (.expectedIndex self.index.name))

end ContainerGenerator

def generateIndex [Document D] (storage : ElasticsearchStorageConfig) (config : ContainerConfig)
    (now : DateTime) (documents : List D) : Es D ModelError Index := do
  let generator ← initContainer storage config now
  let generator ← generator.insertDocuments documents
  generator.publish

end Mimirsbrunn
