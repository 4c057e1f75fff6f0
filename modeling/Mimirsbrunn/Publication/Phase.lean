import Mimirsbrunn.Domain.GenerateIndex

namespace Mimirsbrunn
open Regex Internal

structure Import (D : Type) where
  storage : ElasticsearchStorageConfig
  config : ContainerConfig
  now : DateTime
  documents : List D

inductive Phase (D : Type) where
  | creating
  | finding
  | piping (index : Index)
  | filling (index : Index) (pending : List (Request D)) (answers : List Response)
  | refreshing (index : Index)
  | listing (index : Index)
  | moving (index : Index) (previous : List Text) (a : Text) (todo : List Text)
  | deleting (index : Index) (n : Text) (todo : List Text)
  | merging (index : Index)
  | locating (index : Index)
  | ended (result : Except (Failure ModelError) Index)

namespace Import

variable {D : Type}

def indexName (i : Import D) : Text := rootDoctypeDatasetTs i.config.name i.config.dataset i.now

def plan (i : Import D) (index : Index) : List Text :=
  rootDoctypeDataset index.doc_type index.dataset ::
    if i.config.visibility = .Public then [rootDoctype index.doc_type, root] else []

def generator (i : Import D) (index : Index) : ContainerGenerator := ⟨i.storage, i.config, index⟩

def locate (index : Index) : Es D ModelError Index := do
  match ← Es.mapErr .documentStreamInsertion (Storage.findContainer index.name) with
  | some index => return index
  | none => throw (.err (.expectedIndex index.name))

def merge (i : Import D) (index : Index) : Es D StorageError Unit :=
  if i.storage.force_merge.enabled then
    .mapErr .forceMergeError (forceMerge [index.name] i.storage.force_merge.max_number_segments)
  else pure ()

def drop (i : Import D) (index : Index) (todo : List Text) : Es D StorageError Unit := do
  todo.forM Storage.deleteContainer
  i.merge index

def move (i : Import D) (index : Index) (previous : List Text) :
    List Text → Es D StorageError Unit
  | [] => i.drop index previous
  | a :: todo => do
      .mapErr .indexPublicationError (updateAlias a [index.name] previous)
      i.move index previous todo

def list (i : Import D) (index : Index) : Es D StorageError Unit := do
  let previous ← .mapErr .indexPublicationError (getPreviousIndices index)
  i.move index previous (i.plan index)

theorem publishIndex_eq (i : Import D) (index : Index) :
    (Storage.publishIndex i.storage index i.config.visibility : Es D StorageError Unit) = (do
      .mapErr .indexPublicationError (refreshIndex index.name)
      i.list index) := by
  simp only [Storage.publishIndex, list, plan, move]
  cases i.config.visibility <;> rfl

def publishing (index : Index) (x : Es D StorageError Unit) : Es D ModelError Index := do
  .mapErr .indexPublication x
  locate index

def stop (wrap : Error → ModelError) : Failure Error → Phase D
  | .err e => .ended (.error (.err (wrap e)))
  | .panicked m => .ended (.error (.panicked m))

def startMerging (i : Import D) (index : Index) : Phase D :=
  if i.storage.force_merge.enabled then .merging index else .locating index

def startDeleting (i : Import D) (index : Index) : List Text → Phase D
  | [] => i.startMerging index
  | n :: todo => .deleting index n todo

def startMoving (i : Import D) (index : Index) (previous : List Text) : List Text → Phase D
  | [] => i.startDeleting index previous
  | a :: todo => .moving index previous a todo

def resumeFilling (index : Index) (good : Bool) (pending : List (Request D))
    (answers : List Response) : Phase D :=
  if good && !pending.isEmpty then .filling index pending answers
  else match foldStats answers with
    | .ok _ => .refreshing index
    | .error e => stop (.documentStreamInsertion ∘ .documentInsertionError) e

variable [Document D]

def run (i : Import D) : Es D ModelError Index :=
  generateIndex i.storage i.config i.now i.documents

def chunkRequests (i : Import D) (index : Index) : List (Request D) :=
  (Chunks.chunks i.storage.insertion_chunk_size (i.documents.map
    (fun doc => .index (Document.id doc) doc))).map (Request.bulk index.name)

def startFilling (i : Import D) (index : Index) : Phase D :=
  if i.storage.insertion_chunk_size = 0 then
    .ended (.error (.panicked "assertion failed: capacity > 0".toList))
  else resumeFilling index true (i.chunkRequests index) []

def filled (i : Import D) (index : Index) (answers : List Response) : Es D ModelError Index := do
  let g ← (do
    let _stats ← .mapErr .documentStreamInsertion (.mapErr .documentInsertionError
      (ExceptT.mk (.done (foldStats answers))))
    return i.generator index)
  g.publish

end Import

namespace Phase

variable {D : Type} [Document D]
open Import

def client (i : Import D) : Phase D → Es D ModelError Index
  | .creating => i.run
  | .finding => do
      let g ← (do
        let index ← .mapErr .indexCreation (.mapErr .containerCreationError (do
          match ← findIndex i.indexName with
          | some index => pure index
          | none => throw (.err (.elasticsearchUnknownIndex i.indexName))))
        return i.generator index)
      let g ← g.insertDocuments i.documents
      g.publish
  | .piping index => do
      let g ← (i.generator index).insertDocuments i.documents
      g.publish
  | .filling index pending answers =>
      .fan i.storage.insertion_concurrent_requests (fun x => (joinBlock x).toBool) pending answers
        (i.filled index)
  | .refreshing index => (i.generator index).publish
  | .listing index => publishing index (i.list index)
  | .moving index previous a todo => publishing index (i.move index previous (a :: todo))
  | .deleting index n todo => publishing index (i.drop index (n :: todo))
  | .merging index => publishing index
      (.mapErr .forceMergeError (forceMerge [index.name] i.storage.force_merge.max_number_segments))
  | .locating index => locate index
  | .ended result => Client.done result

def request (i : Import D) : Phase D → Option (Request D)
  | .creating => some (.createIndex i.indexName i.config.number_of_shards i.config.number_of_replicas)
  | .finding => some (.catIndices i.indexName)
  | .piping _ => some (.putPipeline "indexed_at".toList)
  | .filling .. => none
  | .refreshing index => some (.refresh index.name)
  | .listing index => some (.getAlias (aliasPattern (rootDoctypeDataset index.doc_type index.dataset)))
  | .moving index previous a _ => some (.updateAliases (aliasActions a [index.name] previous))
  | .deleting _ n _ => some (.deleteIndex n)
  | .merging index => some (.forcemerge [index.name] i.storage.force_merge.max_number_segments)
  | .locating index => some (.catIndices index.name)
  | .ended _ => none

def previousOf (index : Index) (found : Std.TreeMap Text (List Text)) : List Text :=
  (found.toList.map Prod.fst).filter (· ≠ index.name)

omit [Document D] in
theorem mem_previousOf {index : Index} {found : Std.TreeMap Text (List Text)} {m : Text} :
    m ∈ previousOf index found ↔ m ∈ found ∧ m ≠ index.name := by
  simp [previousOf, Std.TreeMap.map_fst_toList_eq_keys, Std.TreeMap.mem_keys]

omit [Document D] in
theorem nodup_previousOf (index : Index) (found : Std.TreeMap Text (List Text)) :
    (previousOf index found).Nodup := by
  rw [previousOf, Std.TreeMap.map_fst_toList_eq_keys]
  exact Std.TreeMap.nodup_keys.filter _

def next (i : Import D) (x : Response) : Phase D → Phase D
  | .creating =>
      match createIndexReply i.indexName x with
      | .ok () => .finding
      | .error e => stop (.indexCreation ∘ .containerCreationError) e
  | .finding =>
      match findIndexReply i.indexName x with
      | .ok (some index) => .piping index
      | .ok none => stop (.indexCreation ∘ .containerCreationError)
          (.err (.elasticsearchUnknownIndex i.indexName))
      | .error e => stop (.indexCreation ∘ .containerCreationError) e
  | .piping index =>
      match addPipelineReply "indexed_at".toList x with
      | .ok () => i.startFilling index
      | .error e => stop (.documentStreamInsertion ∘ .documentInsertionError) e
  | .refreshing index =>
      match refreshIndexReply index.name x with
      | .ok () => .listing index
      | .error e => stop (.indexPublication ∘ .indexPublicationError) e
  | .listing index =>
      match findAliasesReply (aliasPattern (rootDoctypeDataset index.doc_type index.dataset)) x with
      | .ok found => i.startMoving index (previousOf index found) (i.plan index)
      | .error e => stop (.indexPublication ∘ .indexPublicationError) e
  | .moving index previous a todo =>
      match updateAliasReply a x with
      | .ok () => i.startMoving index previous todo
      | .error e => stop (.indexPublication ∘ .indexPublicationError) e
  | .deleting index n todo =>
      match deleteIndexReply n x with
      | .ok () => i.startDeleting index todo
      | .error e => stop (.indexPublication ∘ .containerDeletionError) e
  | .merging index =>
      match forceMergeReply [index.name] x with
      | .ok () => .locating index
      | .error e => stop (.indexPublication ∘ .forceMergeError) e
  | .locating index =>
      match findIndexReply index.name x with
      | .ok (some index) => .ended (.ok index)
      | .ok none => .ended (.error (.err (.expectedIndex index.name)))
      | .error e => stop (.documentStreamInsertion ∘ .containerSearchError) e
  | ph => ph

theorem startMerging_client (i : Import D) (index : Index) :
    (i.startMerging index).client i = publishing index (i.merge index) := by
  simp only [startMerging, merge]
  split <;> rfl

theorem startDeleting_client (i : Import D) (index : Index) (todo : List Text) :
    (i.startDeleting index todo).client i = publishing index (i.drop index todo) := by
  cases todo with
  | nil => exact startMerging_client i index
  | cons n todo => rfl

theorem startMoving_client (i : Import D) (index : Index) (previous todo : List Text) :
    (i.startMoving index previous todo).client i = publishing index (i.move index previous todo) := by
  cases todo with
  | nil => exact startDeleting_client i index previous
  | cons a todo => rfl

theorem resumeFilling_client (i : Import D) (index : Index) (good : Bool)
    (pending : List (Request D)) (answers : List Response) :
    (resumeFilling index good pending answers).client i =
      Client.resume i.storage.insertion_concurrent_requests (fun x => (joinBlock x).toBool) good
        pending answers (i.filled index) := by
  simp only [resumeFilling, Client.resume]
  split
  · rfl
  · cases h : foldStats answers with
    | ok stats => simp only [filled, h]; rfl
    | error e => cases e <;> simp only [filled, h] <;> rfl

theorem startFilling_client (i : Import D) (index : Index) :
    (i.startFilling index).client i = (do
      let g ← (do
        let _stats ← .mapErr .documentStreamInsertion (.mapErr .documentInsertionError
          (insertDocumentsInIndex i.storage index.name i.documents))
        return i.generator index)
      g.publish) := by
  simp only [startFilling, insertDocumentsInIndex, bulk]
  split
  · rfl
  · rw [resumeFilling_client, chunkRequests]
    generalize List.map (Request.bulk index.name) _ = pending
    cases pending <;> rfl

theorem client_of_request (i : Import D) {ph : Phase D} {r : Request D}
    (h : ph.request i = some r) :
    ph.client i = Client.call r (fun x => (ph.next i x).client i) := by
  cases ph with
  | filling => simp [request] at h
  | ended => simp [request] at h
  | creating =>
      obtain rfl := Option.some.inj h
      show Client.call _ _ = _
      congr 1; funext x
      simp only [next, Client.bind, indexName]
      cases createIndexReply (rootDoctypeDatasetTs i.config.name i.config.dataset i.now) x with
      | ok => rfl
      | error e => cases e <;> rfl
  | finding =>
      obtain rfl := Option.some.inj h
      show Client.call _ _ = _
      congr 1; funext x
      simp only [next, Client.bind]
      cases findIndexReply i.indexName x with
      | ok found => cases found <;> rfl
      | error e => cases e <;> rfl
  | piping index =>
      obtain rfl := Option.some.inj h
      show Client.call _ _ = _
      congr 1; funext x
      simp only [next, Client.bind]
      cases addPipelineReply "indexed_at".toList x with
      | ok => exact (startFilling_client i index).symm
      | error e => cases e <;> rfl
  | refreshing index =>
      obtain rfl := Option.some.inj h
      have hp : (Phase.refreshing index).client i = publishing index (do
          .mapErr .indexPublicationError (refreshIndex index.name)
          i.list index) := by
        rw [← publishIndex_eq]; rfl
      rw [hp]
      show Client.call _ _ = _
      congr 1; funext x
      simp only [next, Client.bind]
      cases refreshIndexReply index.name x with
      | ok => rfl
      | error e => cases e <;> rfl
  | listing index =>
      obtain rfl := Option.some.inj h
      show Client.call _ _ = _
      congr 1; funext x
      simp only [next, Client.bind]
      cases findAliasesReply
          (aliasPattern (rootDoctypeDataset index.doc_type index.dataset)) x with
      | ok found => exact (startMoving_client i index (previousOf index found) (i.plan index)).symm
      | error e => cases e <;> rfl
  | moving index previous a todo =>
      obtain rfl := Option.some.inj h
      show Client.call _ _ = _
      congr 1; funext x
      simp only [next, Client.bind]
      cases updateAliasReply a x with
      | ok => exact (startMoving_client i index previous todo).symm
      | error e => cases e <;> rfl
  | deleting index n todo =>
      obtain rfl := Option.some.inj h
      show Client.call _ _ = _
      congr 1; funext x
      simp only [next, Client.bind]
      cases deleteIndexReply n x with
      | ok => exact (startDeleting_client i index todo).symm
      | error e => cases e <;> rfl
  | merging index =>
      obtain rfl := Option.some.inj h
      show Client.call _ _ = _
      congr 1; funext x
      simp only [next, Client.bind]
      cases forceMergeReply [index.name] x with
      | ok => rfl
      | error e => cases e <;> rfl
  | locating index =>
      obtain rfl := Option.some.inj h
      show Client.call _ _ = _
      congr 1; funext x
      simp only [next, Client.bind]
      cases findIndexReply index.name x with
      | ok found => cases found <;> rfl
      | error e => cases e <;> rfl

inductive Step (E : Engine D) (i : Import D) : Store D → Phase D → Request D → Response → Store D →
    Phase D → Prop
  | call {s s' : Store D} {ph : Phase D} {r : Request D} {x : Response} :
      ph.request i = some r → (elasticsearch E).Answer r s s' x →
      Step E i s ph r x s' (ph.next i x)
  | fill {s s' s'' : Store D} {index : Index} {pre post : List (Request D)} {r : Request D}
      {answers : List Response} {x : Response} :
      pre.length < i.storage.insertion_concurrent_requests → (elasticsearch E).Answer r s s' x →
      (elasticsearch E).Spill (if (joinBlock x).toBool then [] else
        (pre ++ post).take (i.storage.insertion_concurrent_requests - 1)) s' s'' →
      Step E i s (.filling index (pre ++ r :: post) answers) r x s''
        (resumeFilling index (joinBlock x).toBool (pre ++ post) (answers ++ [x]))

variable {E : Engine D} {i : Import D} {s s' : Store D} {r : Request D} {x : Response}

theorem Step.client {ph ph' : Phase D} (h : Step E i s ph r x s' ph') :
    (elasticsearch E).Step s (ph.client i) r x s' (ph'.client i) := by
  cases h with
  | call hr ha => rw [client_of_request i hr]; exact .call ha
  | fill hw ha hs => rw [resumeFilling_client]; exact .fan hw ha hs

theorem step_of_client {ph : Phase D} {c : Es D ModelError Index}
    (h : (elasticsearch E).Step s (ph.client i) r x s' c) :
    ∃ ph', c = ph'.client i ∧ Step E i s ph r x s' ph' := by
  cases hr : ph.request i with
  | some q =>
      rw [client_of_request i hr] at h
      obtain ⟨rfl, rfl, ha⟩ := Service.step_call h
      exact ⟨ph.next i x, rfl, .call hr ha⟩
  | none =>
      cases ph with
      | filling index pending answers =>
          obtain ⟨pre, post, t, rfl, hw, ha, hs, rfl⟩ := Service.step_fan h
          exact ⟨_, (resumeFilling_client ..).symm, .fill hw ha hs⟩
      | ended result => exact absurd h Service.not_step_done
      | _ => simp [request] at hr

theorem reach_phase {c : Es D ModelError Index} (I : Store D → Phase D → Prop) (h₀ : I s .creating)
    (hstep : ∀ s ph r x s' ph', I s ph → Step E i s ph r x s' ph' → I s' ph')
    (h : (elasticsearch E).Reach (s, i.run) (s', c)) : ∃ ph, c = ph.client i ∧ I s' ph := by
  refine Service.reach_invariant (fun s c => ∃ ph : Phase D, c = ph.client i ∧ I s ph)
    ⟨.creating, rfl, h₀⟩ ?_ h
  rintro s _ r x s' c' ⟨ph, rfl, hI⟩ hs
  obtain ⟨ph', rfl, hs'⟩ := step_of_client hs
  exact ⟨ph', rfl, hstep _ _ _ _ _ _ hI hs'⟩

end Phase

end Mimirsbrunn
