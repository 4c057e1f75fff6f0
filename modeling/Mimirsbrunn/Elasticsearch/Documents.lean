import Mimirsbrunn.Elasticsearch.Replies
import Mimirsbrunn.Elasticsearch.Searching
import Mimirsbrunn.Bragi.FilterSemantics

namespace Mimirsbrunn
open Regex Std BoolQuery

-- What an index makes of a document: the source it gives back and what queries see of it.
structure Analysis (D F : Type) where
  source : D → Json F
  fields : D → BoolQuery.Document F

section Source

variable {F : Type}

def excludesOf (source : Json F) : List Text :=
  match (source.get? "excludes").or (source.get? "exclude") with
  | some (.str field) => [field]
  | some fields => fields.strs?.getD []
  | none => []

def withoutFields (excludes : List Text) : Json F → Json F
  | .obj fields => .obj (fields.filter (fun entry => !excludes.contains entry.1.toList))
  | value => value

def shown (body source : Json F) : Json F :=
  withoutFields (((body.get? "_source").map excludesOf).getD []) source

structure GetEntry (F : Type) where
  index : Text
  id : Text
  body : Json F

def getEntry? (item : Json F) : Option (GetEntry F) := do
  let index ← (item.get? "_index").bind Json.str?
  let id ← (item.get? "_id").bind Json.str?
  return { index, id, body := item }

def getEntries? (body : Json F) : Option (List (GetEntry F)) :=
  (body.get? "docs").bind (Json.array getEntry?)

end Source

namespace Store

variable {D F : Type}

def Stands (s : Store D) (name n : Text) : Prop := n ∈ s.indices ∧ (n = name ∨ s.Aliased name n)

instance (s : Store D) (name n : Text) : Decidable (s.Stands name n) :=
  inferInstanceAs (Decidable (_ ∧ _))

def Searches (s : Store D) (names : List Text) (n : Text) : Prop := ∃ a ∈ names, s.Stands a n

def Searchable (s : Store D) (n : Text) (d : D) : Prop :=
  ∃ (docs searchable : TreeMap Text D) (id : Text),
    s.contentOf n = some (docs, searchable) ∧ searchable[id]? = some d

def target (s : Store D) (name : Text) : Option Text :=
  match s.indices.keys.filter (fun n => n = name ∨ s.Aliased name n) with
  | [n] => some n
  | _ => none

def document (s : Store D) (name id : Text) : Option D :=
  (s.target name).bind (fun n => (s.contentOf n).bind (fun content => content.1[id]?))

def getSources (A : Analysis D F) (s : Store D) (entries : List (GetEntry F)) :
    List (Option (Json F)) :=
  entries.map (fun e => (s.document e.index e.id).map (fun d => shown e.body (A.source d)))

-- What the store may answer to a client that reads documents. The matching documents are those
-- that pass the filter of the query, in the order and of the number the server chooses.
inductive Reads (A : Analysis D F) (s : Store D) : ReadRequest F → ReadResponse F → Prop
  | transport {r : ReadRequest F} : Reads A s r .transport
  | rejected {r : ReadRequest F} (exception : Option (Option Exception)) :
      Reads A s r (.rejected exception)
  | unparsable {r : ReadRequest F} : Reads A s r .unparsable
  | found {indices : List Text} {body : Json F} {track : Bool} {size : Int} {timeout : Text}
      {request_timeout : Nat} (hits : List (Text × D)) (sort : Text × D → List Value) :
      (∀ hit ∈ hits, s.Searches indices hit.1 ∧ s.Searchable hit.1 hit.2) →
      hits.length ≤ size.toNat →
      (∀ queries, filterOf body = some queries →
        ∀ hit ∈ hits, passesAll (A.fields hit.2) queries = true) →
      Reads A s (.search indices (.QueryDSL body) track size timeout request_timeout)
        (.found ⟨none, hits.map (fun hit => ⟨shown body (A.source hit.2), sort hit⟩)⟩)
  | docs {body : Json F} {request_timeout : Nat} {entries : List (GetEntry F)} :
      getEntries? body = some entries →
      Reads A s (.mget body request_timeout) (.docs (s.getSources A entries))

variable {s : Store D} {name n : Text}

theorem target_eq_some : s.target name = some n ↔
    s.Stands name n ∧ ∀ m, s.Stands name m → m = n := by
  have hmem : ∀ m, m ∈ s.indices.keys.filter (fun n => n = name ∨ s.Aliased name n) ↔
      s.Stands name m := by
    intro m
    simp [Stands, TreeMap.mem_keys]
  have hnodup : (s.indices.keys.filter (fun n => n = name ∨ s.Aliased name n)).Nodup :=
    TreeMap.nodup_keys.filter _
  rw [target]
  generalize s.indices.keys.filter (fun n => n = name ∨ s.Aliased name n) = ns at hmem hnodup
  constructor
  · intro h
    split at h
    · obtain rfl := Option.some.inj h
      refine ⟨(hmem _).mp List.mem_cons_self, fun m hm => ?_⟩
      exact List.mem_singleton.mp ((hmem m).mpr hm)
    · cases h
  · rintro ⟨hn, hone⟩
    have hall : ∀ m ∈ ns, m = n := fun m hm => hone m ((hmem m).mp hm)
    have hns : ns = [n] := by
      cases ns with
      | nil => exact absurd ((hmem n).mpr hn) List.not_mem_nil
      | cons m ms =>
        obtain rfl := hall m List.mem_cons_self
        cases ms with
        | nil => rfl
        | cons k ms =>
          obtain rfl := hall k (List.mem_cons_of_mem _ List.mem_cons_self)
          simp at hnodup
    rw [hns]

theorem document_eq_some {id : Text} {d : D} : s.document name id = some d ↔
    ∃ n docs searchable, s.target name = some n ∧ s.contentOf n = some (docs, searchable) ∧
      docs[id]? = some d := by
  simp only [document, Option.bind_eq_some_iff]
  constructor
  · rintro ⟨n, hn, ⟨docs, searchable⟩, hc, hd⟩
    exact ⟨n, docs, searchable, hn, hc, hd⟩
  · rintro ⟨n, docs, searchable, hn, hc, hd⟩
    exact ⟨n, hn, ⟨docs, searchable⟩, hc, hd⟩

end Store

theorem getEntries?_buildFeaturesQuery {F : Type} (indices : List Text) (doc_id : Text) :
    getEntries? (buildFeaturesQuery indices doc_id : Json F) =
      some (indices.map (fun index => ⟨index, doc_id, .obj [
        ("_index", .str index),
        ("_id", .str doc_id),
        ("_source", .obj [("exclude", .str "boundary".toList)])]⟩)) :=
  Json.mapM_map_write (fun _ _ => rfl)

end Mimirsbrunn
