import Mimirsbrunn.Elasticsearch.Replies
import Mimirsbrunn.Publication.Phase

namespace Mimirsbrunn
open Regex Std Internal

variable {D : Type}

namespace EsIndex

variable {E : Engine D} {x : EsIndex D}

theorem searchable_apply (op : BulkOperation D) :
    (x.apply E op).1.searchable = x.searchable := by
  cases op with
  | index id d => simp only [apply]; split <;> rfl
  | update id op => simp only [apply]; split <;> (try split) <;> rfl

theorem searchable_applyAll (ops : List (BulkOperation D)) :
    (x.applyAll E ops).1.searchable = x.searchable := by
  induction ops generalizing x with
  | nil => rfl
  | cons op ops ih => simp only [applyAll]; rw [ih, searchable_apply]

theorem mem_insert (t : TreeMap Text D) (k m : Text) (d : D) :
    m ∈ t.insert k d ↔ m = k ∨ m ∈ t := by
  rw [TreeMap.mem_insert, Std.compare_eq_iff_eq, eq_comm]

theorem mem_docs_apply {k : Text} (op : BulkOperation D) (hk : k ∈ x.docs) :
    k ∈ (x.apply E op).1.docs := by
  cases op with
  | index id d =>
      simp only [apply]
      split
      · exact (mem_insert ..).mpr (.inr hk)
      · exact hk
  | update id op =>
      simp only [apply]
      split
      · split
        · exact (mem_insert ..).mpr (.inr hk)
        · exact hk
      · exact hk

theorem mem_docs_applyAll {k : Text} (ops : List (BulkOperation D)) (hk : k ∈ x.docs) :
    k ∈ (x.applyAll E ops).1.docs := by
  induction ops generalizing x with
  | nil => exact hk
  | cons op ops ih => exact ih (mem_docs_apply op hk)

theorem id_mem_docs_apply {op : BulkOperation D} {result : BulkResult}
    (h : (x.apply E op).2.result = .ok result) : op.id ∈ (x.apply E op).1.docs := by
  cases op with
  | index id d =>
      by_cases hp : E.parses d = true
      · simp only [apply, hp, if_true]
        exact (mem_insert ..).mpr (.inl rfl)
      · simp [apply, hp] at h
  | update id op =>
      cases hd : x.docs[id]? with
      | none => simp [apply, hd] at h
      | some d =>
          cases hs : E.script op d with
          | none => simp [apply, hd, hs] at h
          | some d' =>
              simp only [apply, hd, hs]
              exact (mem_insert ..).mpr (.inl rfl)

theorem id_mem_docs_applyAll {ops : List (BulkOperation D)}
    (h : ∀ item ∈ (x.applyAll E ops).2, ∃ result, item.result = .ok result) :
    ∀ op ∈ ops, op.id ∈ (x.applyAll E ops).1.docs := by
  induction ops generalizing x with
  | nil => simp
  | cons op ops ih =>
      simp only [applyAll, List.mem_cons, forall_eq_or_imp] at h ⊢
      obtain ⟨⟨result, hr⟩, hrest⟩ := h
      exact ⟨mem_docs_applyAll ops (id_mem_docs_apply hr), ih hrest⟩

end EsIndex

namespace Store

variable {E : Engine D} {s : Store D} {n m : Text}

theorem contentOf_createIndex (shards replicas : Nat) (hn : n ∉ s.indices)
    (ha : E.accepts n = true) :
    (s.createIndex E n shards replicas).1.contentOf n = some (∅, ∅) := by
  simp [contentOf, getElem?_createIndex, hn, ha, EsIndex.empty]

theorem contentOf_refresh {docs searchable : TreeMap Text D}
    (h : s.contentOf n = some (docs, searchable)) :
    (s.refresh n).1.contentOf n = some (docs, docs) := by
  obtain ⟨i, hi, hd⟩ := Option.map_eq_some_iff.mp h
  obtain ⟨rfl, rfl⟩ := Prod.mk.inj hd
  simp [contentOf, getElem?_refresh, hi]

theorem contentOf_bulk {docs searchable : TreeMap Text D} (ops : List (BulkOperation D))
    (h : s.contentOf n = some (docs, searchable)) :
    ∃ i : EsIndex D, s.indices[n]? = some i ∧ i.docs = docs ∧
      (s.bulk E n ops).1.contentOf n = some ((i.applyAll E ops).1.docs, searchable) := by
  obtain ⟨i, hi, hd⟩ := Option.map_eq_some_iff.mp h
  obtain ⟨rfl, rfl⟩ := Prod.mk.inj hd
  refine ⟨i, hi, rfl, ?_⟩
  rw [contentOf, getElem?_bulk, if_pos ⟨rfl, .inl (mem_iff.mpr ⟨i, hi⟩)⟩, hi, Option.getD_some,
    Option.map_some, EsIndex.searchable_applyAll]

end Store

variable [Document D]

def Sound (documents : List D) (t : TreeMap Text D) : Prop :=
  ∀ k d, t[k]? = some d → d ∈ documents ∧ Document.id d = k

structure Holds (documents : List D) (t : TreeMap Text D) : Prop where
  sound : Sound documents t
  covers : ∀ d ∈ documents, Document.id d ∈ t

def Writes (documents : List D) (op : BulkOperation D) : Prop :=
  ∃ d ∈ documents, op = .index (Document.id d) d

section

variable {E : Engine D} {documents : List D} {x : EsIndex D}

theorem sound_apply {op : BulkOperation D} (hop : Writes documents op)
    (hx : Sound documents x.docs) : Sound documents (x.apply E op).1.docs := by
  obtain ⟨doc, hdoc, rfl⟩ := hop
  simp only [EsIndex.apply]
  split
  · intro k d hk
    simp only [TreeMap.getElem?_insert, Std.compare_eq_iff_eq] at hk
    split at hk
    · next he =>
      obtain rfl := Option.some.inj hk
      exact ⟨hdoc, he⟩
    · exact hx k d hk
  · exact hx

theorem sound_applyAll {ops : List (BulkOperation D)} (hops : ∀ op ∈ ops, Writes documents op)
    (hx : Sound documents x.docs) : Sound documents (x.applyAll E ops).1.docs := by
  induction ops generalizing x with
  | nil => exact hx
  | cons op ops ih =>
      simp only [List.mem_cons, forall_eq_or_imp] at hops
      exact ih hops.2 (sound_apply hops.1 hx)

end

namespace Phase

variable {E : Engine D} {i : Import D} {s s' : Store D} {r : Request D} {x : Response}

def Named (i : Import D) (index : Index) : Prop :=
  index.name = i.indexName ∧ splitIndexName i.indexName = .ok (index.doc_type, index.dataset)

def Ready (i : Import D) (index : Index) (c : Option (TreeMap Text D × TreeMap Text D)) : Prop :=
  Named i index ∧ ∃ docs, c = some (docs, docs) ∧ Holds i.documents docs

def Holding (i : Import D) (c : Option (TreeMap Text D × TreeMap Text D)) : Phase D → Prop
  | .creating => True
  | .finding => c = some (∅, ∅)
  | .piping index => Named i index ∧ c = some (∅, ∅)
  | .filling index pending answers => Named i index ∧
      ∃ (chunks : List (List (BulkOperation D))) (docs : TreeMap Text D),
        c = some (docs, ∅) ∧ pending = chunks.map (Request.bulk index.name) ∧
        (∀ ops ∈ chunks, ∀ op ∈ ops, Writes i.documents op) ∧ Sound i.documents docs ∧
        (∀ d ∈ i.documents, Document.id d ∈ docs ∨
          ∃ ops ∈ chunks, .index (Document.id d) d ∈ ops) ∧
        ∀ x ∈ answers, (joinBlock x).toBool = true
  | .refreshing index => Named i index ∧ ∃ docs, c = some (docs, ∅) ∧ Holds i.documents docs
  | .listing index => Ready i index c
  | .moving index previous _ _ => Ready i index c ∧ i.indexName ∉ previous
  | .deleting index n todo => Ready i index c ∧ i.indexName ∉ n :: todo
  | .merging index => Ready i index c
  | .locating index => Ready i index c
  | .ended (.ok index) => Ready i index c
  | .ended (.error _) => True

variable {c : Option (TreeMap Text D × TreeMap Text D)}

theorem holding_stop (wrap : Error → ModelError) (e : Failure Error) :
    (Import.stop wrap e : Phase D).Holding i c := by
  cases e <;> trivial

theorem holding_startMerging {index : Index} (h : Ready i index c) :
    (i.startMerging index).Holding i c := by
  rw [Import.startMerging]
  split <;> exact h

theorem holding_startDeleting {index : Index} {todo : List Text} (h : Ready i index c)
    (hn : i.indexName ∉ todo) : (i.startDeleting index todo).Holding i c := by
  cases todo with
  | nil => exact holding_startMerging h
  | cons n todo => exact ⟨h, hn⟩

theorem holding_startMoving {index : Index} {previous todo : List Text} (h : Ready i index c)
    (hn : i.indexName ∉ previous) : (i.startMoving index previous todo).Holding i c := by
  cases todo with
  | nil => exact holding_startDeleting h hn
  | cons a todo => exact ⟨h, hn⟩

omit [Document D] in
theorem not_mem_previousOf {index : Index} (hi : Named i index)
    (found : TreeMap Text (List Text)) : i.indexName ∉ previousOf index found := by
  rw [mem_previousOf, hi.1]
  exact fun h => h.2 rfl

theorem holding_resumeFilling {index : Index} {good : Bool} {pending : List (Request D)}
    {answers : List Response} (hgood : good = true → (Phase.filling index pending answers).Holding i c)
    (hbad : good = false → ∃ x ∈ answers, (joinBlock x).toBool = false) :
    (Import.resumeFilling index good pending answers).Holding i c := by
  rw [Import.resumeFilling]
  split
  · next h => exact hgood (Bool.and_eq_true_iff.mp h).1
  · next h =>
    cases hf : foldStats answers with
    | error e => exact holding_stop _ e
    | ok stats =>
        have hall := foldStats_ok hf
        cases good with
        | false =>
            obtain ⟨x, hx, hj⟩ := hbad rfl
            rw [hall x hx] at hj
            cases hj
        | true =>
            obtain ⟨hi, chunks, docs, hc, rfl, _, hs, hcov, _⟩ := hgood rfl
            have hnil : chunks = [] := by
              cases chunks with
              | nil => rfl
              | cons ops chunks => simp at h
            subst hnil
            exact ⟨hi, docs, hc, hs, fun d hd => (hcov d hd).resolve_right (by simp)⟩

theorem holding_startFilling {index : Index} (hi : Named i index) :
    (i.startFilling index).Holding i (some (∅, ∅)) := by
  rw [Import.startFilling]
  split
  · trivial
  refine holding_resumeFilling (fun _ => ?_) (fun h => by cases h)
  have hall := Chunks.chunks_flatten i.storage.insertion_chunk_size
    (i.documents.map (fun doc => BulkOperation.index (Document.id doc) doc))
  refine ⟨hi, _, ∅, rfl, rfl, ?_, by simp [Sound], ?_, by simp⟩
  · intro ops hops op hop
    have hm : op ∈ i.documents.map (fun doc => BulkOperation.index (Document.id doc) doc) := by
      rw [← hall]; exact List.mem_flatten.mpr ⟨ops, hops, hop⟩
    obtain ⟨d, hd, rfl⟩ := List.mem_map.mp hm
    exact ⟨d, hd, rfl⟩
  · intro d hd
    have hm : BulkOperation.index (Document.id d) d ∈
        i.documents.map (fun doc => BulkOperation.index (Document.id doc) doc) :=
      List.mem_map.mpr ⟨d, hd, rfl⟩
    rw [← hall] at hm
    obtain ⟨ops, hops, hop⟩ := List.mem_flatten.mp hm
    exact .inr ⟨ops, hops, hop⟩

theorem bulk_of_filling {index : Index} {pending : List (Request D)} {answers : List Response}
    (h : (Phase.filling index pending answers).Holding i c) :
    ∀ q ∈ pending, ∃ ops, q = Request.bulk index.name ops := by
  obtain ⟨_, chunks, _, _, rfl, _⟩ := h
  intro q hq
  obtain ⟨ops, _, rfl⟩ := List.mem_map.mp hq
  exact ⟨ops, rfl⟩

theorem holding_fill {index : Index} {pre post : List (Request D)} {answers : List Response}
    {s'' : Store D} (h : (Phase.filling index (pre ++ r :: post) answers).Holding i
      (s.contentOf i.indexName))
    (ha : (elasticsearch E).Answer r s s' x)
    (hs : (elasticsearch E).Spill (if (joinBlock x).toBool then [] else
        (pre ++ post).take (i.storage.insertion_concurrent_requests - 1)) s' s'') :
    (Import.resumeFilling index (joinBlock x).toBool (pre ++ post) (answers ++ [x])).Holding i
      (s''.contentOf i.indexName) := by
  obtain ⟨hi, chunks, docs, hc, hp, hw, hd, hcov, hans⟩ := h
  refine holding_resumeFilling (fun hx => ?_) (fun hx => ⟨x, by simp, hx⟩)
  simp only [hx, if_true] at hs
  obtain rfl := Service.spill_nil hs
  obtain ⟨cpre, crest, rfl, hpre, hrest⟩ := List.map_eq_append_iff.mp hp.symm
  obtain ⟨ops, cpost, rfl, rfl, hpost⟩ := List.map_eq_cons_iff.mp hrest
  obtain ⟨rfl, hitems⟩ := joined ha hx
  obtain ⟨e, he, rfl, hbulk⟩ := Store.contentOf_bulk (E := E) ops hc
  rw [← hi.1] at he
  have hok := EsIndex.id_mem_docs_applyAll (hitems (Store.mem_iff.mpr ⟨e, he⟩))
  simp only [he, Option.getD_some] at hok
  refine ⟨hi, cpre ++ cpost, _, by rw [hi.1]; exact hbulk, by simp [hpre, hpost], ?_,
    sound_applyAll (fun op => hw ops (by simp) op) hd, ?_, ?_⟩
  · exact fun ops' h' => hw ops' (by simp only [List.mem_append, List.mem_cons] at h' ⊢; tauto)
  · intro d hdm
    rcases hcov d hdm with hin | ⟨ops', hops', hop⟩
    · exact .inl (EsIndex.mem_docs_applyAll ops hin)
    · simp only [List.mem_append, List.mem_cons] at hops' ⊢
      rcases hops' with h' | rfl | h'
      · exact .inr ⟨ops', .inl h', hop⟩
      · exact .inl (hok _ hop)
      · exact .inr ⟨ops', .inr h', hop⟩
  · intro y hy
    rcases List.mem_append.mp hy with hy | hy
    · exact hans y hy
    · rw [List.mem_singleton.mp hy]; exact hx

theorem holding_step {ph ph' : Phase D} (h : Step E i s ph r x s' ph')
    (hs : ph.Holding i (s.contentOf i.indexName)) : ph'.Holding i (s'.contentOf i.indexName) := by
  cases h with
  | fill hw ha hsp => exact holding_fill hs ha hsp
  | call hr ha =>
    cases ph with
    | filling => simp [request] at hr
    | ended => simp [request] at hr
    | creating =>
        obtain rfl := Option.some.inj hr
        simp only [next]
        split
        · next hx =>
          obtain ⟨hn, hacc, rfl⟩ := created ha hx
          exact Store.contentOf_createIndex _ _ hn hacc
        · exact holding_stop _ _
    | finding =>
        obtain rfl := Option.some.inj hr
        obtain rfl : s' = s := (answer_plain ha (by simp)).elim id id
        simp only [next]
        split
        · next index hx =>
          obtain ⟨_, hname, hsplit⟩ := found ha hx
          exact ⟨⟨hname, hsplit⟩, hs⟩
        · exact holding_stop _ _
        · exact holding_stop _ _
    | piping index =>
        obtain rfl := Option.some.inj hr
        simp only [next]
        split
        · next hx =>
          have hi := piped ha hx
          have hc : s'.contentOf i.indexName = some (∅, ∅) := by
            rw [← hs.2]; simp only [Store.contentOf, hi]
          rw [hc]
          exact holding_startFilling hs.1
        · exact holding_stop _ _
    | refreshing index =>
        obtain rfl := Option.some.inj hr
        obtain ⟨hi, docs, hc, hd⟩ := hs
        simp only [next]
        split
        · next hx =>
          obtain ⟨_, rfl⟩ := refreshed ha hx
          rw [hi.1]
          exact ⟨hi, docs, Store.contentOf_refresh hc, hd⟩
        · exact holding_stop _ _
    | listing index =>
        obtain rfl := Option.some.inj hr
        obtain rfl : s' = s := (answer_plain ha (by simp)).elim id id
        simp only [next]
        split
        · exact holding_startMoving hs (not_mem_previousOf hs.1 _)
        · exact holding_stop _ _
    | moving index previous a todo =>
        obtain rfl := Option.some.inj hr
        simp only [next]
        split
        · next hx =>
          obtain ⟨rfl, _⟩ := aliased ha hx
          rw [Store.foldl_act_contentOf]
          exact holding_startMoving hs.1 hs.2
        · exact holding_stop _ _
    | deleting index n todo =>
        obtain rfl := Option.some.inj hr
        simp only [next]
        obtain ⟨hready, hn⟩ := hs
        simp only [List.mem_cons, not_or] at hn
        split
        · next hx =>
          obtain ⟨_, rfl⟩ := deleted ha hx
          rw [Store.contentOf_deleteIndex, if_neg hn.1]
          exact holding_startDeleting hready hn.2
        · exact holding_stop _ _
    | merging index =>
        obtain rfl := Option.some.inj hr
        obtain rfl : s' = s := (answer_plain ha (by simp)).elim id id
        simp only [next]
        split
        · exact hs
        · exact holding_stop _ _
    | locating index =>
        obtain rfl := Option.some.inj hr
        obtain rfl : s' = s := (answer_plain ha (by simp)).elim id id
        simp only [next]
        split
        · next index' hx =>
          obtain ⟨_, hname, hsplit⟩ := found ha hx
          rw [hs.1.1] at hname hsplit
          exact ⟨⟨hname, hsplit⟩, hs.2⟩
        · trivial
        · exact holding_stop _ _

end Phase

end Mimirsbrunn
