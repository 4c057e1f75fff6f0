import Mimirsbrunn.Elasticsearch.Documents
import Mimirsbrunn.Publication.Settling
import Mimirsbrunn.Publication.Switch

namespace Mimirsbrunn
open Regex Std Internal

variable {D : Type} {E : Engine D}

def Request.OnlyWrites (n : Text) : Request D → Prop
  | .createIndex m .. => m = n
  | .bulk m _ => m = n
  | .refresh m => m = n
  | _ => True

def Request.Inserts (Q : Text → D → Prop) : Request D → Prop
  | .bulk n ops => ∀ op ∈ ops, ∃ id d, op = .index id d ∧ Q n d
  | _ => True

namespace Store

variable {s s' : Store D} {r : Request D} {x : Response} {n m : Text} {Q : Text → D → Prop}

def AllDocs (Q : Text → D → Prop) (s : Store D) : Prop :=
  ∀ (n : Text) (docs searchable : TreeMap Text D), s.contentOf n = some (docs, searchable) →
    ∀ (id : Text) (d : D), docs[id]? = some d ∨ searchable[id]? = some d → Q n d

theorem contentOf_updateAliases (actions : List AliasAction) :
    (s.updateAliases actions).1.contentOf m = s.contentOf m := by
  rcases updateAliases_cases actions s with ⟨_, he, _⟩ | ⟨he, _⟩
  · rw [he]
  · rw [he, foldl_act_contentOf]

theorem contentOf_serve (hr : r.OnlyWrites n) (hm : m ≠ n) :
    (s.serve E r).1.contentOf m = none ∨ (s.serve E r).1.contentOf m = s.contentOf m := by
  cases r with
  | createIndex k shards replicas =>
    obtain rfl : k = n := hr
    exact .inr (contentOf_createIndex_ne shards replicas hm)
  | bulk k ops =>
    obtain rfl : k = n := hr
    exact .inr (contentOf_bulk_ne ops hm)
  | refresh k =>
    obtain rfl : k = n := hr
    exact .inr (contentOf_refresh_ne hm)
  | deleteIndex k =>
    simp only [serve, contentOf_deleteIndex]
    split
    case isTrue => exact .inl rfl
    case isFalse => exact .inr rfl
  | updateAliases actions => exact .inr (contentOf_updateAliases actions)
  | catIndices k => exact .inr rfl
  | putPipeline name => exact .inr rfl
  | getAlias pattern => exact .inr rfl
  | forcemerge ns max => exact .inr rfl

theorem contentOf_answer (ha : (elasticsearch E).Answer r s s' x) (hr : r.OnlyWrites n)
    (hm : m ≠ n) : s'.contentOf m = none ∨ s'.contentOf m = s.contentOf m := by
  rcases answer_cases ha with rfl | rfl | ⟨k, ops, j, rfl, rfl⟩
  · exact .inr rfl
  · exact contentOf_serve hr hm
  · obtain rfl : k = n := hr
    exact .inr (contentOf_bulk_ne _ hm)

theorem allDocs_applyAll {i : EsIndex D} {ops : List (BulkOperation D)}
    (hops : ∀ op ∈ ops, ∃ id d, op = .index id d ∧ Q n d)
    (hi : ∀ (id : Text) (d : D), i.docs[id]? = some d → Q n d) :
    ∀ (id : Text) (d : D), (i.applyAll E ops).1.docs[id]? = some d → Q n d := by
  induction ops generalizing i with
  | nil => exact hi
  | cons op ops ih =>
    rw [List.forall_mem_cons] at hops
    obtain ⟨⟨k, doc, rfl, hdoc⟩, hrest⟩ := hops
    refine ih hrest fun id d hd => ?_
    simp only [EsIndex.apply] at hd
    split at hd
    case isTrue =>
      rw [getElem?_insert] at hd
      split at hd
      case isTrue => exact Option.some.inj hd ▸ hdoc
      case isFalse => exact hi id d hd
    case isFalse => exact hi id d hd

theorem AllDocs.bulk (h : s.AllDocs Q) {ops : List (BulkOperation D)}
    (hops : ∀ op ∈ ops, ∃ id d, op = .index id d ∧ Q n d) : (s.bulk E n ops).1.AllDocs Q := by
  intro m docs searchable hc id d hd
  simp only [contentOf, getElem?_bulk] at hc
  split at hc
  case isFalse => exact h m docs searchable hc id d hd
  case isTrue hm =>
    obtain ⟨rfl, _⟩ := hm
    obtain ⟨hdocs, hsearchable⟩ := Prod.mk.inj (Option.some.inj hc)
    subst hdocs hsearchable
    have hold : ∀ (id : Text) (d : D), ((s.indices[m]?).getD (.empty 1 1)).docs[id]? = some d ∨
        ((s.indices[m]?).getD (.empty 1 1)).searchable[id]? = some d → Q m d := by
      cases hn : s.indices[m]? with
      | none => simp [EsIndex.empty]
      | some i => exact h m i.docs i.searchable (by rw [contentOf, hn]; rfl)
    rcases hd with hd | hd
    · exact allDocs_applyAll hops (fun id d hd => hold id d (.inl hd)) id d hd
    · rw [EsIndex.searchable_applyAll] at hd
      exact hold id d (.inr hd)

theorem AllDocs.serve (h : s.AllDocs Q) (hr : r.Inserts Q) : (s.serve E r).1.AllDocs Q := by
  cases r with
  | createIndex k shards replicas =>
    intro m docs searchable hc id d hd
    simp only [Store.serve, contentOf, getElem?_createIndex] at hc
    split at hc
    case isFalse => exact h m docs searchable hc id d hd
    case isTrue =>
      obtain ⟨hdocs, hsearchable⟩ := Prod.mk.inj (Option.some.inj hc)
      subst hdocs hsearchable
      simp [EsIndex.empty] at hd
  | bulk k ops => exact h.bulk hr
  | refresh k =>
    intro m docs searchable hc id d hd
    simp only [Store.serve, contentOf, getElem?_refresh] at hc
    split at hc
    case isFalse => exact h m docs searchable hc id d hd
    case isTrue hm =>
      subst hm
      cases hk : s.indices[m]? with
      | none => simp [hk] at hc
      | some i =>
        rw [hk] at hc
        obtain ⟨hdocs, hsearchable⟩ := Prod.mk.inj (Option.some.inj hc)
        subst hdocs hsearchable
        exact h m i.docs i.searchable (by rw [contentOf, hk]; rfl) id d (.inl (or_self_iff.mp hd))
  | deleteIndex k =>
    intro m docs searchable hc id d hd
    simp only [Store.serve, contentOf_deleteIndex] at hc
    split at hc
    case isTrue => cases hc
    case isFalse => exact h m docs searchable hc id d hd
  | updateAliases actions =>
    intro m docs searchable hc id d hd
    exact h m docs searchable ((contentOf_updateAliases actions).symm.trans hc) id d hd
  | catIndices k => exact h
  | putPipeline name => exact h
  | getAlias pattern => exact h
  | forcemerge ns max => exact h

theorem AllDocs.answer (h : s.AllDocs Q) (ha : (elasticsearch E).Answer r s s' x)
    (hr : r.Inserts Q) : s'.AllDocs Q := by
  rcases answer_cases ha with rfl | rfl | ⟨k, ops, j, rfl, rfl⟩
  · exact h
  · exact h.serve hr
  · exact h.bulk fun op hop => hr op (List.mem_of_mem_take hop)

end Store

namespace Phase

variable [Document D] {i : Import D} {s₀ s s' : Store D} {r : Request D} {x : Response}
  {Q : Text → D → Prop}

theorem request_onlyWrites {ph : Phase D} (hr : ph.request i = some r)
    (hh : ph.Holding i (s.contentOf i.indexName)) : r.OnlyWrites i.indexName := by
  cases ph with
  | refreshing index =>
    obtain rfl := Option.some.inj hr
    exact hh.1.1
  | creating => obtain rfl := Option.some.inj hr; rfl
  | finding => obtain rfl := Option.some.inj hr; trivial
  | piping index => obtain rfl := Option.some.inj hr; trivial
  | listing index => obtain rfl := Option.some.inj hr; trivial
  | moving index previous a todo => obtain rfl := Option.some.inj hr; trivial
  | deleting index n todo => obtain rfl := Option.some.inj hr; trivial
  | merging index => obtain rfl := Option.some.inj hr; trivial
  | locating index => obtain rfl := Option.some.inj hr; trivial
  | filling => cases hr
  | ended => cases hr

omit [Document D] in
theorem request_inserts {ph : Phase D} (hr : ph.request i = some r) : r.Inserts Q := by
  cases ph with
  | filling => cases hr
  | ended => cases hr
  | _ => obtain rfl := Option.some.inj hr; trivial

theorem filling_request {index : Index} {pending : List (Request D)} {answers : List Response}
    (hh : (Phase.filling index pending answers).Holding i (s.contentOf i.indexName))
    (hQ : ∀ d ∈ i.documents, Q i.indexName d) :
    ∀ q ∈ pending, q.OnlyWrites i.indexName ∧ q.Inserts Q := by
  obtain ⟨hi, chunks, docs, _, rfl, hw, _⟩ := hh
  intro q hq
  obtain ⟨ops, hops, rfl⟩ := List.mem_map.mp hq
  refine ⟨hi.1, fun op hop => ?_⟩
  obtain ⟨d, hd, rfl⟩ := hw ops hops op hop
  exact ⟨_, d, rfl, hi.1 ▸ hQ d hd⟩

structure Quiet (i : Import D) (Q : Text → D → Prop) (s₀ s : Store D) : Prop where
  kept : ∀ m, m ≠ i.indexName → s.contentOf m = none ∨ s.contentOf m = s₀.contentOf m
  docs : s.AllDocs Q

omit [Document D] in
theorem Quiet.answer (h : Quiet i Q s₀ s) (ha : (elasticsearch E).Answer r s s' x)
    (hr : r.OnlyWrites i.indexName) (hQ : r.Inserts Q) : Quiet i Q s₀ s' := by
  refine ⟨fun m hm => ?_, h.docs.answer ha hQ⟩
  rcases Store.contentOf_answer ha hr hm with hn | hs
  · exact .inl hn
  · rw [hs]
    exact h.kept m hm

theorem quiet_step {ph ph' : Phase D} (hs : Step E i s ph r x s' ph')
    (hh : ph.Holding i (s.contentOf i.indexName)) (hQ : ∀ d ∈ i.documents, Q i.indexName d)
    (h : Quiet i Q s₀ s) : Quiet i Q s₀ s' := by
  cases hs with
  | call hr ha => exact h.answer ha (request_onlyWrites hr hh) (request_inserts hr)
  | fill hw ha hsp =>
    have hq := filling_request (Q := Q) hh hQ
    exact Service.window_invariant (Quiet i Q s₀)
      (fun q hq' t t' y hy hI => hI.answer hy (hq q hq').1 (hq q hq').2)
      (fun _ _ _ => answer_of_cut) ha hsp h

theorem reach_quiet {c : Es D ModelError Index} (h : (elasticsearch E).Reach (s₀, i.run) (s, c))
    (hQ : ∀ d ∈ i.documents, Q i.indexName d) (h₀ : s₀.AllDocs Q) :
    Stopped i s₀ s ∧ Quiet i Q s₀ s := by
  obtain ⟨ph, _, hh, hp, hq⟩ := reach_phase (fun s ph => ph.Holding i (s.contentOf i.indexName) ∧
    ph.Progress i s₀ s ∧ Quiet i Q s₀ s) ⟨trivial, rfl, fun _ _ => .inr rfl, h₀⟩
    (fun s ph r x s' ph' hI hs =>
      ⟨holding_step hs hI.1, progress_step hs hI.1 hI.2.1, quiet_step hs hI.1 hQ hI.2.2⟩) h
  exact ⟨progress_stopped hh hp, hq⟩

end Phase

end Mimirsbrunn
