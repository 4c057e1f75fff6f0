import Mimirsbrunn.Elasticsearch.Internal

namespace Mimirsbrunn
open Regex Std Internal

namespace Store

variable {D : Type} {s : Store D} {n m a b : Text}

def contentOf (s : Store D) (m : Text) : Option (TreeMap Text D × TreeMap Text D) :=
  (s.indices[m]?).map (fun i => (i.docs, i.searchable))

theorem map_act {β : Type} {f : EsIndex D → β} (hadd : ∀ a i, f (i.addAlias a) = f i)
    (hremove : ∀ a i, f (i.removeAlias a) = f i) (action : AliasAction) :
    ((s.act action).indices[m]?).map f = (s.indices[m]?).map f := by
  cases action with
  | add a ns =>
      simp only [act, TreeMap.getElem?_map]
      cases s.indices[m]? with
      | none => rfl
      | some i => by_cases hm : m ∈ ns <;> simp [hm, hadd]
  | remove a ns =>
      simp only [act, TreeMap.getElem?_map]
      cases s.indices[m]? with
      | none => rfl
      | some i => by_cases hm : m ∈ ns <;> simp [hm, hremove]

theorem map_foldl_act {β : Type} {f : EsIndex D → β} (hadd : ∀ a i, f (i.addAlias a) = f i)
    (hremove : ∀ a i, f (i.removeAlias a) = f i) (actions : List AliasAction) (s : Store D) :
    ((actions.foldl act s).indices[m]?).map f = (s.indices[m]?).map f := by
  induction actions generalizing s with
  | nil => rfl
  | cons action actions ih => rw [List.foldl_cons, ih, map_act hadd hremove]

theorem foldl_act_mem (actions : List AliasAction) (s : Store D) :
    m ∈ (actions.foldl act s).indices ↔ m ∈ s.indices := by
  induction actions generalizing s with
  | nil => rfl
  | cons action actions ih => rw [List.foldl_cons, ih, mem_act]

theorem foldl_act_contentOf (actions : List AliasAction) (s : Store D) :
    (actions.foldl act s).contentOf m = s.contentOf m :=
  map_foldl_act (fun _ _ => rfl) (fun _ _ => rfl) actions s

theorem updateAliases_cases (actions : List AliasAction) (s : Store D) :
    (∃ k, s.updateAliases actions = (s, noSuchIndex k) ∧ ∃ action ∈ actions,
      k ∈ action.indices ∧ k ∉ s.indices) ∨
    (s.updateAliases actions = (actions.foldl act s, .acknowledged (.value true)) ∧
      ∀ action ∈ actions, ∀ k ∈ action.indices, k ∈ s.indices) := by
  rw [updateAliases]
  split
  · next k h =>
    have hk := List.find?_some h
    obtain ⟨action, ha, hi⟩ := List.mem_flatMap.mp (List.mem_of_find?_eq_some h)
    exact .inl ⟨k, rfl, action, ha, hi, by simpa using hk⟩
  · next h =>
    refine .inr ⟨rfl, fun action ha k hk => missing_eq_none.mp h k ?_⟩
    exact List.mem_flatMap.mpr ⟨action, ha, hk⟩

theorem aliased_aliasActions {previous : List Text} (hn : n ∈ s.indices) :
    ((aliasActions a [n] previous).foldl act s).Aliased b m ↔
      (s.Aliased b m ∨ (b = a ∧ m = n)) ∧ ¬ (b = a ∧ m ∈ previous) := by
  have hadd : (s.act (.add a [n])).Aliased b m ↔ s.Aliased b m ∨ (b = a ∧ m = n) := by
    rw [aliased_add, List.mem_singleton]
    constructor
    · exact Or.imp_right (fun h => ⟨h.1, h.2.1⟩)
    · exact Or.imp_right (fun h => ⟨h.1, h.2, h.2 ▸ hn⟩)
  cases previous with
  | nil => simpa [aliasActions] using hadd
  | cons k ks =>
      have hrem : (aliasActions a [n] (k :: ks)).foldl act s =
        (s.act (.add a [n])).act (.remove a (k :: ks)) := rfl
      rw [hrem, aliased_remove, hadd]

theorem aliasActions_mem {previous : List Text} :
    (∀ action ∈ aliasActions a [n] previous, ∀ k ∈ action.indices, k ∈ s.indices) ↔
      n ∈ s.indices ∧ ∀ k ∈ previous, k ∈ s.indices := by
  cases previous with
  | nil => simp [aliasActions, AliasAction.indices]
  | cons k ks => simp [aliasActions, AliasAction.indices]

theorem contentOf_deleteIndex :
    (s.deleteIndex n).1.contentOf m = if m = n then none else s.contentOf m := by
  simp only [contentOf, getElem?_deleteIndex]
  split <;> rfl

theorem mem_of_contentOf {c : TreeMap Text D × TreeMap Text D} (h : s.contentOf m = some c) :
    m ∈ s.indices := by
  obtain ⟨i, hi, _⟩ := Option.map_eq_some_iff.mp h
  exact mem_iff.mpr ⟨i, hi⟩

end Store

namespace Internal

variable {D : Type} {E : Engine D} {s s' : Store D} {x : Response} {r : Request D} {n : Text}

theorem answer_served (h : (elasticsearch E).Answer r s s' x) (hx : ¬ r.Fault x) :
    s' = (s.serve E r).1 ∧ x = (s.serve E r).2 := by
  cases h with
  | served => exact ⟨rfl, rfl⟩
  | broken _ hf => exact absurd hf hx

theorem answer_of_cut (h : (elasticsearch E).cut r s s') :
    ∃ x, (elasticsearch E).Answer r s s' x :=
  ⟨.transport, .broken h (by cases r <;> trivial)⟩

theorem answer_cases (h : (elasticsearch E).Answer r s s' x) :
    s' = s ∨ s' = (s.serve E r).1 ∨
      ∃ n ops k, r = .bulk n ops ∧ s' = (s.bulk E n (ops.take k)).1 := by
  cases h with
  | served => exact .inr (.inl rfl)
  | broken hc _ =>
      cases hc with
      | dropped => exact .inl rfl
      | applied => exact .inr (.inl rfl)
      | bulk n ops k => exact .inr (.inr ⟨n, ops, k, rfl, rfl⟩)

theorem acknowledgedReply_ok {unread : Text} {e₁ e₂ e₃ : Error}
    (h : acknowledgedReply unread e₁ e₂ e₃ x = .ok ()) : x = .acknowledged (.value true) := by
  cases x with
  | acknowledged a =>
      cases a with
      | value b => cases b with
        | true => rfl
        | false => simp [acknowledgedReply, Response.acknowledgement, fail] at h
      | _ => simp [acknowledgedReply, Response.acknowledgement, fail] at h
  | rejected e => cases e <;> simp [acknowledgedReply, rejection, fail] at h
  | _ => simp [acknowledgedReply, Response.acknowledgement, fail] at h

theorem created {shards replicas : Nat}
    (h : (elasticsearch E).Answer (.createIndex n shards replicas) s s' x)
    (hx : createIndexReply n x = .ok ()) :
    n ∉ s.indices ∧ E.accepts n = true ∧ s' = (s.createIndex E n shards replicas).1 := by
  obtain rfl := acknowledgedReply_ok hx
  obtain ⟨rfl, hs⟩ := answer_served h (by simp [Request.Fault])
  simp only [Store.serve, Store.createIndex] at hs
  split at hs
  · cases hs
  · next hn =>
    split at hs
    · next ha => exact ⟨hn, ha, rfl⟩
    · cases hs

theorem deleted (h : (elasticsearch E).Answer (.deleteIndex n) s s' x)
    (hx : deleteIndexReply n x = .ok ()) : n ∈ s.indices ∧ s' = (s.deleteIndex n).1 := by
  obtain rfl := acknowledgedReply_ok hx
  obtain ⟨rfl, hs⟩ := answer_served h (by simp [Request.Fault])
  simp only [Store.serve, Store.deleteIndex] at hs
  split at hs
  · next hn => exact ⟨hn, rfl⟩
  · cases hs

theorem piped {name : Text} (h : (elasticsearch E).Answer (.putPipeline name) s s' x)
    (hx : addPipelineReply name x = .ok ()) : s'.indices = s.indices := by
  obtain rfl := acknowledgedReply_ok hx
  obtain ⟨rfl, _⟩ := answer_served h (by simp [Request.Fault])
  rfl

theorem answer_plain (h : (elasticsearch E).Answer r s s' x) (hr : ∀ n ops, r ≠ .bulk n ops) :
    s' = s ∨ s' = (s.serve E r).1 := by
  rcases answer_cases h with hs | hs | ⟨n, ops, _, rfl, _⟩
  · exact .inl hs
  · exact .inr hs
  · exact absurd rfl (hr n ops)

theorem tryFrom_ok {row : ElasticsearchIndex} {index : Index} (h : Index.tryFrom row = .ok index) :
    index.name = row.name ∧ splitIndexName row.name = .ok (index.doc_type, index.dataset) := by
  rw [Index.tryFrom] at h
  split at h
  · cases h
  · next hsplit =>
    split at h
    · split at h
      · obtain rfl := Except.ok.inj h
        exact ⟨rfl, hsplit⟩
      · cases h
    · obtain rfl := Except.ok.inj h
      exact ⟨rfl, hsplit⟩

theorem found {index : Index} (h : (elasticsearch E).Answer (.catIndices n) s s' x)
    (hx : findIndexReply n x = .ok (some index)) :
    n ∈ s.indices ∧ index.name = n ∧
      splitIndexName n = .ok (index.doc_type, index.dataset) := by
  cases x with
  | cat rows =>
    obtain ⟨_, hs⟩ := answer_served h (by simp [Request.Fault])
    simp only [Store.serve, Store.catIndices] at hs
    split at hs
    · next i hi =>
      obtain rfl := Response.cat.inj hs
      simp only [findIndexReply, List.getLast?_singleton] at hx
      generalize hrow : Index.tryFrom _ = reply at hx
      cases reply with
      | error e => cases hx
      | ok found =>
          obtain rfl := Option.some.inj (Except.ok.inj hx)
          exact ⟨Store.mem_iff.mpr ⟨i, hi⟩, tryFrom_ok hrow⟩
    · cases hs
  | rejected e =>
    rcases e with _ | _ | e
    · simp [findIndexReply, rejection] at hx
    · simp [findIndexReply, rejection, fail] at hx
    · simp only [findIndexReply] at hx
      split at hx <;> simp [fail] at hx
  | _ => simp [findIndexReply, fail] at hx

theorem listed {pattern : Text} {found : TreeMap Text (List Text)}
    (h : (elasticsearch E).Answer (.getAlias pattern) s s' x)
    (hx : findAliasesReply pattern x = .ok found) (m : Text) :
    m ∈ found ↔ m ∈ s.indices ∧ glob pattern m = true := by
  cases x with
  | aliases body =>
    obtain ⟨_, hs⟩ := answer_served h (by simp [Request.Fault])
    simp only [Store.serve, Store.getAlias] at hs
    obtain rfl := Response.aliases.inj hs
    simp only [findAliasesReply, Except.ok.injEq] at hx
    subst hx
    rw [TreeMap.mem_ofList, List.contains_iff_mem]
    simp only [List.filterMap_map, List.mem_map, List.mem_filterMap, List.mem_filter,
      Function.comp, Option.map_some, Option.some.injEq, TreeMap.mem_keys]
    constructor
    · rintro ⟨row, ⟨k, hk, rfl⟩, rfl⟩
      exact hk
    · rintro hm
      exact ⟨(m, s.aliasesOf m), ⟨m, hm, rfl⟩, rfl⟩
  | rejected e =>
    rcases e with _ | _ | e <;> simp [findAliasesReply, rejection, fail] at hx
  | _ => simp [findAliasesReply, fail] at hx

theorem aliased {a : Text} {previous : List Text}
    (h : (elasticsearch E).Answer (.updateAliases (aliasActions a [n] previous)) s s' x)
    (hx : updateAliasReply a x = .ok ()) :
    s' = (aliasActions a [n] previous).foldl Store.act s ∧
      n ∈ s.indices ∧ ∀ k ∈ previous, k ∈ s.indices := by
  have hk : x = .acknowledged (.value true) := by
    cases x with
    | acknowledged a =>
        cases a with
        | value b => cases b with
          | true => rfl
          | false => simp [updateAliasReply, fail] at hx
        | _ => simp [updateAliasReply, fail] at hx
    | _ => simp [updateAliasReply, fail] at hx
  subst hk
  obtain ⟨rfl, hs⟩ := answer_served h (by simp [Request.Fault])
  simp only [Store.serve] at hs ⊢
  rcases Store.updateAliases_cases (aliasActions a [n] previous) s with ⟨k, he, _⟩ | ⟨he, hall⟩
  · rw [he] at hs; cases hs
  · exact ⟨by rw [he], Store.aliasActions_mem.mp hall⟩

theorem refreshed (h : (elasticsearch E).Answer (.refresh n) s s' x)
    (hx : refreshIndexReply n x = .ok ()) : n ∈ s.indices ∧ s' = (s.refresh n).1 := by
  have hf : ¬ (Request.refresh n : Request D).Fault x := by
    cases x with
    | rejected e => rcases e with _ | _ | e <;> simp [refreshIndexReply, rejection, fail] at hx
    | transport => simp [refreshIndexReply, fail] at hx
    | _ => simp [Request.Fault]
  obtain ⟨rfl, hs⟩ := answer_served h hf
  refine ⟨?_, rfl⟩
  simp only [Store.serve, Store.refresh] at hs
  split at hs
  · next i hi => exact Store.mem_iff.mpr ⟨i, hi⟩
  · subst hs; simp [refreshIndexReply, noSuchIndex, Response.exception, rejection, fail] at hx

theorem joinBlock_ok (hx : (joinBlock x).toBool = true) :
    ∃ items stats, x = .items items ∧ items.foldlM countItem .default = .ok stats := by
  rw [joinBlock] at hx
  split at hx
  · next stats h =>
    cases x with
    | items items => exact ⟨items, stats, rfl, h⟩
    | _ => simp [bulkBlockReply, fail] at h
  all_goals simp [Except.toBool] at hx

theorem countItem_ok {stats stats' : InsertStats} {item : BulkStatus}
    (h : countItem stats item = .ok stats') : ∃ result, item.result = .ok result := by
  rw [countItem] at h
  split at h
  · simp [fail] at h
  all_goals exact ⟨_, by assumption⟩

theorem foldlM_countItem_ok {items : List BulkStatus} {stats stats' : InsertStats}
    (h : items.foldlM countItem stats = .ok stats') :
    ∀ item ∈ items, ∃ result, item.result = .ok result := by
  induction items generalizing stats with
  | nil => simp
  | cons item items ih =>
      rw [List.foldlM_cons] at h
      cases hc : countItem stats item with
      | error e => rw [hc] at h; cases h
      | ok next =>
          rw [hc] at h
          simp only [List.mem_cons, forall_eq_or_imp]
          exact ⟨countItem_ok hc, ih h⟩

theorem joined {ops : List (BulkOperation D)} (h : (elasticsearch E).Answer (.bulk n ops) s s' x)
    (hx : (joinBlock x).toBool = true) :
    s' = (s.bulk E n ops).1 ∧ (n ∈ s.indices →
      ∀ item ∈ (((s.indices[n]?).getD (.empty 1 1)).applyAll E ops).2,
        ∃ result, item.result = .ok result) := by
  obtain ⟨items, stats, rfl, hfold⟩ := joinBlock_ok hx
  obtain ⟨rfl, hs⟩ := answer_served h (by simp [Request.Fault])
  refine ⟨rfl, fun hn => ?_⟩
  simp only [Store.serve, Store.bulk, hn, true_or, if_true, Response.items.injEq] at hs
  rw [← hs]
  exact foldlM_countItem_ok hfold

theorem foldStats_ok {xs : List Response} {stats stats' : InsertStats}
    (h : xs.foldlM (fun acc x => (joinBlock x).map acc.add) stats = .ok stats') :
    ∀ x ∈ xs, (joinBlock x).toBool = true := by
  induction xs generalizing stats with
  | nil => simp
  | cons x xs ih =>
      rw [List.foldlM_cons] at h
      cases hj : joinBlock x with
      | error e => rw [hj] at h; cases h
      | ok next =>
          rw [hj] at h
          simp only [List.mem_cons, forall_eq_or_imp]
          exact ⟨by rw [hj]; rfl, ih h⟩

theorem foldStats_total {xs : List Response} (h : ∀ x ∈ xs, (joinBlock x).toBool = true)
    (stats : InsertStats) :
    ∃ stats', xs.foldlM (fun acc x => (joinBlock x).map acc.add) stats = .ok stats' := by
  induction xs generalizing stats with
  | nil => exact ⟨stats, rfl⟩
  | cons x xs ih =>
      simp only [List.mem_cons, forall_eq_or_imp] at h
      rw [List.foldlM_cons]
      cases hj : joinBlock x with
      | error e => rw [hj] at h; simp [Except.toBool] at h
      | ok next => exact ih h.2 (stats.add next)

end Internal

end Mimirsbrunn
