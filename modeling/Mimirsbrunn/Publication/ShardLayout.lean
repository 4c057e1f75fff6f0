import Mimirsbrunn.Publication.Rollback

namespace Mimirsbrunn
open Regex Std Internal Phase

-- The answer of a request that succeeds, where the force merge has merged `merged` shard copies.
def Succeeds {D : Type} (merged : Nat) : Request D → Response → Prop
  | .catIndices _, x => ∃ rows, x = .cat rows
  | .bulk _ _, x => ∃ items, x = .items items
  | .refresh _, x => x = .refreshed
  | .getAlias _, x => ∃ body, x = .aliases body
  | .forcemerge _ _, x => x = .shards (some merged)
  | _, x => x = .acknowledged (.value true)

-- The primary of every shard is merged, and the replicas that are allocated.
def ContainerConfig.Merges (config : ContainerConfig) (merged : Nat) : Prop :=
  config.number_of_shards ≤ merged ∧
    merged ≤ config.number_of_shards * (1 + config.number_of_replicas)

theorem forceMergeReply_shards (indices : List Text) {merged : Nat} :
    forceMergeReply indices (.shards (some merged)) = .ok () ↔ merged = 1 := by
  constructor
  · intro h
    unfold forceMergeReply at h
    split at h
    case h_4 he =>
      cases he
      rfl
    all_goals cases h
  · rintro rfl
    rfl

def mergeEnd (index : Index) (merged : Nat) : Except (Failure StorageError) Unit :=
  Es.mapFailure .forceMergeError (forceMergeReply [index.name] (.shards (some merged)))

theorem mergeEnd_ok (index : Index) {merged : Nat} :
    mergeEnd index merged = .ok () ↔ merged = 1 := by
  rw [← forceMergeReply_shards [index.name], mergeEnd]
  cases forceMergeReply [index.name] (.shards (some merged)) with
  | ok => simp [Es.mapFailure]
  | error e => cases e <;> simp [Es.mapFailure]

namespace Import

variable {D : Type} {i : Import D} {index : Index} {merged : Nat}
  {result : Except (Failure StorageError) Unit}

theorem merge_call (hm : i.storage.force_merge.enabled = true) :
    (i.merge index : Es D StorageError Unit) =
      Client.call (.forcemerge [index.name] i.storage.force_merge.max_number_segments) (fun x =>
        Client.done (Es.mapFailure .forceMergeError (forceMergeReply [index.name] x))) := by
  rw [merge, if_pos hm]
  rfl

theorem merge_answered (hm : i.storage.force_merge.enabled = true) :
    Client.Answered (Succeeds merged) (i.merge index) result ↔ result = mergeEnd index merged := by
  rw [merge_call hm, Client.answered_call]
  simp only [Succeeds, exists_eq_left, Client.answered_done, mergeEnd]

theorem drop_answered (hm : i.storage.force_merge.enabled = true) (todo : List Text) :
    Client.Answered (Succeeds merged) (i.drop index todo) result ↔
      result = mergeEnd index merged := by
  induction todo with
  | nil => exact merge_answered hm
  | cons n todo ih =>
      have hx : deleteIndexReply n (.acknowledged (.value true)) = .ok () := rfl
      rw [drop_cons, Client.answered_call]
      simp only [Succeeds, exists_eq_left, hx]
      exact ih

theorem move_answered (hm : i.storage.force_merge.enabled = true) (previous todo : List Text) :
    Client.Answered (Succeeds merged) (i.move index previous todo) result ↔
      result = mergeEnd index merged := by
  induction todo with
  | nil => exact drop_answered hm previous
  | cons a todo ih =>
      have hx : updateAliasReply a (.acknowledged (.value true)) = .ok () := rfl
      rw [move_cons, Client.answered_call]
      simp only [Succeeds, exists_eq_left, hx]
      exact ih

theorem list_answered (hm : i.storage.force_merge.enabled = true) :
    Client.Answered (Succeeds merged) (i.list index) result ↔ result = mergeEnd index merged := by
  have hx : ∀ body, ∃ found, findAliasesReply (pattern index) (.aliases body) = .ok found := by
    intro body
    cases body with
    | none => exact ⟨_, rfl⟩
    | some rows => exact ⟨_, rfl⟩
  rw [list_call, Client.answered_call]
  simp only [Succeeds]
  constructor
  · rintro ⟨_, ⟨body, rfl⟩, h⟩
    obtain ⟨found, hf⟩ := hx body
    simp only [hf] at h
    exact (move_answered hm _ _).mp h
  · intro h
    obtain ⟨found, hf⟩ := hx none
    refine ⟨.aliases none, ⟨none, rfl⟩, ?_⟩
    simp only [hf]
    exact (move_answered hm _ _).mpr h

theorem publish_answered (hm : i.storage.force_merge.enabled = true) :
    Client.Answered (Succeeds merged)
        (Storage.publishIndex i.storage index i.config.visibility : Es D StorageError Unit) result ↔
      result = mergeEnd index merged := by
  have hx : refreshIndexReply index.name .refreshed = .ok () := rfl
  rw [publishIndex_call, Client.answered_call]
  simp only [Succeeds, exists_eq_left, hx]
  exact list_answered hm

def PublishesOk (i : Import D) (index : Index) (merged : Nat) : Prop :=
  ∀ result, Client.Answered (Succeeds merged)
    (Storage.publishIndex i.storage index i.config.visibility : Es D StorageError Unit) result ↔
      result = .ok ()

theorem publishesOk_iff (hm : i.storage.force_merge.enabled = true) :
    i.PublishesOk index merged ↔ merged = 1 := by
  rw [← mergeEnd_ok index]
  constructor
  · intro h
    exact (h _).mp ((publish_answered hm).mpr rfl)
  · intro hend result
    rw [publish_answered hm, hend]

end Import

namespace ContainerConfig

variable {config : ContainerConfig}

theorem merges_primaries : config.Merges config.number_of_shards :=
  ⟨Nat.le_refl _, Nat.le_mul_of_pos_right _ (by omega)⟩

theorem merges_all : config.Merges (config.number_of_shards * (1 + config.number_of_replicas)) :=
  ⟨Nat.le_mul_of_pos_right _ (by omega), Nat.le_refl _⟩

theorem merges_one_iff :
    (∀ merged, config.Merges merged → merged = 1) ↔
      config.number_of_shards = 1 ∧ config.number_of_replicas = 0 := by
  constructor
  · intro h
    have hall := h _ merges_all
    exact ⟨h _ merges_primaries, by rw [h _ merges_primaries] at hall; omega⟩
  · rintro ⟨hone, hnone⟩ merged ⟨hle, hge⟩
    rw [hone] at hle
    rw [hone, hnone] at hge
    omega

end ContainerConfig

theorem published_layouts {D : Type} {i : Import D} {index : Index}
    (hm : i.storage.force_merge.enabled = true) :
    ((∀ merged, i.config.Merges merged → i.PublishesOk index merged) ↔
        i.config.number_of_shards = 1 ∧ i.config.number_of_replicas = 0) ∧
      ∀ merged, i.PublishesOk index merged ↔ merged = 1 := by
  refine ⟨?_, fun merged => Import.publishesOk_iff hm⟩
  simp only [Import.publishesOk_iff hm]
  exact ContainerConfig.merges_one_iff

def Import.laidOut (number_of_shards number_of_replicas : Nat) : Import Poi where
  storage := ⟨1000, "1m".toList, 8, 100, ⟨true, 1⟩⟩
  config := ⟨"poi".toList, "fr".toList, .Public, number_of_shards, number_of_replicas⟩
  now := .utc 2021 5 5 0 0 0 0
  documents := []

theorem published_default_layout :
    (Import.laidOut 1 0).config.Merges 1 ∧ (Import.laidOut 1 0).PublishesOk newFr 1 :=
  ⟨ContainerConfig.merges_all,
    (published_layouts rfl).1.mpr ⟨rfl, rfl⟩ 1 ContainerConfig.merges_all⟩

theorem nine_replicas_unpublished :
    (Import.laidOut 1 9).config.Merges 10 ∧ ¬ (Import.laidOut 1 9).PublishesOk newFr 10 := by
  refine ⟨ContainerConfig.merges_all, fun h => ?_⟩
  have hone := (Import.publishesOk_iff rfl).mp h
  contradiction

namespace Store

variable {D : Type} {E : Engine D} {s s' : Store D} {n : Text} {copies : Nat}

def copiesOf (s : Store D) (n : Text) : Option Nat := (s.indices[n]?).map EsIndex.shardCopies

theorem mem_of_copiesOf (h : s.copiesOf n = some copies) : n ∈ s.indices := by
  obtain ⟨i, hi, _⟩ := Option.map_eq_some_iff.mp h
  exact mem_iff.mpr ⟨i, hi⟩

theorem copiesOf_createIndex (shards replicas : Nat) (hn : n ∉ s.indices)
    (ha : E.accepts n = true) :
    (s.createIndex E n shards replicas).1.copiesOf n = some (shards * (1 + replicas)) := by
  simp [copiesOf, getElem?_createIndex, hn, ha, EsIndex.empty, EsIndex.shardCopies]

theorem shardCopies_apply (i : EsIndex D) (op : BulkOperation D) :
    (i.apply E op).1.shardCopies = i.shardCopies := by
  cases op with
  | index id d => simp only [EsIndex.apply]; split <;> rfl
  | update id op => simp only [EsIndex.apply]; split <;> (try split) <;> rfl

theorem shardCopies_applyAll (i : EsIndex D) (ops : List (BulkOperation D)) :
    (i.applyAll E ops).1.shardCopies = i.shardCopies := by
  induction ops generalizing i with
  | nil => rfl
  | cons op ops ih => rw [EsIndex.applyAll, ih, shardCopies_apply]

theorem copiesOf_bulk (m : Text) (ops : List (BulkOperation D)) (h : s.copiesOf n = some copies) :
    (s.bulk E m ops).1.copiesOf n = some copies := by
  rw [copiesOf, getElem?_bulk]
  split
  · next hm =>
    obtain ⟨i, hi, hc⟩ := Option.map_eq_some_iff.mp h
    rw [← hm.1, hi, Option.getD_some, Option.map_some, shardCopies_applyAll, hc]
  · exact h

theorem copiesOf_refresh (m : Text) : (s.refresh m).1.copiesOf n = s.copiesOf n := by
  rw [copiesOf, getElem?_refresh]
  split
  · next hm =>
    subst hm
    rw [Option.map_map]
    rfl
  · rfl

theorem copiesOf_updateAliases (actions : List AliasAction) :
    (s.updateAliases actions).1.copiesOf n = s.copiesOf n := by
  rcases updateAliases_cases actions s with ⟨_, he, _⟩ | ⟨he, _⟩
  · rw [he]
  · rw [he]
    exact map_foldl_act (fun _ _ => rfl) (fun _ _ => rfl) actions s

theorem copiesOf_deleteIndex {m : Text} (hm : m ≠ n) :
    (s.deleteIndex m).1.copiesOf n = s.copiesOf n := by
  rw [copiesOf, getElem?_deleteIndex, if_neg (fun h => hm h.symm), copiesOf]

theorem copiesOf_serve {r : Request D} (hr : r ≠ .deleteIndex n)
    (h : s.copiesOf n = some copies) : (s.serve E r).1.copiesOf n = some copies := by
  cases r with
  | createIndex m shards replicas =>
      simp only [serve, copiesOf, getElem?_createIndex]
      split
      · next hm => exact absurd (mem_of_copiesOf h) (hm.1 ▸ hm.2.1)
      · exact h
  | catIndices m => exact h
  | putPipeline name => exact h
  | bulk m ops => exact copiesOf_bulk m ops h
  | refresh m => exact (copiesOf_refresh m).trans h
  | getAlias p => exact h
  | updateAliases actions => exact (copiesOf_updateAliases actions).trans h
  | deleteIndex m =>
    exact (copiesOf_deleteIndex (fun he => hr (congrArg Request.deleteIndex he))).trans h
  | forcemerge ns max => exact h

theorem copiesOf_answer {r : Request D} {x : Response} (ha : (elasticsearch E).Answer r s s' x)
    (hr : r ≠ .deleteIndex n) (h : s.copiesOf n = some copies) : s'.copiesOf n = some copies := by
  rcases answer_cases ha with rfl | rfl | ⟨m, ops, k, rfl, rfl⟩
  · exact h
  · exact copiesOf_serve hr h
  · exact copiesOf_bulk m _ h

theorem forcemerge_served (h : s.copiesOf n = some copies) :
    s.forcemerge [n] = .shards (some copies) := by
  obtain ⟨i, hi, hc⟩ := Option.map_eq_some_iff.mp h
  have hmissing : s.missing [n] = none :=
    missing_eq_none.mpr (by simpa using mem_of_copiesOf h)
  simp [forcemerge, hmissing, hi, hc]

end Store

section

variable {D : Type} {E : Engine D} {i : Import D} {index : Index} {s₀ s : Store D} {copies n : Nat}
  {previous done gone : List Text}

theorem merge_served (hm : i.storage.force_merge.enabled = true)
    (hc : s.copiesOf index.name = some copies) :
    ((elasticsearch E).exec (fun _ => .served) n s (i.merge index)).2 =
      (s, mergeEnd index copies) := by
  rw [Import.merge_call hm, Service.exec_served]
  have hx : ((elasticsearch E).serve
      (.forcemerge [index.name] i.storage.force_merge.max_number_segments) s).2 =
        .shards (some copies) := Store.forcemerge_served hc
  rw [hx]
  rfl

theorem drop_served (hm : i.storage.force_merge.enabled = true) {todo : List Text}
    (hc : s.copiesOf index.name = some copies) (hin : ∀ m ∈ todo, m ∈ s.indices)
    (hnd : todo.Nodup) (hnot : index.name ∉ todo)
    (hmv : Moved index.name s₀ s previous done gone) :
    ∃ s', ((elasticsearch E).exec (fun _ => .served) n s (i.drop index todo)).2 =
        (s', mergeEnd index copies) ∧
      Moved index.name s₀ s' previous done (gone ++ todo) := by
  induction todo generalizing n s gone with
  | nil => exact ⟨s, merge_served hm hc, by rwa [List.append_nil]⟩
  | cons k todo ih =>
      simp only [List.mem_cons, not_or, forall_eq_or_imp] at hin hnot
      obtain ⟨hk, hnd⟩ := List.nodup_cons.mp hnd
      have hx : deleteIndexReply k ((elasticsearch E).serve (.deleteIndex k) s).2 = .ok () :=
        deleteIndex_served hin.1
      rw [Import.drop_cons, Service.exec_served, hx]
      have hc' := (Store.copiesOf_deleteIndex (s := s) (Ne.symm hnot.1)).trans hc
      obtain ⟨s', hs', hmv'⟩ := ih hc'
        (fun m hmt => Store.mem_deleteIndex.mpr ⟨hin.2 m hmt, fun he => hk (he ▸ hmt)⟩) hnd hnot.2
        (hmv.delete (k := k))
      exact ⟨s', hs', by simpa using hmv'⟩

theorem move_served (hm : i.storage.force_merge.enabled = true) (todo : List Text)
    (hc : s.copiesOf index.name = some copies) (hin : ∀ m ∈ previous, m ∈ s.indices)
    (hnd : previous.Nodup) (hnot : index.name ∉ previous)
    (hmv : Moved index.name s₀ s previous done []) :
    ∃ s', ((elasticsearch E).exec (fun _ => .served) n s (i.move index previous todo)).2 =
        (s', mergeEnd index copies) ∧
      Moved index.name s₀ s' previous (done ++ todo) previous := by
  induction todo generalizing n s done with
  | nil =>
      obtain ⟨s', hs', hmv'⟩ := drop_served (n := n) hm hc hin hnd hnot hmv
      exact ⟨s', hs', by simpa using hmv'⟩
  | cons a todo ih =>
      have hn := Store.mem_of_copiesOf hc
      have hx : updateAliasReply a ((elasticsearch E).serve
          (.updateAliases (aliasActions a [index.name] previous)) s).2 = .ok () :=
        updateAliases_served hn hin
      have hs : ((elasticsearch E).serve
          (.updateAliases (aliasActions a [index.name] previous)) s).1 =
            (aliasActions a [index.name] previous).foldl Store.act s :=
        (aliased .served hx).1
      have hc' := (Store.copiesOf_updateAliases (aliasActions a [index.name] previous)).trans hc
      have hin' : ∀ m ∈ previous, m ∈ ((elasticsearch E).serve
          (.updateAliases (aliasActions a [index.name] previous)) s).1.indices := fun m hmp => by
        rw [hs]
        exact (Store.foldl_act_mem _ s).mpr (hin m hmp)
      rw [Import.move_cons, Service.exec_served, hx]
      obtain ⟨s', hs', hmv'⟩ := ih hc' hin' (hs ▸ hmv.switch hn hnot)
      exact ⟨s', hs', by simpa using hmv'⟩

theorem list_served (hm : i.storage.force_merge.enabled = true)
    (hc : s.copiesOf index.name = some copies) :
    ∃ previous s', (∀ m, m ∈ previous ↔
        m ∈ s.indices ∧ glob (pattern index) m = true ∧ m ≠ index.name) ∧
      ((elasticsearch E).exec (fun _ => .served) n s (i.list index)).2 =
        (s', mergeEnd index copies) ∧
      Moved index.name s s' previous (i.plan index) previous := by
  obtain ⟨found', hx, hmem⟩ := getAlias_served s index
  have hserved : findAliasesReply (pattern index)
      ((elasticsearch E).serve (.getAlias (pattern index)) s).2 = .ok found' := hx
  rw [Import.list_call, Service.exec_served, hserved]
  obtain ⟨s', hs', hmv⟩ := move_served (E := E) (n := n + 1) hm (i.plan index) hc
    (fun m h => ((hmem m).mp h).1) (nodup_previousOf index found') (fun h => ((hmem _).mp h).2.2 rfl)
    ((Moved.refl (Store.mem_of_copiesOf hc)).relist (previousOf index found'))
  exact ⟨_, s', hmem, hs', by simpa using hmv⟩

-- The aliases have moved and the previous indices are deleted when the shard copies are counted.
theorem publish_served (hm : i.storage.force_merge.enabled = true)
    (hc : s.copiesOf index.name = some copies) :
    ∃ previous s', (∀ m, m ∈ previous ↔
        m ∈ s.indices ∧ glob (pattern index) m = true ∧ m ≠ index.name) ∧
      ((elasticsearch E).exec (fun _ => .served) 0 s
        (Storage.publishIndex i.storage index i.config.visibility)).2 =
          (s', mergeEnd index copies) ∧
      Moved index.name s s' previous (i.plan index) previous := by
  have hag : s.Agree (s.refresh index.name).1 := Store.agree_refresh
  have hx : refreshIndexReply index.name ((elasticsearch E).serve (.refresh index.name) s).2 =
      .ok () := refresh_served (Store.mem_of_copiesOf hc)
  rw [Import.publishIndex_call, Service.exec_served, hx]
  obtain ⟨previous, s', hmem, hs', hmv⟩ := list_served (E := E) (n := 1) hm
    ((Store.copiesOf_refresh index.name).trans hc)
  exact ⟨previous, s', fun m => by rw [hmem, hag.mem], hs', hmv.rebase hag⟩

end

def Import.copies {D : Type} (i : Import D) : Nat :=
  i.config.number_of_shards * (1 + i.config.number_of_replicas)

namespace Phase

variable {D : Type} [Document D] {E : Engine D} {i : Import D} {index : Index}
  {s₀ s s' s'' : Store D} {r : Request D} {x : Response}

def SingleCopy (i : Import D) : Prop := i.storage.force_merge.enabled = true → i.copies = 1

def Laid (i : Import D) (s : Store D) : Phase D → Prop
  | .creating => True
  | .locating _ => SingleCopy i
  | .ended (.ok _) => SingleCopy i
  | .ended (.error _) => True
  | _ => s.copiesOf i.indexName = some i.copies

omit [Document D] in
theorem laid_stop (wrap : Error → ModelError) (e : Failure Error) :
    (Import.stop wrap e : Phase D).Laid i s := by
  cases e <;> trivial

omit [Document D] in
theorem laid_startMerging (h : s.copiesOf i.indexName = some i.copies) :
    (i.startMerging index).Laid i s := by
  rw [Import.startMerging]
  split
  · exact h
  · next hm => exact fun he => absurd he hm

omit [Document D] in
theorem laid_startDeleting (h : s.copiesOf i.indexName = some i.copies) (todo : List Text) :
    (i.startDeleting index todo).Laid i s := by
  cases todo with
  | nil => exact laid_startMerging h
  | cons n todo => exact h

omit [Document D] in
theorem laid_startMoving (h : s.copiesOf i.indexName = some i.copies)
    (previous todo : List Text) : (i.startMoving index previous todo).Laid i s := by
  cases todo with
  | nil => exact laid_startDeleting h previous
  | cons a todo => exact h

omit [Document D] in
theorem laid_resumeFilling (h : s.copiesOf i.indexName = some i.copies) (good : Bool)
    (pending : List (Request D)) (answers : List Response) :
    (Import.resumeFilling index good pending answers).Laid i s := by
  rw [Import.resumeFilling]
  split
  · exact h
  · split
    · exact h
    · exact laid_stop _ _

theorem laid_startFilling (h : s.copiesOf i.indexName = some i.copies) :
    (i.startFilling index).Laid i s := by
  rw [Import.startFilling]
  split
  · trivial
  · exact laid_resumeFilling h _ _ _

omit [Document D] in
theorem merged {n : Text} {max : Int} {copies : Nat}
    (ha : (elasticsearch E).Answer (.forcemerge [n] max) s s' x)
    (hc : s.copiesOf n = some copies) (hx : forceMergeReply [n] x = .ok ()) : copies = 1 := by
  unfold forceMergeReply at hx
  split at hx
  case h_4 =>
    obtain ⟨_, hs⟩ := answer_served ha (by simp [Request.Fault])
    rw [Store.serve, Store.forcemerge_served hc] at hs
    exact (Option.some.inj (Response.shards.inj hs)).symm
  all_goals cases hx

theorem laid_fill {pre post : List (Request D)} {answers : List Response}
    (hh : (Phase.filling index (pre ++ r :: post) answers).Holding i (s.contentOf i.indexName))
    (hl : s.copiesOf i.indexName = some i.copies) (ha : (elasticsearch E).Answer r s s' x)
    (hsp : (elasticsearch E).Spill (if (joinBlock x).toBool then [] else
        (pre ++ post).take (i.storage.insertion_concurrent_requests - 1)) s' s'') :
    (Import.resumeFilling index (joinBlock x).toBool (pre ++ post) (answers ++ [x])).Laid i s'' := by
  refine laid_resumeFilling (Service.window_invariant
    (fun t => t.copiesOf i.indexName = some i.copies) (fun q hq t t' y hy ht => ?_)
    (fun _ _ _ => answer_of_cut) ha hsp hl) _ _ _
  obtain ⟨ops, rfl⟩ := bulk_of_filling hh q hq
  exact Store.copiesOf_answer hy (by simp) ht

theorem laid_step {ph ph' : Phase D} (h : Step E i s ph r x s' ph')
    (hh : ph.Holding i (s.contentOf i.indexName)) (hl : ph.Laid i s) : ph'.Laid i s' := by
  cases h with
  | fill _ ha hsp => exact laid_fill hh hl ha hsp
  | call hr ha =>
    cases ph with
    | filling => simp [request] at hr
    | ended => simp [request] at hr
    | creating =>
        obtain rfl := Option.some.inj hr
        simp only [next]
        split
        · next hx =>
          obtain ⟨hn, hacc, rfl⟩ := created ha hx
          exact Store.copiesOf_createIndex _ _ hn hacc
        · exact laid_stop _ _
    | finding =>
        obtain rfl := Option.some.inj hr
        have hl' := Store.copiesOf_answer ha (by simp) hl
        simp only [next]
        split
        · exact hl'
        · exact laid_stop _ _
        · exact laid_stop _ _
    | piping index =>
        obtain rfl := Option.some.inj hr
        have hl' := Store.copiesOf_answer ha (by simp) hl
        simp only [next]
        split
        · exact laid_startFilling hl'
        · exact laid_stop _ _
    | refreshing index =>
        obtain rfl := Option.some.inj hr
        have hl' := Store.copiesOf_answer ha (by simp) hl
        simp only [next]
        split
        · exact hl'
        · exact laid_stop _ _
    | listing index =>
        obtain rfl := Option.some.inj hr
        have hl' := Store.copiesOf_answer ha (by simp) hl
        simp only [next]
        split
        · exact laid_startMoving hl' _ _
        · exact laid_stop _ _
    | moving index previous a todo =>
        obtain rfl := Option.some.inj hr
        have hl' := Store.copiesOf_answer ha (by simp) hl
        simp only [next]
        split
        · exact laid_startMoving hl' _ _
        · exact laid_stop _ _
    | deleting index n todo =>
        obtain rfl := Option.some.inj hr
        have hne : n ≠ i.indexName := fun he => hh.2 (he ▸ List.mem_cons_self)
        have hl' := Store.copiesOf_answer ha (by simpa using hne) hl
        simp only [next]
        split
        · exact laid_startDeleting hl' _
        · exact laid_stop _ _
    | merging index =>
        obtain rfl := Option.some.inj hr
        simp only [next]
        split
        · next hx => exact fun _ => merged ha (by rw [hh.1.1]; exact hl) hx
        · exact laid_stop _ _
    | locating index =>
        obtain rfl := Option.some.inj hr
        simp only [next]
        split
        · exact hl
        · trivial
        · exact laid_stop _ _

theorem import_ok_layout (hm : i.storage.force_merge.enabled = true)
    (h : (elasticsearch E).Reach (s₀, i.run) (s, Client.done (.ok index))) :
    i.config.number_of_shards = 1 ∧ i.config.number_of_replicas = 0 := by
  obtain ⟨ph, hc, _, hl⟩ := reach_phase
    (fun s ph => ph.Holding i (s.contentOf i.indexName) ∧ ph.Laid i s) ⟨trivial, trivial⟩
    (fun s ph r x s' ph' hI hs => ⟨holding_step hs hI.1, laid_step hs hI.1 hI.2⟩) h
  obtain rfl := client_done hc.symm
  have hcopies : 1 + i.config.number_of_replicas = 1 := Nat.eq_one_of_mul_eq_one_left (hl hm)
  exact ⟨Nat.eq_one_of_mul_eq_one_right (hl hm), by omega⟩

end Phase

end Mimirsbrunn
