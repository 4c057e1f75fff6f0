import Mathlib.Data.Prod.Lex
import Mimirsbrunn.Publication.Progress

namespace Mimirsbrunn
open Regex Std Internal

section

variable {D : Type} {E : Engine D} {s : Store D} {n : Text}

theorem createIndex_served (shards replicas : Nat) (hn : n ∉ s.indices)
    (ha : E.accepts n = true) :
    createIndexReply n (s.createIndex E n shards replicas).2 = .ok () := by
  simp only [Store.createIndex, hn, ha, if_false, if_true]
  rfl

theorem catIndices_served {docs searchable : TreeMap Text D} {docType dataset : Text}
    (hc : s.contentOf n = some (docs, searchable)) (hsize : searchable.size < 2 ^ 32)
    (hsplit : splitIndexName n = .ok (docType, dataset)) :
    ∃ index, findIndexReply n (s.catIndices n) = .ok (some index) := by
  obtain ⟨i, hi, hd⟩ := Option.map_eq_some_iff.mp hc
  obtain ⟨rfl, rfl⟩ := Prod.mk.inj hd
  refine ⟨⟨n, dataset, docType, i.searchable.size, .Available⟩, ?_⟩
  simp only [Store.catIndices, hi, findIndexReply, List.getLast?_singleton, Index.tryFrom, hsplit,
    hsize, if_true]
  rfl

theorem countItem_served (stats : InsertStats) {items : List BulkStatus}
    (h : ∀ item ∈ items, item.result = .ok .Created ∨ item.result = .ok .Updated) :
    ∃ stats', items.foldlM countItem stats = .ok stats' := by
  induction items generalizing stats with
  | nil => exact ⟨stats, rfl⟩
  | cons item items ih =>
      simp only [List.mem_cons, forall_eq_or_imp] at h
      rw [List.foldlM_cons]
      rcases h.1 with hr | hr
      · simp only [countItem, hr]
        exact ih _ h.2
      · simp only [countItem, hr]
        exact ih _ h.2

theorem applyAll_served {ops : List (BulkOperation D)}
    (h : ∀ op ∈ ops, ∃ id d, op = .index id d ∧ E.parses d = true) (i : EsIndex D) :
    ∀ item ∈ (i.applyAll E ops).2, item.result = .ok .Created ∨ item.result = .ok .Updated := by
  induction ops generalizing i with
  | nil => simp [EsIndex.applyAll]
  | cons op ops ih =>
      simp only [List.mem_cons, forall_eq_or_imp] at h
      obtain ⟨⟨id, d, rfl, hd⟩, hops⟩ := h
      simp only [EsIndex.applyAll, List.mem_cons, forall_eq_or_imp]
      refine ⟨?_, ih hops _⟩
      simp only [EsIndex.apply, hd, if_true]
      by_cases hid : id ∈ i.docs <;> simp [hid]

theorem bulk_served {ops : List (BulkOperation D)} (hn : n ∈ s.indices)
    (h : ∀ op ∈ ops, ∃ id d, op = .index id d ∧ E.parses d = true) :
    (joinBlock (s.bulk E n ops).2).toBool = true := by
  simp only [Store.bulk, hn, true_or, if_true, joinBlock, bulkBlockReply]
  obtain ⟨stats, hs⟩ := countItem_served .default
    (applyAll_served h ((s.indices[n]?).getD (.empty 1 1)))
  rw [hs]
  rfl

theorem refresh_served (hn : n ∈ s.indices) : refreshIndexReply n (s.refresh n).2 = .ok () := by
  obtain ⟨i, hi⟩ := Store.mem_iff.mp hn
  simp only [Store.refresh, hi]
  rfl

theorem updateAliases_served {a : Text} {previous : List Text} (hn : n ∈ s.indices)
    (hp : ∀ m ∈ previous, m ∈ s.indices) :
    updateAliasReply a (s.updateAliases (aliasActions a [n] previous)).2 = .ok () := by
  rcases Store.updateAliases_cases (aliasActions a [n] previous) s with
    ⟨k, _, action, ha, hk, hk'⟩ | ⟨he, _⟩
  · exact absurd (Store.aliasActions_mem.mpr ⟨hn, hp⟩ action ha k hk) hk'
  · rw [he]
    rfl

theorem deleteIndex_served (hn : n ∈ s.indices) :
    deleteIndexReply n (s.deleteIndex n).2 = .ok () := by
  simp only [Store.deleteIndex, hn, if_true]
  rfl

end

variable {D : Type}

structure Smooth (E : Engine D) (i : Import D) : Prop where
  accepted : E.accepts i.indexName = true
  decoded : ∃ docType dataset, splitIndexName i.indexName = .ok (docType, dataset)
  parsed : ∀ d ∈ i.documents, E.parses d = true
  chunk : 0 < i.storage.insertion_chunk_size
  window : 0 < i.storage.insertion_concurrent_requests
  unmerged : i.storage.force_merge.enabled = false
  few : i.documents.length < 2 ^ 32

namespace Phase

variable {E : Engine D} {i : Import D} {s₀ s : Store D}

def Calm : Phase D → Prop
  | .filling _ pending _ => pending ≠ []
  | .merging _ => False
  | .ended (.error _) => False
  | _ => True

def rank : Phase D → ℕ ×ₗ ℕ
  | .creating => toLex (9, 0)
  | .finding => toLex (8, 0)
  | .piping _ => toLex (7, 0)
  | .filling _ pending _ => toLex (6, pending.length)
  | .refreshing _ => toLex (5, 0)
  | .listing _ => toLex (4, 0)
  | .moving _ _ _ todo => toLex (3, todo.length + 1)
  | .deleting _ _ todo => toLex (2, todo.length + 1)
  | .merging _ => toLex (1, 1)
  | .locating _ => toLex (1, 0)
  | .ended _ => toLex (0, 0)

theorem rank_lt {a b c d : ℕ} (h : a < c ∨ a = c ∧ b < d) : toLex (a, b) < toLex (c, d) :=
  Prod.Lex.toLex_lt_toLex.mpr h

theorem startMerging_ahead (index : Index) (hs : Smooth E i) :
    (i.startMerging index).Calm ∧ (i.startMerging index).rank = toLex (1, 0) := by
  simp [Import.startMerging, hs.unmerged, Calm, rank]

theorem startDeleting_ahead (index : Index) (todo : List Text) (hs : Smooth E i) :
    (i.startDeleting index todo).Calm ∧
      (i.startDeleting index todo).rank < toLex (2, todo.length + 1) := by
  cases todo with
  | nil =>
      obtain ⟨hc, hr⟩ := startMerging_ahead index hs
      exact ⟨hc, hr ▸ rank_lt (by simp)⟩
  | cons n todo => exact ⟨trivial, rank_lt (by simp)⟩

theorem startMoving_ahead (index : Index) (previous todo : List Text) (hs : Smooth E i) :
    (i.startMoving index previous todo).Calm ∧
      (i.startMoving index previous todo).rank < toLex (3, todo.length + 1) := by
  cases todo with
  | nil =>
      obtain ⟨hc, hr⟩ := startDeleting_ahead index previous hs
      exact ⟨hc, hr.trans (rank_lt (by simp))⟩
  | cons a todo => exact ⟨trivial, rank_lt (by simp)⟩

theorem resumeFilling_ahead (index : Index) (pending : List (Request D)) {answers : List Response}
    (ha : ∀ x ∈ answers, (joinBlock x).toBool = true) :
    (Import.resumeFilling index true pending answers).Calm ∧
      (Import.resumeFilling index true pending answers).rank < toLex (6, pending.length + 1) := by
  rw [Import.resumeFilling]
  split
  · next h =>
    refine ⟨fun hp => ?_, rank_lt (by simp)⟩
    simp [hp] at h
  · obtain ⟨stats, hst⟩ := foldStats_total ha .default
    rw [foldStats, hst]
    exact ⟨trivial, rank_lt (by simp)⟩

variable [Document D]

theorem size_le_of_holds {documents : List D} {t : TreeMap Text D} (h : Holds documents t) :
    t.size ≤ documents.length := by
  have hsub : t.keys ⊆ documents.map Document.id := by
    intro k hk
    obtain ⟨d, hd⟩ := Option.isSome_iff_exists.mp
      (TreeMap.mem_iff_isSome_getElem?.mp (TreeMap.mem_keys.mp hk))
    obtain ⟨hm, rfl⟩ := h.sound k d hd
    exact List.mem_map_of_mem hm
  have hle := (TreeMap.nodup_keys (t := t)).length_le_of_subset hsub
  rwa [TreeMap.length_keys, List.length_map] at hle

theorem calm_step {ph : Phase D} (hs : Smooth E i) (hf : i.indexName ∉ s₀.indices)
    (hc : ph.Calm) (hh : ph.Holding i (s.contentOf i.indexName)) (hp : ph.Progress i s₀ s)
    (hne : ∀ result, ph ≠ .ended result) :
    ∃ r x s' ph', Step E i s ph r x s' ph' ∧ ph'.Calm ∧ ph'.rank < ph.rank := by
  obtain ⟨docType, dataset, hsplit⟩ := hs.decoded
  cases ph with
  | ended result => exact absurd rfl (hne result)
  | merging => exact absurd hc id
  | creating =>
      obtain rfl : s = s₀ := hp
      refine ⟨_, _, _, _, .call rfl .served, ?_⟩
      have hx := createIndex_served i.config.number_of_shards i.config.number_of_replicas hf
        hs.accepted
      simp only [next, elasticsearch, Store.serve, hx]
      exact ⟨trivial, rank_lt (by simp)⟩
  | finding =>
      refine ⟨_, _, _, _, .call rfl .served, ?_⟩
      obtain ⟨index, hx⟩ := catIndices_served hh (by simp) hsplit
      simp only [next, elasticsearch, Store.serve, hx]
      exact ⟨trivial, rank_lt (by simp)⟩
  | piping index =>
      refine ⟨_, _, _, _, .call rfl .served, ?_⟩
      have hx : addPipelineReply "indexed_at".toList (.acknowledged (.value true)) = .ok () := rfl
      simp only [next, elasticsearch, Store.serve, hx]
      have hchunk : i.storage.insertion_chunk_size ≠ 0 := Nat.pos_iff_ne_zero.mp hs.chunk
      simp only [Import.startFilling, hchunk, if_false]
      obtain ⟨hcalm, hr⟩ := resumeFilling_ahead index (i.chunkRequests index)
        (show ∀ x ∈ ([] : List Response), (joinBlock x).toBool = true by simp)
      exact ⟨hcalm, hr.trans (rank_lt (by simp))⟩
  | filling index pending answers =>
      obtain ⟨r, post, rfl⟩ := List.exists_cons_of_ne_nil hc
      obtain ⟨hi, chunks, docs, hcont, hpend, hw, _, _, hans⟩ := hh
      obtain ⟨ops, rest, rfl, rfl, rfl⟩ := List.map_eq_cons_iff.mp hpend.symm
      have hn : index.name ∈ s.indices := hi.1 ▸ created_mem hp
      have hx : (joinBlock (s.bulk E index.name ops).2).toBool = true :=
        bulk_served hn (fun op hop => by
          obtain ⟨d, hd, rfl⟩ := hw ops (by simp) op hop
          exact ⟨_, d, rfl, hs.parsed d hd⟩)
      refine ⟨_, _, (s.bulk E index.name ops).1, _,
        .fill (show ([] : List (Request D)).length < _ by simpa using hs.window) .served ?_, ?_⟩
      · simp only [elasticsearch, Store.serve, hx, if_true]
        exact .nil
      · simp only [elasticsearch, Store.serve, hx]
        have hall : ∀ x ∈ answers ++ [(s.bulk E index.name ops).2],
            (joinBlock x).toBool = true := by
          intro x hxm
          rcases List.mem_append.mp hxm with hxm | hxm
          · exact hans x hxm
          · rw [List.mem_singleton.mp hxm]; exact hx
        obtain ⟨hcalm, hr⟩ := resumeFilling_ahead index
          ([] ++ rest.map (Request.bulk index.name)) hall
        refine ⟨hcalm, hr.trans_le ?_⟩
        simp [rank]
  | refreshing index =>
      refine ⟨_, _, _, _, .call rfl .served, ?_⟩
      have hx := refresh_served (s := s) (n := index.name) (hh.1.1 ▸ created_mem hp)
      simp only [next, elasticsearch, Store.serve, hx]
      exact ⟨trivial, rank_lt (by simp)⟩
  | listing index =>
      refine ⟨_, _, _, _, .call rfl .served, ?_⟩
      simp only [next, elasticsearch, Store.serve, Store.getAlias, findAliasesReply]
      obtain ⟨hcalm, hr⟩ := startMoving_ahead index (previousOf index _) (i.plan index) hs
      exact ⟨hcalm, hr.trans (rank_lt (by simp))⟩
  | moving index previous a todo =>
      obtain ⟨done, hsw⟩ := hp
      refine ⟨_, _, _, _, .call rfl .served, ?_⟩
      have hprev : ∀ m ∈ previous, m ∈ s.indices := fun m hm =>
        (hsw.moved.mem m).mpr ⟨.inl ((hsw.listed.mem m).mp hm).1, by simp⟩
      have hx := updateAliases_served (a := a) (hsw.named.1 ▸ switched_mem hsw) hprev
      simp only [next, elasticsearch, Store.serve, hx]
      exact startMoving_ahead index previous todo hs
  | deleting index n todo =>
      obtain ⟨previous, gone, hsw⟩ := hp
      refine ⟨_, _, _, _, .call rfl .served, ?_⟩
      have hn : n ∈ s.indices := by
        have hm : n ∈ previous := by rw [hsw.split]; simp
        have hnd := hsw.listed.nodup
        rw [hsw.split] at hnd
        refine (hsw.moved.mem n).mpr ⟨.inl ((hsw.listed.mem n).mp hm).1, fun hg => ?_⟩
        exact (List.nodup_append.mp hnd).2.2 n hg n (by simp) rfl
      have hx := deleteIndex_served hn
      simp only [next, elasticsearch, Store.serve, hx]
      exact startDeleting_ahead index todo hs
  | locating index =>
      refine ⟨_, _, _, _, .call rfl .served, ?_⟩
      obtain ⟨hi, docs, hcont, hd⟩ := hh
      rw [← hi.1] at hcont hsplit
      obtain ⟨index', hx⟩ := catIndices_served hcont ((size_le_of_holds hd).trans_lt hs.few) hsplit
      simp only [next, elasticsearch, Store.serve, hx]
      exact ⟨trivial, rank_lt (by simp)⟩

theorem calm_ends {ph : Phase D} (hs : Smooth E i) (hf : i.indexName ∉ s₀.indices)
    (hc : ph.Calm) (hh : ph.Holding i (s.contentOf i.indexName)) (hp : ph.Progress i s₀ s) :
    ∃ s' index, (elasticsearch E).Reach (s, ph.client i) (s', Client.done (.ok index)) := by
  induction hr : ph.rank using WellFoundedLT.induction generalizing s ph with
  | ind o ih =>
    by_cases hne : ∀ result, ph ≠ .ended result
    · obtain ⟨r, x, s', ph', hst, hc', hlt⟩ := calm_step hs hf hc hh hp hne
      obtain ⟨s'', index, hreach⟩ := ih _ (hr ▸ hlt) hc' (holding_step hst hh)
        (progress_step hst hh hp) rfl
      exact ⟨s'', index, .head ⟨r, x, hst.client⟩ hreach⟩
    · simp only [not_forall, not_not] at hne
      obtain ⟨result, rfl⟩ := hne
      cases result with
      | error e => exact absurd hc id
      | ok index => exact ⟨s, index, .refl⟩

theorem import_completes (hs : Smooth E i) (hf : i.indexName ∉ s₀.indices) :
    ∃ s index, (elasticsearch E).Reach (s₀, i.run) (s, Client.done (.ok index)) :=
  calm_ends hs hf (show (Phase.creating : Phase D).Calm from trivial) trivial rfl

end Phase

def Engine.permissive (D : Type) : Engine D where
  accepts n := '*' ∉ n
  accepts_literal _ h := of_decide_eq_true h
  parses _ := true
  script _ _ := none

def Import.plain (docType dataset : Text) (now : DateTime) (documents : List D) : Import D where
  storage := ⟨1000, "1m".toList, 8, 100, ⟨false, 1⟩⟩
  config := ⟨docType, dataset, .Public, 1, 1⟩
  now := now
  documents := documents

def Store.published (n : Text) (as : List Text) : Store D :=
  ⟨(∅ : TreeMap Text (EsIndex D)).insert n { EsIndex.empty 1 1 with aliases := as }, []⟩

theorem Store.mem_published {n m : Text} {as : List Text} :
    m ∈ (Store.published n as : Store D).indices ↔ m = n := by
  rw [published, TreeMap.mem_insert, Std.compare_eq_iff_eq]
  simp [eq_comm]

theorem Store.aliased_published {n m a : Text} {as : List Text} :
    (Store.published n as : Store D).Aliased a m ↔ m = n ∧ a ∈ as := by
  rw [aliased_iff, published, getElem?_insert]
  split
  · next h => simp [h]
  · next h => simp [h]

theorem Engine.permissive_accepts {docType dataset : Text} (ht : '*' ∉ docType)
    (hd : '*' ∉ dataset) (now : DateTime) :
    (Engine.permissive D).accepts (rootDoctypeDatasetTs docType dataset now) = true := by
  simp [permissive, rootDoctypeDatasetTs, indexRoot, ht, hd, star_not_mem_format]

theorem Import.plain_smooth {docType dataset : Text} (ht : '*' ∉ docType) (hd : '*' ∉ dataset)
    (now : DateTime) {documents : List D} (hdocs : documents.length < 2 ^ 32) :
    Smooth (Engine.permissive D) (.plain docType dataset now documents) :=
  ⟨Engine.permissive_accepts ht hd now, splitIndexName_total docType dataset now,
    fun _ _ => rfl, by simp [plain], by simp [plain], rfl, hdocs⟩

structure Poi where
  id : Text
  label : Text
  deriving DecidableEq, Repr

instance : Document Poi := ⟨Poi.id⟩

end Mimirsbrunn
