import Mathlib.Data.List.Sort
import Mimirsbrunn.Elasticsearch.Replies
import Mimirsbrunn.Library.Crowd

namespace Mimirsbrunn
open Regex Std Internal

variable {D : Type} {E : Engine D} {p : Text → Prop}

def Request.Within (p : Text → Prop) : Request D → Prop
  | .createIndex n _ _ => p n
  | .catIndices n => p n
  | .putPipeline _ => True
  | .bulk n _ => p n
  | .refresh n => p n
  | .getAlias pattern => ∀ n, glob pattern n = true → p n
  | .updateAliases actions => ∀ action ∈ actions, ∀ n ∈ action.indices, p n
  | .deleteIndex n => p n
  | .forcemerge ns _ => ∀ n ∈ ns, p n

def Store.Same (p : Text → Prop) (s t : Store D) : Prop := ∀ n, p n → s.indices[n]? = t.indices[n]?

namespace Store

variable {s s' t : Store D} {r : Request D} {x : Response} {n m a : Text}

theorem Same.refl (p : Text → Prop) (s : Store D) : Same p s s := fun _ _ => rfl

theorem Same.symm (h : Same p s t) : Same p t s := fun n hn => (h n hn).symm

theorem Same.trans {u : Store D} (h : Same p s t) (h' : Same p t u) : Same p s u :=
  fun n hn => (h n hn).trans (h' n hn)

theorem Same.mem (h : Same p s t) (hn : p n) : n ∈ s.indices ↔ n ∈ t.indices := by
  rw [mem_iff, mem_iff, h n hn]

theorem Same.aliased (h : Same p s t) (hn : p n) : s.Aliased a n ↔ t.Aliased a n := by
  rw [aliased_iff, aliased_iff, h n hn]

theorem Same.contentOf (h : Same p s t) (hn : p n) : s.contentOf n = t.contentOf n := by
  rw [Store.contentOf, Store.contentOf, h n hn]

theorem Same.missing (h : Same p s t) {ns : List Text} (hns : ∀ n ∈ ns, p n) :
    s.missing ns = t.missing ns := by
  induction ns with
  | nil => rfl
  | cons n ns ih =>
      rw [List.forall_mem_cons] at hns
      have hrest : ns.find? (· ∉ s.indices) = ns.find? (· ∉ t.indices) := ih hns.2
      simp only [Store.missing, List.find?_cons, h.mem hns.1, hrest]

theorem Same.keys (h : Same p s t) {f : Text → Bool} (hf : ∀ n, f n = true → p n) :
    s.indices.keys.filter f = t.indices.keys.filter f := by
  have hmem : ∀ n, n ∈ s.indices.keys.filter f ↔ n ∈ t.indices.keys.filter f := by
    intro n
    rw [List.mem_filter, List.mem_filter, TreeMap.mem_keys, TreeMap.mem_keys]
    exact and_congr_left fun hn => h.mem (hf n hn)
  have hperm : (s.indices.keys.filter f).Perm (t.indices.keys.filter f) :=
    (List.perm_ext_iff_of_nodup (TreeMap.nodup_keys.filter f) (TreeMap.nodup_keys.filter f)).mpr
      hmem
  refine hperm.eq_of_pairwise (fun a b _ _ hab hba => ?_)
    (TreeMap.ordered_keys.filter f) (TreeMap.ordered_keys.filter f)
  exact absurd hba (OrientedCmp.not_lt_of_lt hab)

theorem Same.act (h : Same p s t) (action : AliasAction) :
    Same p (s.act action) (t.act action) := by
  intro n hn
  cases action with
  | add a ns => simp only [Store.act, TreeMap.getElem?_map, h n hn]
  | remove a ns => simp only [Store.act, TreeMap.getElem?_map, h n hn]

theorem Same.foldl_act (h : Same p s t) (actions : List AliasAction) :
    Same p (actions.foldl Store.act s) (actions.foldl Store.act t) := by
  induction actions generalizing s t with
  | nil => exact h
  | cons action actions ih => exact ih (h.act action)

theorem Same.serve (h : Same p s t) (hr : r.Within p) :
    Same p (s.serve E r).1 (t.serve E r).1 ∧ (s.serve E r).2 = (t.serve E r).2 := by
  cases r with
  | createIndex n shards replicas =>
      refine ⟨fun m hm => ?_, ?_⟩
      · simp only [Store.serve, getElem?_createIndex, h.mem hr, h m hm]
      · simp only [Store.serve, createIndex, h.mem hr]
        split
        · rfl
        · split <;> rfl
  | catIndices n => exact ⟨h, by simp only [Store.serve, catIndices, h n hr]⟩
  | putPipeline name => exact ⟨h, rfl⟩
  | bulk n ops =>
      refine ⟨fun m hm => ?_, ?_⟩
      · simp only [Store.serve, getElem?_bulk, h.mem hr, h n hr, h m hm]
      · simp only [Store.serve, Store.bulk, h.mem hr, h n hr]
        split <;> rfl
  | refresh n =>
      refine ⟨fun m hm => ?_, ?_⟩
      · simp only [Store.serve, getElem?_refresh, h n hr, h m hm]
      · simp only [Store.serve, Store.refresh, h n hr]
        split <;> rfl
  | getAlias pattern =>
      refine ⟨h, ?_⟩
      simp only [Store.serve, getAlias, h.keys hr]
      congr 2
      refine List.map_congr_left fun n hn => ?_
      have hp : p n := hr n (List.mem_filter.mp hn).2
      simp only [aliasesOf, h n hp]
  | updateAliases actions =>
      have hnames : ∀ n ∈ actions.flatMap AliasAction.indices, p n := by
        intro n hn
        obtain ⟨action, ha, hn⟩ := List.mem_flatMap.mp hn
        exact hr action ha n hn
      simp only [Store.serve, updateAliases, h.missing hnames]
      split
      · exact ⟨h, rfl⟩
      · exact ⟨h.foldl_act actions, rfl⟩
  | deleteIndex n =>
      refine ⟨fun m hm => ?_, ?_⟩
      · simp only [Store.serve, getElem?_deleteIndex, h m hm]
      · simp only [Store.serve, Store.deleteIndex, h.mem hr]
        split <;> rfl
  | forcemerge ns max =>
      refine ⟨h, ?_⟩
      have hcopies : ns.map (fun n => (s.indices[n]?).elim 0 EsIndex.shardCopies) =
          ns.map (fun n => (t.indices[n]?).elim 0 EsIndex.shardCopies) :=
        List.map_congr_left fun n hn => by rw [h n (hr n hn)]
      simp only [Store.serve, Store.forcemerge, h.missing hr, hcopies]

theorem getElem?_foldl_act {actions : List AliasAction}
    (hm : ∀ action ∈ actions, m ∉ action.indices) :
    (actions.foldl act s).indices[m]? = s.indices[m]? := by
  induction actions generalizing s with
  | nil => rfl
  | cons action actions ih =>
      rw [List.forall_mem_cons] at hm
      rw [List.foldl_cons, ih hm.2]
      have hout := hm.1
      cases action with
      | add a ns =>
          have hns : m ∉ ns := hout
          simp [Store.act, TreeMap.getElem?_map, hns]
      | remove a ns =>
          have hns : m ∉ ns := hout
          simp [Store.act, TreeMap.getElem?_map, hns]

theorem frame_serve (hr : r.Within p) (hm : ¬ p m) :
    (s.serve E r).1.indices[m]? = s.indices[m]? := by
  have hne : ∀ n, p n → m ≠ n := fun n hn he => hm (he ▸ hn)
  cases r with
  | createIndex n shards replicas => simp [Store.serve, getElem?_createIndex, hne n hr]
  | catIndices n => rfl
  | putPipeline name => rfl
  | bulk n ops => simp [Store.serve, getElem?_bulk, hne n hr]
  | refresh n => simp [Store.serve, getElem?_refresh, hne n hr]
  | getAlias pattern => rfl
  | updateAliases actions =>
      rcases updateAliases_cases actions s with ⟨k, he, _⟩ | ⟨he, _⟩
      · simp only [Store.serve, he]
      · simp only [Store.serve, he]
        exact getElem?_foldl_act fun action ha hn => hm (hr action ha m hn)
  | deleteIndex n => simp [Store.serve, getElem?_deleteIndex, hne n hr]
  | forcemerge ns max => rfl

theorem Same.cut (h : Same p s t) (hr : r.Within p) (hc : Store.Cut E r s s') :
    ∃ t', Store.Cut E r t t' ∧ Same p s' t' := by
  cases hc with
  | dropped => exact ⟨t, .dropped r t, h⟩
  | applied => exact ⟨_, .applied r t, (h.serve hr).1⟩
  | bulk n ops k =>
      have hpart : (Request.bulk n (ops.take k)).Within p := hr
      exact ⟨_, .bulk n ops k t, (h.serve hpart).1⟩

theorem frame_answer (h : (elasticsearch E).Answer r s s' x) (hr : r.Within p) (hm : ¬ p m) :
    s'.indices[m]? = s.indices[m]? := by
  rcases answer_cases h with rfl | rfl | ⟨n, ops, k, rfl, rfl⟩
  · rfl
  · exact frame_serve hr hm
  · exact frame_serve (r := .bulk n (ops.take k)) hr hm

end Store

theorem elasticsearch_apart {ι : Type} {p : ι → Text → Prop}
    (hp : ∀ j k n, p j n → p k n → j = k) :
    (elasticsearch E).Apart (fun k => Request.Within (p k)) (fun k => Store.Same (p k)) where
  refl k := Store.Same.refl (p k)
  serve hr h := h.serve hr
  cut hr h hc := h.cut hr hc
  foreign hjk hr ha h n hn :=
    (Store.frame_answer ha hr fun hj => hjk (hp _ _ n hj hn)).trans (h n hn)
  spilled hjk hr hc h n hn := by
    obtain ⟨x, ha⟩ := answer_of_cut hc
    exact (Store.frame_answer ha hr fun hj => hjk (hp _ _ n hj hn)).trans (h n hn)

end Mimirsbrunn
