import Mimirsbrunn.Library.Crowd
import Mimirsbrunn.Publication.Convergence

namespace Mimirsbrunn
open Regex Std Internal Phase

namespace Store

variable {D : Type} {E : Engine D} {s : Store D} {n m : Text}

theorem contentOf_createIndex_ne (shards replicas : Nat) (h : m ≠ n) :
    (s.createIndex E n shards replicas).1.contentOf m = s.contentOf m := by
  simp [contentOf, getElem?_createIndex, h]

theorem contentOf_bulk_ne (ops : List (BulkOperation D)) (h : m ≠ n) :
    (s.bulk E n ops).1.contentOf m = s.contentOf m := by
  simp [contentOf, getElem?_bulk, h]

theorem contentOf_refresh_ne (h : m ≠ n) : (s.refresh n).1.contentOf m = s.contentOf m := by
  simp [contentOf, getElem?_refresh, h]

end Store

namespace Phase

variable {D : Type}

def Active : Phase D → Prop
  | .creating => False
  | .ended _ => False
  | _ => True

def Publishing : Phase D → Prop
  | .moving .. => True
  | .deleting .. => True
  | .merging _ => True
  | .locating _ => True
  | _ => False

def Early : Phase D → Prop
  | .moving .. => False
  | .deleting .. => False
  | .merging _ => False
  | .locating _ => False
  | .ended (.ok _) => False
  | _ => True

def doomed : Phase D → List Text
  | .moving _ previous _ _ => previous
  | .deleting _ n todo => n :: todo
  | _ => []

theorem Publishing.active {ph : Phase D} (h : ph.Publishing) : ph.Active := by
  cases ph <;> trivial

theorem Early.not_publishing {ph : Phase D} (h : ph.Early) : ¬ ph.Publishing := by
  cases ph <;> first | exact id | exact fun _ => h

theorem doomed_of_not_publishing {ph : Phase D} (h : ¬ ph.Publishing) : ph.doomed = [] := by
  cases ph <;> first | rfl | exact absurd trivial h

theorem Early.not_ok {ph : Phase D} (h : ph.Early) (index : Index) : ph ≠ .ended (.ok index) := by
  rintro rfl
  exact h

theorem early_stop (wrap : Error → ModelError) (e : Failure Error) :
    (Import.stop wrap e : Phase D).Early := by
  cases e <;> trivial

theorem early_resumeFilling (index : Index) (good : Bool) (pending : List (Request D))
    (answers : List Response) : (Import.resumeFilling index good pending answers).Early := by
  rw [Import.resumeFilling]
  split
  · trivial
  · split
    · trivial
    · exact early_stop _ _

def Switching (docType dataset : Text) (i : Import D) (s : Store D) : Phase D → Prop
  | .moving index previous a todo => previous.Nodup ∧
      (∀ m ∈ s.indices, Matches docType dataset m →
        m ∈ previous ∨ m = i.indexName ∨ ∀ b, ¬ s.Aliased b m) ∧
      ∃ done, i.plan index = done ++ a :: todo ∧
        ∀ b ∈ done, s.resolves b (Matches docType dataset) = {i.indexName}
  | .deleting _ n todo => (n :: todo).Nodup ∧
      ∀ b ∈ aliases docType dataset, s.resolves b (Matches docType dataset) = {i.indexName}
  | .merging _ =>
      ∀ b ∈ aliases docType dataset, s.resolves b (Matches docType dataset) = {i.indexName}
  | .locating _ =>
      ∀ b ∈ aliases docType dataset, s.resolves b (Matches docType dataset) = {i.indexName}
  | _ => True

theorem switching_of_not_publishing {docType dataset : Text} {i : Import D} {s : Store D}
    {ph : Phase D} (h : ¬ ph.Publishing) : ph.Switching docType dataset i s := by
  cases ph <;> first | trivial | exact absurd trivial h

theorem switching_agree {docType dataset : Text} {i : Import D} {s s' : Store D} {ph : Phase D}
    (ha : s.Agree s') (h : ph.Switching docType dataset i s) :
    ph.Switching docType dataset i s' := by
  have hr : ∀ b, s'.resolves b (Matches docType dataset) =
      s.resolves b (Matches docType dataset) := fun b =>
    Store.resolves_congr (fun m _ => ha.aliased b m)
  cases ph with
  | moving index previous a todo =>
      obtain ⟨hnd, hcover, done, hplan, hdone⟩ := h
      refine ⟨hnd, fun m hm hma => ?_, done, hplan, fun b hb => (hr b).trans (hdone b hb)⟩
      simp only [ha.aliased]
      exact hcover m ((ha.mem m).mp hm) hma
  | deleting index n todo => exact ⟨h.1, fun b hb => (hr b).trans (h.2 b hb)⟩
  | merging index => exact fun b hb => (hr b).trans (h b hb)
  | locating index => exact fun b hb => (hr b).trans (h b hb)
  | _ => trivial

theorem switching_startDeleting {docType dataset : Text} {i : Import D} {s : Store D}
    (index : Index) {todo : List Text} (hnd : todo.Nodup) (hr : ∀ b ∈ aliases docType dataset,
      s.resolves b (Matches docType dataset) = {i.indexName}) :
    (i.startDeleting index todo).Switching docType dataset i s ∧
      (i.startDeleting index todo).Publishing ∧ (i.startDeleting index todo).doomed = todo := by
  cases todo with
  | nil =>
      simp only [Import.startDeleting, Import.startMerging]
      split <;> exact ⟨hr, trivial, rfl⟩
  | cons n todo => exact ⟨⟨hnd, hr⟩, trivial, rfl⟩

theorem switching_startMoving {docType dataset : Text} {i : Import D} {s : Store D} {index : Index}
    {previous done todo : List Text}
    (hplan : i.plan index = done ++ todo)
    (hall : ∀ b, b ∈ i.plan index ↔ b ∈ aliases docType dataset) (hnd : previous.Nodup)
    (hcover : ∀ m ∈ s.indices, Matches docType dataset m →
      m ∈ previous ∨ m = i.indexName ∨ ∀ b, ¬ s.Aliased b m)
    (hr : ∀ b ∈ done, s.resolves b (Matches docType dataset) = {i.indexName}) :
    (i.startMoving index previous todo).Switching docType dataset i s ∧
      (i.startMoving index previous todo).Publishing ∧
      (i.startMoving index previous todo).doomed = previous := by
  cases todo with
  | nil =>
      refine switching_startDeleting index hnd (fun b hb => hr b ?_)
      rw [← hall, hplan, List.append_nil] at hb
      exact hb
  | cons a todo => exact ⟨⟨hnd, hcover, done, hplan, hr⟩, trivial, rfl⟩

end Phase

variable {D ι : Type} [Document D]

def Published (docType dataset : Text) (i : Import D) (s : Store D) : Prop :=
  (∀ a ∈ aliases docType dataset, s.resolves a (Matches docType dataset) = {i.indexName}) ∧
    ∃ docs, s.contentOf i.indexName = some (docs, docs) ∧ Holds i.documents docs

structure Settling (docType dataset : Text) (runs : ι → Import D) (s : Store D)
    (ph : ι → Phase D) : Prop where
  held : ∀ k, (ph k).Active → (ph k).Holding (runs k) (s.contentOf (runs k).indexName)
  fresh : ∀ k, (ph k).Active → ¬ (ph k).Publishing → ∀ a, ¬ s.Aliased a (runs k).indexName
  distinct : ∀ j k, (ph j).Active → (ph k).Active →
    (runs j).indexName = (runs k).indexName → j = k
  single : ∀ j k, (ph j).Publishing → (ph k).Publishing → j = k
  doomed_mem : ∀ j, ∀ m ∈ (ph j).doomed, m ∈ s.indices
  doomed_safe : ∀ j k, (ph k).Active → (runs k).indexName ∉ (ph j).doomed
  switching : ∀ j, (ph j).Switching docType dataset (runs j) s
  settled : (∃ j, (ph j).Publishing) ∨ (∀ k index, ph k ≠ .ended (.ok index)) ∨
    ∃ j, Published docType dataset (runs j) s

namespace Settling

variable {docType dataset : Text} {runs : ι → Import D} {s s' : Store D} {ph : ι → Phase D}
  {ph' : Phase D} {j : ι} {E : Engine D}

theorem active_mem (h : Settling docType dataset runs s ph) {k : ι} (hk : (ph k).Active) :
    (runs k).indexName ∈ s.indices := by
  have hh := h.held k hk
  cases hp : ph k with
  | creating | ended => rw [hp] at hk; exact hk.elim
  | finding => rw [hp] at hh; exact Store.mem_of_contentOf hh
  | piping => rw [hp] at hh; exact Store.mem_of_contentOf hh.2
  | filling =>
      rw [hp] at hh
      obtain ⟨_, _, _, hc, _⟩ := hh
      exact Store.mem_of_contentOf hc
  | refreshing | listing | merging | locating =>
      rw [hp] at hh
      obtain ⟨_, _, hc, _⟩ := hh
      exact Store.mem_of_contentOf hc
  | moving | deleting =>
      rw [hp] at hh
      obtain ⟨⟨_, _, hc, _⟩, _⟩ := hh
      exact Store.mem_of_contentOf hc

theorem root_mem_aliases : root ∈ aliases docType dataset := by simp [aliases]

theorem published_aliased {i : Import D} (h : Published docType dataset i s) :
    s.Aliased root i.indexName := by
  have hm : i.indexName ∈ s.resolves root (Matches docType dataset) := by
    rw [h.1 root root_mem_aliases]
    rfl
  exact hm.1

theorem published_quiet {i : Import D} (h : Published docType dataset i s)
    (ha : ∀ a m, s'.Aliased a m ↔ s.Aliased a m)
    (hc : s'.contentOf i.indexName = s.contentOf i.indexName) :
    Published docType dataset i s' := by
  refine ⟨fun a hal => ?_, by rw [hc]; exact h.2⟩
  rw [Store.resolves_congr (fun m _ => ha a m), h.1 a hal]

theorem only_publisher (h : Settling docType dataset runs s ph) (hj : (ph j).Publishing) :
    ∀ k, k ≠ j → ¬ (ph k).Publishing := fun k hk hp => hk (h.single k j hp hj)

theorem publisher (h : Settling docType dataset runs s ph) {phase : Phase D} (hj : ph j = phase)
    (hp : phase.Publishing) :
    phase.Holding (runs j) (s.contentOf (runs j).indexName) ∧
      phase.Switching docType dataset (runs j) s ∧ (∀ m ∈ phase.doomed, m ∈ s.indices) ∧
      ∀ k, (ph k).Active → (runs k).indexName ∉ phase.doomed := by
  subst hj
  exact ⟨h.held j hp.active, h.switching j, h.doomed_mem j, h.doomed_safe j⟩

variable [DecidableEq ι]

section Update

variable {P : Phase D → Prop} {k : ι}

omit [Document D] in
theorem update_of (hj : P (ph j)) (h : P (Function.update ph j ph' k)) : P (ph k) := by
  rcases eq_or_ne k j with rfl | hk
  · exact hj
  · rwa [Function.update_of_ne hk] at h

omit [Document D] in
theorem update_other (hph : ¬ P ph') (h : P (Function.update ph j ph' k)) : k ≠ j ∧ P (ph k) := by
  rcases eq_or_ne k j with rfl | hk
  · rw [Function.update_self] at h
    exact absurd h hph
  · exact ⟨hk, by rwa [Function.update_of_ne hk] at h⟩

end Update

theorem settled_update (h : Settling docType dataset runs s ph) (hj : ¬ (ph j).Publishing)
    (hok : ∀ index, ph' ≠ .ended (.ok index))
    (hpub : ∀ k, Published docType dataset (runs k) s → Published docType dataset (runs k) s') :
    (∃ k, (Function.update ph j ph' k).Publishing) ∨
      (∀ k index, Function.update ph j ph' k ≠ .ended (.ok index)) ∨
      ∃ k, Published docType dataset (runs k) s' := by
  rcases h.settled with ⟨k, hk⟩ | hnone | ⟨k, hk⟩
  · have hkj : k ≠ j := fun he => hj (he ▸ hk)
    exact .inl ⟨k, by rwa [Function.update_of_ne hkj]⟩
  · exact .inr (.inl fun k index he => hnone k index
      (update_other (P := (· = .ended (.ok index))) (hok index) he).2)
  · exact .inr (.inr ⟨k, hpub k hk⟩)

theorem quiet (h : Settling docType dataset runs s ph) (hj : (ph j).Active)
    (hearly : (ph j).Early) (ha : s.Agree s')
    (hc : ∀ m, m ≠ (runs j).indexName → s'.contentOf m = s.contentOf m) (hph : ph'.Early)
    (hh : ph'.Holding (runs j) (s'.contentOf (runs j).indexName)) :
    Settling docType dataset runs s' (Function.update ph j ph') := by
  have hne : ∀ k, k ≠ j → (ph k).Active → (runs k).indexName ≠ (runs j).indexName :=
    fun k hk hak he => hk (h.distinct k j hak hj he)
  refine ⟨?_, ?_, ?_, ?_, ?_, ?_, ?_, ?_⟩
  · intro k
    rcases eq_or_ne k j with rfl | hk
    · simp only [Function.update_self]
      exact fun _ => hh
    · simp only [Function.update_of_ne hk]
      intro hak
      rw [hc _ (hne k hk hak)]
      exact h.held k hak
  · intro k
    simp only [ha.aliased]
    rcases eq_or_ne k j with rfl | hk
    · exact fun _ _ => h.fresh k hj hearly.not_publishing
    · simp only [Function.update_of_ne hk]
      exact h.fresh k
  · exact fun k l hk hl => h.distinct k l (update_of hj hk) (update_of hj hl)
  · exact fun k l hk hl => h.single k l (update_other hph.not_publishing hk).2
      (update_other hph.not_publishing hl).2
  · intro k
    rcases eq_or_ne k j with rfl | hk
    · simp [doomed_of_not_publishing hph.not_publishing]
    · simp only [Function.update_of_ne hk, ha.mem]
      exact h.doomed_mem k
  · intro k l hl
    have hl' : (ph l).Active := update_of hj hl
    rcases eq_or_ne k j with rfl | hk
    · simp [doomed_of_not_publishing hph.not_publishing]
    · simp only [Function.update_of_ne hk]
      exact h.doomed_safe k l hl'
  · intro k
    rcases eq_or_ne k j with rfl | hk
    · simp only [Function.update_self]
      exact switching_of_not_publishing hph.not_publishing
    · simp only [Function.update_of_ne hk]
      exact switching_agree ha (h.switching k)
  · refine h.settled_update hearly.not_publishing hph.not_ok (fun k hk => ?_)
    refine published_quiet hk ha.aliased (hc _ fun he => ?_)
    exact h.fresh j hj hearly.not_publishing root (he ▸ published_aliased hk)

theorem leave (h : Settling docType dataset runs s ph) (result : Except (Failure ModelError) Index)
    (hset : (∃ k, (Function.update ph j (.ended result) k).Publishing) ∨
      (∀ k index, Function.update ph j (.ended result) k ≠ .ended (.ok index)) ∨
      ∃ k, Published docType dataset (runs k) s) :
    Settling docType dataset runs s (Function.update ph j (.ended result)) := by
  have hother : ∀ k, k ≠ j → Function.update ph j (.ended result) k = ph k :=
    fun k hk => Function.update_of_ne hk _ _
  have hactive : ∀ k, (Function.update ph j (.ended result) k).Active → (ph k).Active ∧
      Function.update ph j (.ended result) k = ph k := by
    intro k hk
    obtain ⟨hne, hk⟩ := update_other id hk
    exact ⟨hk, hother k hne⟩
  refine ⟨?_, ?_, ?_, ?_, ?_, ?_, ?_, hset⟩
  · intro k hk
    obtain ⟨hk', he⟩ := hactive k hk
    rw [he]
    exact h.held k hk'
  · intro k hk hp
    obtain ⟨hk', he⟩ := hactive k hk
    rw [he] at hp
    exact h.fresh k hk' hp
  · exact fun k l hk hl => h.distinct k l (hactive k hk).1 (hactive l hl).1
  · intro k l hk hl
    obtain ⟨_, hke⟩ := hactive k hk.active
    obtain ⟨_, hle⟩ := hactive l hl.active
    rw [hke] at hk
    rw [hle] at hl
    exact h.single k l hk hl
  · intro k
    rcases eq_or_ne k j with rfl | hk
    · simp [doomed]
    · rw [hother k hk]
      exact h.doomed_mem k
  · intro k l hl
    rcases eq_or_ne k j with rfl | hk
    · simp [doomed]
    · rw [hother k hk]
      exact h.doomed_safe k l (hactive l hl).1
  · intro k
    rcases eq_or_ne k j with rfl | hk
    · simp only [Function.update_self]
      trivial
    · rw [hother k hk]
      exact h.switching k

theorem give_up (h : Settling docType dataset runs s ph) (hj : (ph j).Early)
    (e : Failure ModelError) :
    Settling docType dataset runs s (Function.update ph j (.ended (.error e))) := by
  exact h.leave _ (h.settled_update hj.not_publishing (by simp) (fun _ hk => hk))

theorem create (h : Settling docType dataset runs s ph) (hj : ph j = .creating)
    (shards replicas : Nat) (hn : (runs j).indexName ∉ s.indices)
    (hacc : E.accepts (runs j).indexName = true) :
    Settling docType dataset runs (s.createIndex E (runs j).indexName shards replicas).1
      (Function.update ph j .finding) := by
  have hal : ∀ a m, (s.createIndex E (runs j).indexName shards replicas).1.Aliased a m ↔
      s.Aliased a m := fun a m => Store.aliased_createIndex shards replicas
  have hmem : ∀ m ∈ s.indices,
      m ∈ (s.createIndex E (runs j).indexName shards replicas).1.indices :=
    fun m hm => (Store.mem_createIndex shards replicas).mpr (.inl hm)
  have hne : ∀ m ∈ s.indices, m ≠ (runs j).indexName := fun m hm he => hn (he ▸ hm)
  have hother : ∀ k, k ≠ j → (Function.update ph j .finding k) = ph k :=
    fun k hk => Function.update_of_ne hk _ _
  refine ⟨?_, ?_, ?_, ?_, ?_, ?_, ?_, ?_⟩
  · intro k
    rcases eq_or_ne k j with rfl | hk
    · simp only [Function.update_self]
      exact fun _ => Store.contentOf_createIndex shards replicas hn hacc
    · rw [hother k hk]
      intro hak
      rw [Store.contentOf_createIndex_ne _ _ (hne _ (h.active_mem hak))]
      exact h.held k hak
  · intro k
    simp only [hal]
    rcases eq_or_ne k j with rfl | hk
    · exact fun _ _ a ha => hn ha.mem
    · rw [hother k hk]
      exact h.fresh k
  · intro k l hk hl he
    rcases eq_or_ne k j with rfl | hkj <;> rcases eq_or_ne l k with rfl | hlk
    · rfl
    · rw [hother l hlk] at hl
      exact absurd he.symm (hne _ (h.active_mem hl))
    · rfl
    · rcases eq_or_ne l j with rfl | hlj
      · rw [hother k hkj] at hk
        exact absurd he (hne _ (h.active_mem hk))
      · rw [hother k hkj] at hk
        rw [hother l hlj] at hl
        exact h.distinct k l hk hl he
  · exact fun k l hk hl => h.single k l (update_other id hk).2 (update_other id hl).2
  · intro k
    rcases eq_or_ne k j with rfl | hk
    · simp [doomed]
    · rw [hother k hk]
      exact fun m hm => hmem m (h.doomed_mem k m hm)
  · intro k l hl
    rcases eq_or_ne k j with rfl | hk
    · simp [doomed]
    · rw [hother k hk]
      rcases eq_or_ne l j with rfl | hlj
      · exact fun hm => hn (h.doomed_mem k _ hm)
      · rw [hother l hlj] at hl
        exact h.doomed_safe k l hl
  · intro k
    rcases eq_or_ne k j with rfl | hk
    · simp only [Function.update_self]
      trivial
    · rw [hother k hk]
      have hs := h.switching k
      have hr : ∀ b, (s.createIndex E (runs j).indexName shards replicas).1.resolves b
          (Matches docType dataset) = s.resolves b (Matches docType dataset) := fun b =>
        Store.resolves_congr (fun m _ => hal b m)
      cases hp : ph k with
      | moving index previous a todo =>
          rw [hp] at hs
          obtain ⟨hnd, hcover, done, hplan, hdone⟩ := hs
          refine ⟨hnd, fun m hm hma => ?_, done, hplan, fun b hb => (hr b).trans (hdone b hb)⟩
          rcases (Store.mem_createIndex shards replicas).mp hm with hm | ⟨rfl, _⟩
          · simp only [hal]
            exact hcover m hm hma
          · exact .inr (.inr fun b hb => hn ((hal b _).mp hb).mem)
      | deleting index n todo =>
          rw [hp] at hs
          exact ⟨hs.1, fun b hb => (hr b).trans (hs.2 b hb)⟩
      | merging | locating =>
          rw [hp] at hs
          exact fun b hb => (hr b).trans (hs b hb)
      | _ => trivial
  · refine h.settled_update (by rw [hj]; exact id) (by simp) (fun k hk => ?_)
    refine published_quiet hk hal ?_
    exact Store.contentOf_createIndex_ne _ _ (hne _ (published_aliased hk).mem)

theorem publish (h : Settling docType dataset runs s ph) (hj : (ph j).Active)
    (honly : ∀ k, k ≠ j → ¬ (ph k).Publishing) (hph : ph'.Publishing)
    (hh : ph'.Holding (runs j) (s'.contentOf (runs j).indexName))
    (hc : ∀ k, k ≠ j → (ph k).Active →
      s'.contentOf (runs k).indexName = s.contentOf (runs k).indexName)
    (hal : ∀ k, k ≠ j → (ph k).Active → ∀ a, ¬ s'.Aliased a (runs k).indexName)
    (hmem : ∀ m ∈ ph'.doomed, m ∈ s'.indices)
    (hsafe : ∀ k, (ph k).Active → (runs k).indexName ∉ ph'.doomed)
    (hsw : ph'.Switching docType dataset (runs j) s') :
    Settling docType dataset runs s' (Function.update ph j ph') := by
  have hother : ∀ k, k ≠ j → (Function.update ph j ph' k) = ph k :=
    fun k hk => Function.update_of_ne hk _ _
  have hactive : ∀ k, (Function.update ph j ph' k).Active → (ph k).Active :=
    fun k hk => update_of hj hk
  have hpub : ∀ k, (Function.update ph j ph' k).Publishing → k = j := by
    intro k hk
    by_contra hne
    rw [hother k hne] at hk
    exact honly k hne hk
  refine ⟨?_, ?_, ?_, ?_, ?_, ?_, ?_, ?_⟩
  · intro k
    rcases eq_or_ne k j with rfl | hk
    · simp only [Function.update_self]
      exact fun _ => hh
    · rw [hother k hk]
      intro hak
      rw [hc k hk hak]
      exact h.held k hak
  · intro k hak hnot
    rcases eq_or_ne k j with rfl | hk
    · rw [Function.update_self] at hnot
      exact absurd hph hnot
    · exact hal k hk (hactive k hak)
  · exact fun k l hk hl => h.distinct k l (hactive k hk) (hactive l hl)
  · exact fun k l hk hl => (hpub k hk).trans (hpub l hl).symm
  · intro k
    rcases eq_or_ne k j with rfl | hk
    · simp only [Function.update_self]
      exact hmem
    · rw [hother k hk, doomed_of_not_publishing (honly k hk)]
      simp
  · intro k l hl
    rcases eq_or_ne k j with rfl | hk
    · simp only [Function.update_self]
      exact hsafe l (hactive l hl)
    · rw [hother k hk, doomed_of_not_publishing (honly k hk)]
      simp
  · intro k
    rcases eq_or_ne k j with rfl | hk
    · simp only [Function.update_self]
      exact hsw
    · rw [hother k hk]
      exact switching_of_not_publishing (honly k hk)
  · exact .inl ⟨j, by rwa [Function.update_self]⟩

theorem stop (h : Settling docType dataset runs s ph) (hj : (ph j).Early)
    (wrap : Error → ModelError) (e : Failure Error) :
    Settling docType dataset runs s (Function.update ph j (Import.stop wrap e)) := by
  cases e <;> exact h.give_up hj _

theorem step_listing (ht : Piece docType) (hd : Piece dataset)
    (hi : (runs j).PublicFor docType dataset) (h : Settling docType dataset runs s ph)
    {index : Index} (hj : ph j = .listing index) (halone : ∀ k, k ≠ j → ¬ (ph k).Active)
    {found : TreeMap Text (List Text)}
    (hf : ∀ m, m ∈ found ↔ m ∈ s.indices ∧ glob (pattern index) m = true) :
    Settling docType dataset runs s (Function.update ph j
      ((runs j).startMoving index (previousOf index found) ((runs j).plan index))) := by
  have hact : (ph j).Active := by rw [hj]; trivial
  have hready : Ready (runs j) index (s.contentOf (runs j).indexName) := by
    have := h.held j hact
    rwa [hj] at this
  obtain ⟨rfl, rfl⟩ := named_fields ht hd hi hready.1
  have hmem : ∀ m, m ∈ previousOf index found ↔
      m ∈ s.indices ∧ Matches index.doc_type index.dataset m ∧ m ≠ (runs j).indexName := by
    intro m
    rw [mem_previousOf, hf, hready.1.1]
    exact and_assoc
  have hnd := nodup_previousOf index found
  have hnot := not_mem_previousOf hready.1 found
  obtain ⟨hsw, hpub, hdoom⟩ := switching_startMoving
    (show (runs j).plan index = [] ++ (runs j).plan index from rfl) (mem_plan ht hd hi hready.1) hnd
    (fun m hm hma => by
      rcases eq_or_ne m (runs j).indexName with he | hne
      · exact .inr (.inl he)
      · exact .inl ((hmem m).mpr ⟨hm, hma, hne⟩)) (by simp)
  refine h.publish hact (fun k hk hp => halone k hk hp.active) hpub
    (holding_startMoving hready hnot) (fun k _ _ => rfl)
    (fun k hk hak => absurd hak (halone k hk)) ?_ ?_ hsw
  · rw [hdoom]
    exact fun m hm => ((hmem m).mp hm).1
  · rw [hdoom]
    intro k hak
    rcases eq_or_ne k j with rfl | hk
    · exact hnot
    · exact absurd hak (halone k hk)

theorem step_moving (ht : Piece docType) (hd : Piece dataset)
    (hi : (runs j).PublicFor docType dataset) (h : Settling docType dataset runs s ph)
    {index : Index} {previous todo : List Text} {a : Text}
    (hj : ph j = .moving index previous a todo) :
    Settling docType dataset runs ((aliasActions a [index.name] previous).foldl Store.act s)
      (Function.update ph j ((runs j).startMoving index previous todo)) := by
  have hpubj : (ph j).Publishing := by rw [hj]; trivial
  have honly := h.only_publisher hpubj
  obtain ⟨⟨hready, hnot⟩, ⟨hnd, hcover, done, hplan, hdone⟩, hmem, hsafe⟩ := h.publisher hj trivial
  have hin : index.name ∈ s.indices := hready.1.1 ▸ h.active_mem hpubj.active
  have hal : ∀ b m, ((aliasActions a [index.name] previous).foldl Store.act s).Aliased b m ↔
      (s.Aliased b m ∨ (b = a ∧ m = (runs j).indexName)) ∧ ¬ (b = a ∧ m ∈ previous) := by
    intro b m
    rw [Store.aliased_aliasActions hin, hready.1.1]
  have hstays : ∀ m, m ≠ (runs j).indexName → (∀ b, ¬ s.Aliased b m) → ∀ b,
      ¬ ((aliasActions a [index.name] previous).foldl Store.act s).Aliased b m := by
    intro m hne hun b hb
    rcases ((hal b m).mp hb).1 with hb | ⟨_, he⟩
    · exact hun b hb
    · exact hne he
  obtain ⟨hsw', hpub', hdoom⟩ := switching_startMoving
    (s := (aliasActions a [index.name] previous).foldl Store.act s)
    (show (runs j).plan index = (done ++ [a]) ++ todo by simp [hplan]) (mem_plan ht hd hi hready.1) hnd
    (fun m hm hma => by
      rcases hcover m ((Store.foldl_act_mem _ s).mp hm) hma with hp | he | hun
      · exact .inl hp
      · exact .inr (.inl he)
      · rcases eq_or_ne m (runs j).indexName with he | hne
        · exact .inr (.inl he)
        · exact .inr (.inr (hstays m hne hun))) (by
      intro b hb
      ext m
      simp only [Store.mem_resolves, Set.mem_singleton_iff, hal]
      constructor
      · rintro ⟨⟨hb' | ⟨_, he⟩, hrem⟩, hma⟩
        · by_cases hba : b = a
          · rcases hcover m hb'.mem hma with hp | he | hun
            · exact absurd ⟨hba, hp⟩ hrem
            · exact he
            · exact absurd hb' (hun b)
          · have hbd : b ∈ done := (List.mem_append.mp hb).resolve_right (by simpa using hba)
            have hm : m ∈ s.resolves b (Matches docType dataset) := ⟨hb', hma⟩
            rwa [hdone b hbd] at hm
        · exact he
      · rintro rfl
        refine ⟨⟨?_, fun hc => hnot hc.2⟩, (madeFor_indexName hi).matches⟩
        rcases List.mem_append.mp hb with hbd | hba
        · have hm : (runs j).indexName ∈ s.resolves b (Matches docType dataset) := by
            rw [hdone b hbd]; rfl
          exact .inl hm.1
        · exact .inr ⟨by simpa using hba, rfl⟩)
  refine h.publish hpubj.active honly hpub' ?_ ?_ ?_ ?_ ?_ hsw'
  · rw [Store.foldl_act_contentOf]
    exact holding_startMoving hready hnot
  · exact fun k _ _ => Store.foldl_act_contentOf _ s
  · exact fun k hk hak => hstays _ (fun he => hk (h.distinct k j hak hpubj.active he))
      (h.fresh k hak (honly k hk))
  · rw [hdoom]
    exact fun m hm => (Store.foldl_act_mem _ s).mpr (hmem m hm)
  · rw [hdoom]
    exact hsafe

theorem step_deleting (h : Settling docType dataset runs s ph) {index : Index} {n : Text}
    {todo : List Text} (hj : ph j = .deleting index n todo) :
    Settling docType dataset runs (s.deleteIndex n).1
      (Function.update ph j ((runs j).startDeleting index todo)) := by
  have hpubj : (ph j).Publishing := by rw [hj]; trivial
  have honly := h.only_publisher hpubj
  obtain ⟨⟨hready, hnot⟩, ⟨hnd, hr⟩, hmem, hsafe⟩ := h.publisher hj trivial
  have hnames : ∀ k, (ph k).Active → (runs k).indexName ≠ n := by
    intro k hak he
    exact hsafe k hak (he ▸ List.mem_cons_self)
  have hleft : ∀ b ∈ aliases docType dataset,
      (s.deleteIndex n).1.resolves b (Matches docType dataset) = {(runs j).indexName} := by
    intro b hb
    ext m
    simp only [Store.mem_resolves, Store.aliased_deleteIndex, Set.mem_singleton_iff]
    have hm : m ∈ s.resolves b (Matches docType dataset) ↔ m = (runs j).indexName := by
      rw [hr b hb]; rfl
    rw [Store.mem_resolves] at hm
    constructor
    · rintro ⟨⟨hal, _⟩, hma⟩
      exact hm.mp ⟨hal, hma⟩
    · intro he
      obtain ⟨hal, hma⟩ := hm.mpr he
      exact ⟨⟨hal, he ▸ hnames j hpubj.active⟩, hma⟩
  obtain ⟨hsw', hpub', hdoom⟩ := switching_startDeleting index (List.nodup_cons.mp hnd).2 hleft
  refine h.publish hpubj.active honly hpub' ?_ ?_ ?_ ?_ ?_ hsw'
  · rw [Store.contentOf_deleteIndex, if_neg (hnames j hpubj.active)]
    exact holding_startDeleting hready (fun hm => hnot (List.mem_cons_of_mem _ hm))
  · intro k _ hak
    rw [Store.contentOf_deleteIndex, if_neg (hnames k hak)]
  · intro k hk hak a hal
    exact h.fresh k hak (honly k hk) a (Store.aliased_deleteIndex.mp hal).1
  · rw [hdoom]
    intro m hm
    refine Store.mem_deleteIndex.mpr ⟨hmem m (List.mem_cons_of_mem _ hm), ?_⟩
    rintro rfl
    exact (List.nodup_cons.mp hnd).1 hm
  · rw [hdoom]
    exact fun k hak hm => hsafe k hak (List.mem_cons_of_mem _ hm)

theorem finish (h : Settling docType dataset runs s ph)
    (hr : ∀ b ∈ aliases docType dataset,
      s.resolves b (Matches docType dataset) = {(runs j).indexName})
    {index : Index} (hready : Ready (runs j) index (s.contentOf (runs j).indexName))
    (result : Except (Failure ModelError) Index) :
    Settling docType dataset runs s (Function.update ph j (.ended result)) :=
  h.leave result (.inr (.inr ⟨j, hr, hready.2⟩))

end Settling

end Mimirsbrunn
