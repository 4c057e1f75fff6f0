import Mimirsbrunn.Publication.Completion
import Mimirsbrunn.Publication.Convergence

namespace Mimirsbrunn
open Regex Std Internal Phase

variable {D : Type} [Document D] {E : Engine D}

structure SwitchSafe (docType dataset : Text) (i : Import D) (s₀ s : Store D) (a : Text) :
    Prop where
  whole : s.resolves a (MadeFor docType dataset) = s₀.resolves a (MadeFor docType dataset) ∨
    (s.resolves a (MadeFor docType dataset) = {i.indexName} ∧ i.indexName ∉ s₀.indices ∧
      ∃ docs, s.contentOf i.indexName = some (docs, docs) ∧ Holds i.documents docs)
  single : (s.resolves a (MadeFor docType dataset)).Subsingleton
  kept : (s₀.resolves a (MadeFor docType dataset)).Nonempty →
    (s.resolves a (MadeFor docType dataset)).Nonempty
  alive : ∀ m ∈ s.resolves a (MadeFor docType dataset), m ∈ s.indices
  others : s.resolves a (fun m => ¬ MadeFor docType dataset m) =
    s₀.resolves a (fun m => ¬ MadeFor docType dataset m)

variable {docType dataset : Text} {i : Import D} {s₀ s : Store D} {index : Index}
  {previous done rest gone left : List Text} {a : Text}

theorem switchSafe_same (hone : (s₀.resolves a (MadeFor docType dataset)).Subsingleton)
    (h : ∀ m, s.Aliased a m ↔ s₀.Aliased a m) : SwitchSafe docType dataset i s₀ s a := by
  have he : s.resolves a (MadeFor docType dataset) = s₀.resolves a (MadeFor docType dataset) :=
    Store.resolves_congr (fun m _ => h m)
  exact ⟨.inl he, he ▸ hone, fun hne => he ▸ hne, fun m hm => hm.1.mem,
    Store.resolves_congr (fun m _ => h m)⟩

theorem switchSafe_moved (ht : Piece docType) (hd : Piece dataset)
    (hi : i.PublicFor docType dataset)
    (hown : ∀ m, s₀.Aliased a m → Matches docType dataset m → MadeFor docType dataset m)
    (h : Switched i s₀ s index previous done rest gone left)
    (hc : Ready i index (s.contentOf i.indexName)) (ha : a ∈ done) :
    SwitchSafe docType dataset i s₀ s a := by
  have hmem := mem_previous ht hd hi h
  have hn := not_mem_listed h.listed h.fresh
  have hgone : ∀ m ∈ gone, m ∈ previous := fun m hm => by
    rw [h.split]; exact List.mem_append_left _ hm
  have hal : ∀ m, s.Aliased a m ↔ (s₀.Aliased a m ∨ m = i.indexName) ∧ m ∉ previous := by
    intro m
    have := hgone m
    rw [h.moved.aliased]
    tauto
  have hnew : s.resolves a (MadeFor docType dataset) = {i.indexName} := by
    ext m
    simp only [Store.mem_resolves, Set.mem_singleton_iff, hal]
    constructor
    · rintro ⟨⟨hm | hm, hp⟩, hmade⟩
      · exact absurd ((hmem m).mpr ⟨hm.mem, hmade.matches⟩) hp
      · exact hm
    · rintro rfl
      exact ⟨⟨.inr rfl, hn⟩, madeFor_indexName hi⟩
  refine ⟨.inr ⟨hnew, h.fresh, hc.2⟩, ?_, ?_, fun m hm => hm.1.mem, Store.resolves_congr ?_⟩
  · rw [hnew]; exact Set.subsingleton_singleton
  · rw [hnew]; exact fun _ => Set.singleton_nonempty _
  · intro m hnot
    rw [hal]
    constructor
    · rintro ⟨hm | rfl, _⟩
      · exact hm
      · exact absurd (madeFor_indexName hi) hnot
    · intro hm
      refine ⟨.inl hm, fun hp => hnot (hown m hm ((hmem m).mp hp).2)⟩

theorem switch_safe (ht : Piece docType) (hd : Piece dataset) (hi : i.PublicFor docType dataset)
    (hone : ∀ a ∈ aliases docType dataset,
      (s₀.resolves a (MadeFor docType dataset)).Subsingleton)
    (hown : ∀ a ∈ aliases docType dataset, ∀ m, s₀.Aliased a m →
      Matches docType dataset m → MadeFor docType dataset m)
    {c : Es D ModelError Index} (h : (elasticsearch E).Reach (s₀, i.run) (s, c)) :
    ∀ a ∈ aliases docType dataset, SwitchSafe docType dataset i s₀ s a := by
  intro a ha
  cases reach_stopped h with
  | untouched he => exact switchSafe_same (hone a ha) (fun m => by rw [he])
  | created hc => exact switchSafe_same (hone a ha) (fun m => by simp [hc.2.aliased])
  | @switched index previous done rest gone left hsw hready =>
      by_cases hdone : a ∈ done
      · exact switchSafe_moved ht hd hi (hown a ha) hsw hready hdone
      · have hplan := (mem_plan ht hd hi hsw.named a).mpr ha
        rw [hsw.plan] at hplan
        have hrest : rest ≠ [] :=
          List.ne_nil_of_mem ((List.mem_append.mp hplan).resolve_left hdone)
        obtain rfl := hsw.order.resolve_right hrest
        exact switchSafe_same (hone a ha) (fun m => by simp [hsw.moved.aliased, hdone])

theorem switch_safe_second_import :
    ∃ s index, (elasticsearch (Engine.permissive Poi)).Reach
      (.published (rootDoctypeDatasetTs "poi".toList "fr".toList (.utc 2021 5 4 0 0 0 0))
        (aliases "poi".toList "fr".toList), (frImport (.utc 2021 5 5 0 0 0 0)).run)
      (s, Client.done (.ok index)) ∧
      ∀ a ∈ aliases "poi".toList "fr".toList, SwitchSafe "poi".toList "fr".toList
        (frImport (.utc 2021 5 5 0 0 0 0))
        (.published (rootDoctypeDatasetTs "poi".toList "fr".toList (.utc 2021 5 4 0 0 0 0))
          (aliases "poi".toList "fr".toList)) s a := by
  have hfresh : (frImport (.utc 2021 5 5 0 0 0 0)).indexName ∉ (Store.published
      (rootDoctypeDatasetTs "poi".toList "fr".toList (.utc 2021 5 4 0 0 0 0))
      (aliases "poi".toList "fr".toList) : Store Poi).indices := by
    rw [Store.mem_published]
    decide
  obtain ⟨s, index, hrun⟩ := import_completes (frImport_smooth (.utc 2021 5 5 0 0 0 0)) hfresh
  refine ⟨s, index, hrun, switch_safe (by decide) (by decide) (frImport_for _) ?_ ?_ hrun⟩
  · intro a _ m hm m' hm'
    exact (Store.aliased_published.mp hm.1).1.trans (Store.aliased_published.mp hm'.1).1.symm
  · intro a _ m hm _
    exact ⟨_, (Store.aliased_published.mp hm).1⟩

theorem exists_unsafe_run (ht : Piece docType) (hd : Piece dataset)
    (hi : i.PublicFor docType dataset) (hs : Smooth E i) (hf : i.indexName ∉ s₀.indices) {m : Text}
    (hal : s₀.Aliased a m) (hma : Matches docType dataset m)
    (hnot : ¬ MadeFor docType dataset m) :
    ∃ s index, (elasticsearch E).Reach (s₀, i.run) (s, Client.done (.ok index)) ∧
      ¬ SwitchSafe docType dataset i s₀ s a := by
  obtain ⟨s, index, hrun⟩ := import_completes hs hf
  refine ⟨s, index, hrun, fun hsafe => ?_⟩
  have hin : m ∈ s.resolves a (fun m => ¬ MadeFor docType dataset m) := by
    rw [hsafe.others]
    exact ⟨hal, hnot⟩
  have hnew := (import_sweeps ht hd hi hrun m).mp ⟨hin.1.mem, hma⟩
  exact hf (hnew ▸ hal.mem)

def frIdf : Text := rootDoctypeDatasetTs "poi".toList "fr_idf".toList (.utc 2021 5 4 0 0 0 0)

theorem frIdf_not_madeFor_fr : ¬ MadeFor "poi".toList "fr".toList frIdf := by
  rintro ⟨now, h⟩
  have hc := congrArg (List.count '_') h
  rw [frIdf, count_rootDoctypeDatasetTs, count_rootDoctypeDatasetTs] at hc
  exact absurd hc (by decide)

-- The index of fr_idf is published under the aliases its name decodes to, those of fr.
theorem fr_idf_unpublished_by_fr :
    ∃ (s₀ s : Store Poi) (index : Index),
      (∀ a ∈ aliases "poi".toList "fr".toList,
        (s₀.resolves a (MadeFor "poi".toList "fr".toList)).Subsingleton) ∧
      (elasticsearch (Engine.permissive Poi)).Reach
        (s₀, (frImport (.utc 2021 5 5 0 0 0 0)).run) (s, Client.done (.ok index)) ∧
      ¬ SwitchSafe "poi".toList "fr".toList (frImport (.utc 2021 5 5 0 0 0 0)) s₀ s root := by
  have hfresh : (frImport (.utc 2021 5 5 0 0 0 0)).indexName ∉
      (Store.published frIdf (aliases "poi".toList "fr".toList) : Store Poi).indices := by
    rw [Store.mem_published]
    decide
  have haliased : (Store.published frIdf (aliases "poi".toList "fr".toList) : Store Poi).Aliased
      root frIdf := Store.aliased_published.mpr ⟨rfl, by decide⟩
  obtain ⟨s, index, hrun, hbad⟩ := exists_unsafe_run (by decide) (by decide) (frImport_for _)
    (frImport_smooth (.utc 2021 5 5 0 0 0 0)) hfresh haliased (by decide +kernel)
    frIdf_not_madeFor_fr
  refine ⟨_, s, index, fun a _ m hm => ?_, hrun, hbad⟩
  exact absurd hm.2 ((Store.aliased_published.mp hm.1).1 ▸ frIdf_not_madeFor_fr)

end Mimirsbrunn
