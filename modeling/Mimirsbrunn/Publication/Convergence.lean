import Mimirsbrunn.Publication.Completion
import Mimirsbrunn.Publication.Dataset

namespace Mimirsbrunn
open Regex Internal Phase

variable {D : Type} [Document D] {E : Engine D}

inductive History (E : Engine D) : List (Import D) → Store D → Store D → Prop
  | nil {s : Store D} : History E [] s s
  | run {i : Import D} {runs : List (Import D)} {s s' s'' : Store D} {c : Es D ModelError Index} :
      (elasticsearch E).Reach (s, i.run) (s', c) → History E runs s' s'' →
      History E (i :: runs) s s''

variable {docType dataset : Text} {i : Import D} {s s' : Store D} {index : Index}

theorem import_sweeps (ht : Piece docType) (hd : Piece dataset) (hi : i.PublicFor docType dataset)
    (h : (elasticsearch E).Reach (s, i.run) (s', Client.done (.ok index))) (m : Text) :
    m ∈ s'.indices ∧ Matches docType dataset m ↔ m = i.indexName := by
  obtain ⟨_, previous, hsw⟩ := reach_ended h
  rw [hsw.moved.mem, mem_previous ht hd hi hsw]
  constructor
  · rintro ⟨⟨hm | hm, hn⟩, hma⟩
    · exact absurd ⟨hm, hma⟩ hn
    · exact hm
  · rintro rfl
    exact ⟨⟨.inr rfl, fun hc => hsw.fresh hc.1⟩, (madeFor_indexName hi).matches⟩

theorem import_resolves (ht : Piece docType) (hd : Piece dataset)
    (hi : i.PublicFor docType dataset)
    (h : (elasticsearch E).Reach (s, i.run) (s', Client.done (.ok index))) {a : Text}
    (ha : a ∈ aliases docType dataset) :
    s'.resolves a (Matches docType dataset) = {i.indexName} := by
  obtain ⟨_, previous, hsw⟩ := reach_ended h
  have hp := (mem_plan ht hd hi hsw.named a).mpr ha
  ext m
  simp only [Store.mem_resolves, Set.mem_singleton_iff]
  constructor
  · rintro ⟨hal, hma⟩
    exact (import_sweeps ht hd hi h m).mp ⟨hal.mem, hma⟩
  · rintro rfl
    have hn := not_mem_listed hsw.listed hsw.fresh
    exact ⟨(hsw.moved.aliased a _).mpr ⟨⟨.inr ⟨hp, rfl⟩, fun hc => hn hc.2⟩, hn⟩,
      (madeFor_indexName hi).matches⟩

-- The store before the last run is any store: what the runs before it left is one of them.
theorem converges_after_failures (ht : Piece docType) (hd : Piece dataset)
    (hi : i.PublicFor docType dataset)
    (hlast : (elasticsearch E).Reach (s, i.run) (s', Client.done (.ok index))) :
    index.name = i.indexName ∧ i.indexName ∉ s.indices ∧
      (∀ m, m ∈ s'.indices ∧ Matches docType dataset m ↔ m = i.indexName) ∧
      ∀ a ∈ aliases docType dataset,
        s'.resolves a (Matches docType dataset) = {i.indexName} := by
  obtain ⟨hh, previous, hsw⟩ := reach_ended hlast
  exact ⟨hsw.named.1, hsw.fresh, import_sweeps ht hd hi hlast,
    fun a ha => import_resolves ht hd hi hlast ha⟩

def frImport (now : DateTime) : Import Poi :=
  .plain "poi".toList "fr".toList now [⟨"poi:1".toList, "Gare".toList⟩]

theorem frImport_for (now : DateTime) : (frImport now).PublicFor "poi".toList "fr".toList :=
  ⟨rfl, rfl, rfl⟩

theorem frImport_smooth (now : DateTime) : Smooth (Engine.permissive Poi) (frImport now) :=
  Import.plain_smooth (by decide) (by decide) now (by simp)

theorem frImport_orphaned (now : DateTime) : ∃ (s : Store Poi) (e : Failure ModelError),
    (elasticsearch (Engine.permissive Poi)).Reach ((⟨∅, []⟩ : Store Poi), (frImport now).run)
      (s, Client.done (.error e)) ∧
    ∀ m, m ∈ s.indices ↔ m = (frImport now).indexName := by
  have haccepted := (frImport_smooth now).accepted
  have hempty : (frImport now).indexName ∉ (⟨∅, []⟩ : Store Poi).indices := by simp
  have hcreate := createIndex_served (frImport now).config.number_of_shards
    (frImport now).config.number_of_replicas hempty haccepted
  rw [Import.indexName] at hcreate
  refine ⟨((⟨∅, []⟩ : Store Poi).createIndex (Engine.permissive Poi) (frImport now).indexName 1 1).1,
    .err (.indexCreation (.containerCreationError (.elasticsearchClient
      ("cannot find index '".toList ++ (frImport now).indexName ++ "'".toList)))),
    Service.reach_served ?_, fun m => ?_⟩
  · simp only [Client.bind, elasticsearch, Store.serve, hcreate]
    exact .single ⟨_, .transport, .call (.broken (.dropped _ _) trivial)⟩
  · rw [Store.mem_createIndex]
    simp [haccepted]

theorem converges_after_orphan :
    ∃ (s s' : Store Poi) (index : Index),
      History (Engine.permissive Poi) [frImport (.utc 2021 5 4 0 0 0 0)] ⟨∅, []⟩ s ∧
      (frImport (.utc 2021 5 4 0 0 0 0)).indexName ∈ s.indices ∧
      index.name ∉ s.indices ∧
      (∀ m, m ∈ s'.indices ∧ Matches "poi".toList "fr".toList m ↔
        m = (frImport (.utc 2021 5 5 0 0 0 0)).indexName) ∧
      ∀ a ∈ aliases "poi".toList "fr".toList,
        s'.resolves a (Matches "poi".toList "fr".toList) =
          {(frImport (.utc 2021 5 5 0 0 0 0)).indexName} := by
  obtain ⟨s, e, hfailed, honly⟩ := frImport_orphaned (.utc 2021 5 4 0 0 0 0)
  have hfresh : (frImport (.utc 2021 5 5 0 0 0 0)).indexName ∉ s.indices := by
    rw [honly]
    decide
  obtain ⟨s', index, hlast⟩ := import_completes (frImport_smooth (.utc 2021 5 5 0 0 0 0)) hfresh
  obtain ⟨hname, hnew, hindices, haliases⟩ :=
    converges_after_failures (by decide) (by decide) (frImport_for _) hlast
  exact ⟨s, s', index, .run hfailed .nil, (honly _).mpr rfl, hname ▸ hnew, hindices, haliases⟩

end Mimirsbrunn
