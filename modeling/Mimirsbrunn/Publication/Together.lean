import Mimirsbrunn.Publication.Apart
import Mimirsbrunn.Publication.Lookups

namespace Mimirsbrunn
open Regex Std Internal Phase

variable {D : Type} [Document D] {E : Engine D} {i : Import D} {s₀ s : Store D} {index : Index}
  {a m : Text}

theorem import_replaces (ht : Piece i.config.name) (hd : Piece i.config.dataset)
    (h : (elasticsearch E).Reach (s₀, i.run) (s, Client.done (.ok index))) (hm : i.Covers m) :
    (m ∈ s.indices ↔ m = i.indexName) ∧
      ∀ a, s.Aliased a m ↔ m = i.indexName ∧ a ∈ i.plan index := by
  obtain ⟨_, previous, hsw⟩ := reach_ended h
  obtain ⟨hdoc, hset⟩ := named_config ht hd hsw.named
  have hprevious : m ∈ previous ↔ m ∈ s₀.indices := by
    rw [hsw.listed.mem, pattern, hdoc, hset]
    exact and_iff_left hm
  have hnew : i.indexName ∉ previous := not_mem_listed hsw.listed hsw.fresh
  refine ⟨?_, fun a => ?_⟩
  · rw [hsw.moved.mem, hprevious]
    constructor
    · rintro ⟨hold | hnew, hnot⟩
      · exact absurd hold hnot
      · exact hnew
    · rintro rfl
      exact ⟨.inr rfl, hsw.fresh⟩
  · rw [hsw.moved.aliased, hprevious]
    constructor
    · rintro ⟨⟨hold | ⟨ha, he⟩, _⟩, hnot⟩
      · exact absurd hold.mem hnot
      · exact ⟨he, ha⟩
    · rintro ⟨rfl, ha⟩
      exact ⟨⟨.inr ⟨ha, rfl⟩, fun hc => hsw.fresh hc.2⟩, hsw.fresh⟩

variable {ι : Type} [DecidableEq ι] {runs : ι → Import D} {clients : ι → Es D ModelError Index}
  {indices : ι → Index}

theorem throng_others (hruns : Separate runs)
    (h : (elasticsearch E).ThrongReach (s₀, fun k => (runs k).run) (s, clients))
    (hm : ∀ k, ¬ (runs k).Covers m) : s.indices[m]? = s₀.indices[m]? := by
  refine (Service.throng_invariant (fun s : Store D => s.indices[m]? = s₀.indices[m]?)
    (fun k c => ∃ ph : Phase D, c = ph.client (runs k) ∧ ph.Owned (runs k)) ?_ h rfl
    (fun k => ⟨.creating, rfl, trivial, List.forall_mem_nil _⟩)).1
  rintro j s _ r x s' c' hI ⟨ph, rfl, hph⟩ hs
  obtain ⟨ph', rfl, hs'⟩ := step_of_client hs
  refine ⟨?_, ph', rfl, owned_step (hruns.name j) (hruns.dataset j) hs' hph⟩
  have hunseen := Service.Apart.unseen (k := none)
    (elasticsearch_apart (p := fun o : Option ι => o.elim (· = m) fun k => (runs k).Covers) ?_)
    (j := some j) nofun (sends_client (hruns.name j) (hruns.dataset j) hph)
    (Store.Same.refl _ s) hs
  · exact (hunseen m rfl).trans hI
  · rintro (_ | j) (_ | k) n hj hk
    · rfl
    · exact absurd ((show n = m from hj) ▸ hk) (hm k)
    · exact absurd ((show n = m from hk) ▸ hj) (hm j)
    · exact congrArg some (hruns.covers hj hk)

structure Replaced (runs : ι → Import D) (indices : ι → Index) (s₀ s : Store D) : Prop where
  named : ∀ k, (indices k).name = (runs k).indexName ∧
    (indices k).doc_type = (runs k).config.name ∧ (indices k).dataset = (runs k).config.dataset
  mem : ∀ m, m ∈ s.indices ↔
    (∃ k, m = (runs k).indexName) ∨ m ∈ s₀.indices ∧ ∀ k, ¬ (runs k).Covers m
  aliased : ∀ a m, s.Aliased a m ↔
    (∃ k, m = (runs k).indexName ∧ a ∈ (runs k).plan (indices k)) ∨
      s₀.Aliased a m ∧ ∀ k, ¬ (runs k).Covers m
  held : ∀ k, ∃ docs, s.contentOf (runs k).indexName = some (docs, docs) ∧
    Holds (runs k).documents docs
  others : ∀ m, (∀ k, ¬ (runs k).Covers m) → s.indices[m]? = s₀.indices[m]?

omit [Document D] in
theorem Store.Same.searches {p : Text → Prop} {t : Store D} (h : Store.Same p s t) {n : Text}
    (hn : p n) {names : List Text} : s.Searches names n ↔ t.Searches names n := by
  have hstands : ∀ a, s.Stands a n ↔ t.Stands a n := fun a => by
    rw [Store.Stands, Store.Stands, h.mem hn, h.aliased hn]
  simp only [Store.Searches, hstands]

structure OneVersionEach (runs : ι → Import D) (s₀ s : Store D) (names : List Text) : Prop where
  own : ∀ k, OwnVersion (runs k).config.name (runs k).config.dataset (runs k) s₀ s names
  others : ∀ n, (∀ k, ¬ MadeFor (runs k).config.name (runs k).config.dataset n) →
    s.Searches names n → s₀.Searches names n ∧ s.contentOf n = s₀.contentOf n

theorem throng_oneVersion (hruns : Separate runs)
    (hpublic : ∀ k, (runs k).config.visibility = .Public)
    {names : List Text}
    (hreads : ∀ k, ReadsOneAlias (runs k).config.name (runs k).config.dataset s₀ names)
    (h : (elasticsearch E).ThrongReach (s₀, fun k => (runs k).run) (s, clients)) :
    OneVersionEach runs s₀ s names := by
  have halone (k : ι) : ∃ t, Store.Same (runs k).Covers s t ∧
      OneVersion (runs k).config.name (runs k).config.dataset (runs k) s₀ t names := by
    obtain ⟨t, hreach, hsame⟩ := goes_as_alone hruns h k
    exact ⟨t, hsame, (reach_oneVersion (hruns.name k) (hruns.dataset k) ⟨rfl, rfl, hpublic k⟩
      (hreads k) (Q := fun _ _ => True) (fun _ _ => trivial) (fun _ _ _ _ _ _ _ => trivial)
      hreach).1⟩
  refine ⟨fun k => ?_, fun n hn hsearched => ?_⟩
  · obtain ⟨t, hst, ht⟩ := halone k
    rcases ht.own with hold | ⟨hnew, docs, hcontent, hholds⟩
    · refine .inl fun n hmade => ?_
      have hcovers : (runs k).Covers n := hmade.matches
      rw [hst.searches hcovers, hst.contentOf hcovers]
      exact hold n hmade
    · refine .inr ⟨fun n hmade => ?_, docs, ?_, hholds⟩
      · rw [hst.searches (show (runs k).Covers n from hmade.matches)]
        exact hnew n hmade
      · rw [hst.contentOf (runs k).covers_indexName]
        exact hcontent
  · by_cases hm : ∃ k, (runs k).Covers n
    · obtain ⟨k, hk⟩ := hm
      obtain ⟨t, hst, ht⟩ := halone k
      rw [hst.searches hk] at hsearched
      rw [hst.contentOf hk]
      exact ht.others n (hn k) hsearched
    · have hst : Store.Same (· = n) s s₀ := by
        rintro _ rfl
        exact throng_others hruns h fun k hk => hm ⟨k, hk⟩
      exact ⟨(hst.searches rfl).mp hsearched, hst.contentOf rfl⟩

structure VersionedEach (runs : ι → Import D) (s₀ : Store D) (names : List Text)
    (hits : List (Text × D)) : Prop where
  own : ∀ k, OwnHits (runs k).config.name (runs k).config.dataset (runs k) s₀ names hits
  others : ∀ hit ∈ hits, (∀ k, ¬ MadeFor (runs k).config.name (runs k).config.dataset hit.1) →
    s₀.Searches names hit.1 ∧ s₀.Searchable hit.1 hit.2

omit [DecidableEq ι] in
theorem OneVersionEach.versioned {names : List Text} (h : OneVersionEach runs s₀ s names)
    {hits : List (Text × D)}
    (hhits : ∀ hit ∈ hits, s.Searches names hit.1 ∧ s.Searchable hit.1 hit.2) :
    VersionedEach runs s₀ names hits := by
  refine ⟨fun k => (h.own k).hits hhits, fun hit hhit hnot => ?_⟩
  obtain ⟨hs, hd⟩ := hhits hit hhit
  obtain ⟨hsearches, hsame⟩ := h.others hit.1 hnot hs
  exact ⟨hsearches, (searchable_congr hsame).mp hd⟩

end Mimirsbrunn
