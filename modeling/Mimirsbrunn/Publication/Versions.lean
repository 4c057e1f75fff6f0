import Mimirsbrunn.Publication.Readers

namespace Mimirsbrunn
open Regex Std Internal Phase

variable {D : Type} [Document D] {E : Engine D} {docType dataset : Text} {i : Import D}
  {s₀ s : Store D} {names : List Text}

-- The names a reader searches concern a dataset through one of its aliases at most, and before the
-- import no other name led to the indices of the dataset.
structure ReadsOneAlias (docType dataset : Text) (s₀ : Store D) (names : List Text) : Prop where
  unnamed : ∀ a ∈ names, ¬ MadeFor docType dataset a
  single : ∀ a ∈ names, ∀ b ∈ names, a ∈ aliases docType dataset → b ∈ aliases docType dataset →
    a = b
  quiet : ∀ a ∈ names, ∀ m, s₀.Aliased a m → MadeFor docType dataset m →
    a ∈ aliases docType dataset

def OwnVersion (docType dataset : Text) (i : Import D) (s₀ s : Store D) (names : List Text) : Prop :=
  (∀ n, MadeFor docType dataset n → (s.Searches names n ↔ s₀.Searches names n) ∧
    (s.Searches names n → s.contentOf n = s₀.contentOf n)) ∨
  ((∀ n, MadeFor docType dataset n → (s.Searches names n ↔ n = i.indexName)) ∧
    ∃ docs, s.contentOf i.indexName = some (docs, docs) ∧ Holds i.documents docs)

structure OneVersion (docType dataset : Text) (i : Import D) (s₀ s : Store D)
    (names : List Text) : Prop where
  own : OwnVersion docType dataset i s₀ s names
  others : ∀ n, ¬ MadeFor docType dataset n → s.Searches names n →
    s₀.Searches names n ∧ s.contentOf n = s₀.contentOf n

omit [Document D] in
theorem content_of_kept {Q : Text → D → Prop} (h : Quiet i Q s₀ s) {n : Text} (hn : n ∈ s.indices)
    (hne : n ≠ i.indexName) : s.contentOf n = s₀.contentOf n := by
  rcases h.kept n hne with hnone | hsame
  · obtain ⟨e, he⟩ := Store.mem_iff.mp hn
    simp [Store.contentOf, he] at hnone
  · exact hsame

omit [Document D] in
theorem searches_alias (hr : ReadsOneAlias docType dataset s₀ names) {n : Text}
    (h : s.Searches names n) (hn : MadeFor docType dataset n) : ∃ a ∈ names, s.Aliased a n := by
  obtain ⟨a, ha, _, rfl | hal⟩ := h
  · exact absurd hn (hr.unnamed n ha)
  · exact ⟨a, ha, hal⟩

omit [Document D] in
theorem Store.Aliased.searches {a n : Text} (h : s.Aliased a n) (ha : a ∈ names) :
    s.Searches names n :=
  ⟨a, ha, h.mem, .inr h⟩

theorem oneVersion_same {Q : Text → D → Prop} (hi : i.PublicFor docType dataset)
    (hr : ReadsOneAlias docType dataset s₀ names)
    (hq : Quiet i Q s₀ s) (hfresh : i.indexName ∉ s₀.indices)
    (hmem : ∀ m, m ∈ s.indices → m ∈ s₀.indices ∨ m = i.indexName)
    (hal : ∀ a ∈ names, ∀ m, s.Aliased a m → s₀.Aliased a m)
    (hown : ∀ a ∈ names, ∀ m, MadeFor docType dataset m → s₀.Aliased a m → s.Aliased a m) :
    OneVersion docType dataset i s₀ s names := by
  have hold : ∀ n, s.Searches names n → s₀.Searches names n ∧ s.contentOf n = s₀.contentOf n := by
    rintro n ⟨a, ha, hn, hna⟩
    have hne : n ≠ i.indexName := by
      rintro rfl
      rcases hna with rfl | hna
      · exact hr.unnamed _ ha (madeFor_indexName hi)
      · exact hfresh (hal a ha _ hna).mem
    refine ⟨⟨a, ha, (hmem n hn).resolve_right hne, hna.imp_right (hal a ha n)⟩, ?_⟩
    exact content_of_kept hq hn hne
  refine ⟨.inl fun n hmade => ⟨⟨fun hn => (hold n hn).1, fun hn => ?_⟩, fun hn => (hold n hn).2⟩,
    fun n _ hn => hold n hn⟩
  obtain ⟨a, ha, hna⟩ := searches_alias hr hn hmade
  exact (hown a ha n hmade hna).searches ha

theorem oneVersion_switched {Q : Text → D → Prop} {index : Index}
    {previous done rest gone left : List Text} (ht : Piece docType) (hd : Piece dataset)
    (hi : i.PublicFor docType dataset) (hr : ReadsOneAlias docType dataset s₀ names)
    (hq : Quiet i Q s₀ s) (h : Switched i s₀ s index previous done rest gone left)
    (hc : Ready i index (s.contentOf i.indexName)) : OneVersion docType dataset i s₀ s names := by
  have hmem := mem_previous ht hd hi h
  have hplan : ∀ a, a ∈ done ++ rest ↔ a ∈ aliases docType dataset := by
    intro a
    rw [← h.plan, mem_plan ht hd hi h.named]
  have hgone : ∀ m ∈ gone, m ∈ previous := fun m hm => by
    rw [h.split]
    exact List.mem_append_left _ hm
  have hstore : ∀ m, m ∈ s.indices → m ∈ s₀.indices ∨ m = i.indexName := fun m hm =>
    ((h.moved.mem m).mp hm).1
  by_cases hdone : ∃ a ∈ names, a ∈ done
  · obtain ⟨a, ha, had⟩ := hdone
    have hal := (hplan a).mp (List.mem_append_left _ had)
    have honly : ∀ n, s.Searches names n → MadeFor docType dataset n → n = i.indexName := by
      intro n hn hmade
      obtain ⟨b, hb, hbn⟩ := searches_alias hr hn hmade
      obtain ⟨⟨hold | hnew, hkept⟩, _⟩ := (h.moved.aliased b n).mp hbn
      · obtain rfl := hr.single a ha b hb hal (hr.quiet b hb n hold hmade)
        exact absurd ⟨had, (hmem n).mpr ⟨hold.mem, hmade.matches⟩⟩ hkept
      · exact hnew.2
    have hnew : s.Aliased a i.indexName := by
      have hp := not_mem_listed h.listed h.fresh
      exact (h.moved.aliased a _).mpr ⟨⟨.inr ⟨had, rfl⟩, fun hboth => hp hboth.2⟩,
        fun hg => hp (hgone _ hg)⟩
    refine ⟨.inr ⟨fun n hmade => ⟨fun hn => honly n hn hmade, ?_⟩, hc.2⟩, ?_⟩
    · rintro rfl
      exact hnew.searches ha
    · rintro n hnot ⟨b, hb, hn, hbn⟩
      have hne : n ≠ i.indexName := fun he => hnot (he ▸ madeFor_indexName hi)
      refine ⟨⟨b, hb, (hstore n hn).resolve_right hne, hbn.imp_right fun hbn => ?_⟩,
        content_of_kept hq hn hne⟩
      exact ((h.moved.aliased b n).mp hbn).1.1.resolve_right fun hnew => hne hnew.2
  · have hnot : ∀ a ∈ names, a ∉ done := fun a ha had => hdone ⟨a, ha, had⟩
    refine oneVersion_same hi hr hq h.fresh hstore (fun a ha m hm => ?_) fun a ha m hmade hm => ?_
    · exact ((h.moved.aliased a m).mp hm).1.1.resolve_right fun hnew => hnot a ha hnew.1
    · have hrest := ((List.mem_append.mp ((hplan a).mpr (hr.quiet a ha m hm hmade))).resolve_left
        (hnot a ha))
      obtain rfl := h.order.resolve_right (List.ne_nil_of_mem hrest)
      exact (h.moved.aliased a m).mpr
        ⟨⟨.inl hm, fun hboth => hnot a ha hboth.1⟩, List.not_mem_nil⟩

theorem reach_oneVersion (ht : Piece docType) (hd : Piece dataset)
    (hi : i.PublicFor docType dataset) (hr : ReadsOneAlias docType dataset s₀ names)
    {Q : Text → D → Prop} (hQ : ∀ d ∈ i.documents, Q i.indexName d) (h₀ : s₀.AllDocs Q)
    {c : Es D ModelError Index} (h : (elasticsearch E).Reach (s₀, i.run) (s, c)) :
    OneVersion docType dataset i s₀ s names ∧ s.AllDocs Q := by
  obtain ⟨hstopped, hq⟩ := reach_quiet h hQ h₀
  refine ⟨?_, hq.docs⟩
  cases hstopped with
  | untouched he =>
    subst he
    exact ⟨.inl fun n _ => ⟨Iff.rfl, fun _ => rfl⟩, fun n _ hn => ⟨hn, rfl⟩⟩
  | created hc =>
    have hal : ∀ a m, s.Aliased a m ↔ s₀.Aliased a m := fun a m => by simp [hc.2.aliased]
    exact oneVersion_same hi hr hq hc.1 (fun m hm => ((hc.2.mem m).mp hm).1)
      (fun a _ m hm => (hal a m).mp hm) (fun a _ m _ hm => (hal a m).mpr hm)
  | switched hsw hready => exact oneVersion_switched ht hd hi hr hq hsw hready

def OwnHits (docType dataset : Text) (i : Import D) (s₀ : Store D) (names : List Text)
    (hits : List (Text × D)) : Prop :=
  (∀ hit ∈ hits, MadeFor docType dataset hit.1 →
    s₀.Searches names hit.1 ∧ s₀.Searchable hit.1 hit.2) ∨
  (∀ hit ∈ hits, MadeFor docType dataset hit.1 → hit.1 = i.indexName ∧ hit.2 ∈ i.documents)

structure Versioned (docType dataset : Text) (i : Import D) (s₀ : Store D) (names : List Text)
    (hits : List (Text × D)) : Prop where
  own : OwnHits docType dataset i s₀ names hits
  others : ∀ hit ∈ hits, ¬ MadeFor docType dataset hit.1 →
    s₀.Searches names hit.1 ∧ s₀.Searchable hit.1 hit.2

omit [Document D] in
theorem searchable_congr {n : Text} {d : D} (h : s.contentOf n = s₀.contentOf n) :
    s.Searchable n d ↔ s₀.Searchable n d := by
  rw [Store.Searchable, Store.Searchable, h]

theorem OwnVersion.hits (h : OwnVersion docType dataset i s₀ s names) {hits : List (Text × D)}
    (hhits : ∀ hit ∈ hits, s.Searches names hit.1 ∧ s.Searchable hit.1 hit.2) :
    OwnHits docType dataset i s₀ names hits := by
  rcases h with hold | ⟨hnew, whole, hwhole, hholds⟩
  · refine .inl fun hit hhit hmade => ?_
    obtain ⟨hs, hd⟩ := hhits hit hhit
    obtain ⟨hsearches, hsame⟩ := hold hit.1 hmade
    exact ⟨hsearches.mp hs, (searchable_congr (hsame hs)).mp hd⟩
  · refine .inr fun hit hhit hmade => ?_
    obtain ⟨hs, docs, searchable, id, hc, hd⟩ := hhits hit hhit
    have hname := (hnew hit.1 hmade).mp hs
    rw [hname, hwhole] at hc
    obtain ⟨rfl, rfl⟩ := Prod.mk.inj (Option.some.inj hc)
    exact ⟨hname, (hholds.sound id hit.2 hd).1⟩

theorem OneVersion.versioned (h : OneVersion docType dataset i s₀ s names)
    {hits : List (Text × D)}
    (hhits : ∀ hit ∈ hits, s.Searches names hit.1 ∧ s.Searchable hit.1 hit.2) :
    Versioned docType dataset i s₀ names hits := by
  refine ⟨h.own.hits hhits, fun hit hhit hnot => ?_⟩
  obtain ⟨hs, hd⟩ := hhits hit hhit
  obtain ⟨hsearches, hsame⟩ := h.others hit.1 hnot hs
  exact ⟨hsearches, (searchable_congr hsame).mp hd⟩

end Mimirsbrunn
