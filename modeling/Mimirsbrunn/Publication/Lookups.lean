import Mimirsbrunn.Publication.Versions

namespace Mimirsbrunn
open Regex Std Internal Phase

variable {D : Type} [Document D] {E : Engine D} {docType dataset : Text} {i : Import D}
  {s₀ s : Store D} {index : Index} {previous done rest gone left : List Text} {a n id : Text}

theorem aliases_not_madeFor (ha : a ∈ aliases docType dataset) : ¬ MadeFor docType dataset a := by
  rintro ⟨now, rfl⟩
  have hcount := count_rootDoctypeDatasetTs docType dataset now
  have hroot : indexRoot.count '_' = 0 := by decide
  simp only [aliases, List.mem_cons, List.not_mem_nil, or_false] at ha
  rcases ha with h | h | h
  · rw [h, root, hroot] at hcount
    omega
  · rw [h] at hcount
    simp only [rootDoctype, List.count_append, List.count_cons_self, hroot] at hcount
    omega
  · rw [h] at hcount
    simp only [rootDoctypeDataset, List.count_append, List.count_cons_self, hroot] at hcount
    omega

structure Single (docType dataset : Text) (s : Store D) (a n : Text) : Prop where
  named : a ∈ aliases docType dataset
  aliased : s.Aliased a n
  made : MadeFor docType dataset n
  only : ∀ m, s.Stands a m → m = n

namespace Single

omit [Document D] in
theorem target (h : Single docType dataset s a n) : s.target a = some n :=
  Store.target_eq_some.mpr ⟨⟨h.aliased.mem, .inr h.aliased⟩, h.only⟩

omit [Document D] in
theorem not_index (h : Single docType dataset s a n) : a ∉ s.indices := by
  intro ha
  obtain rfl := h.only a ⟨ha, .inl rfl⟩
  exact aliases_not_madeFor h.named h.made

omit [Document D] in
theorem same (h : Single docType dataset s₀ a n) (hi : i.PublicFor docType dataset)
    (hmem : ∀ m, m ∈ s.indices → m ∈ s₀.indices ∨ m = i.indexName)
    (hal : ∀ m, s.Aliased a m ↔ s₀.Aliased a m) : Single docType dataset s a n := by
  refine ⟨h.named, (hal n).mpr h.aliased, h.made, ?_⟩
  rintro m ⟨hm, rfl | hma⟩
  · rcases hmem m hm with hold | rfl
    · exact absurd hold h.not_index
    · exact absurd (madeFor_indexName hi) (aliases_not_madeFor h.named)
  · exact h.only m ⟨((hal m).mp hma).mem, .inr ((hal m).mp hma)⟩

omit [Document D] in
theorem moved (h : Single docType dataset s₀ a n) (ht : Piece docType) (hd : Piece dataset)
    (hi : i.PublicFor docType dataset) (hsw : Switched i s₀ s index previous done rest gone left)
    (ha : a ∈ done) : Single docType dataset s a i.indexName := by
  have hp := not_mem_listed hsw.listed hsw.fresh
  have hgone : ∀ m ∈ gone, m ∈ previous := fun m hm => by
    rw [hsw.split]
    exact List.mem_append_left _ hm
  refine ⟨h.named, (hsw.moved.aliased a _).mpr ⟨⟨.inr ⟨ha, rfl⟩, fun hc => hp hc.2⟩,
    fun hg => hp (hgone _ hg)⟩, madeFor_indexName hi, ?_⟩
  rintro m ⟨hm, rfl | hma⟩
  · rcases ((hsw.moved.mem m).mp hm).1 with hold | rfl
    · exact absurd hold h.not_index
    · rfl
  · obtain ⟨⟨hold | hnew, hkept⟩, _⟩ := (hsw.moved.aliased a m).mp hma
    · obtain rfl := h.only m ⟨hold.mem, .inr hold⟩
      exact absurd ⟨ha, (mem_previous ht hd hi hsw m).mpr ⟨hold.mem, h.made.matches⟩⟩ hkept
    · exact hnew.2

end Single

theorem reach_single (ht : Piece docType) (hd : Piece dataset) (hi : i.PublicFor docType dataset)
    (h₀ : Single docType dataset s₀ a n) {c : Es D ModelError Index}
    (h : (elasticsearch E).Reach (s₀, i.run) (s, c)) :
    (Single docType dataset s a n ∧ s.contentOf n = s₀.contentOf n) ∨
    (Single docType dataset s a i.indexName ∧
      ∃ docs, s.contentOf i.indexName = some (docs, docs) ∧ Holds i.documents docs) := by
  obtain ⟨hstopped, hq⟩ := reach_quiet (Q := fun _ _ => True) h (fun _ _ => trivial)
    (fun _ _ _ _ _ _ _ => trivial)
  have hsame (hfresh : i.indexName ∉ s₀.indices)
      (hmem : ∀ m, m ∈ s.indices → m ∈ s₀.indices ∨ m = i.indexName)
      (hal : ∀ m, s.Aliased a m ↔ s₀.Aliased a m) :
      Single docType dataset s a n ∧ s.contentOf n = s₀.contentOf n := by
    have hsingle := h₀.same hi hmem hal
    refine ⟨hsingle, content_of_kept hq hsingle.aliased.mem ?_⟩
    rintro rfl
    exact hfresh h₀.aliased.mem
  cases hstopped with
  | untouched he =>
    subst he
    exact .inl ⟨h₀, rfl⟩
  | created hc =>
    exact .inl (hsame hc.1 (fun m hm => ((hc.2.mem m).mp hm).1)
      fun m => by simp [hc.2.aliased])
  | @switched index previous done rest gone left hsw hready =>
    by_cases ha : a ∈ done
    · exact .inr ⟨h₀.moved ht hd hi hsw ha, hready.2⟩
    · have hrest : rest ≠ [] := by
        have hplan := (mem_plan ht hd hi hsw.named a).mpr h₀.named
        rw [hsw.plan] at hplan
        exact List.ne_nil_of_mem ((List.mem_append.mp hplan).resolve_left ha)
      obtain rfl := hsw.order.resolve_right hrest
      exact .inl (hsame hsw.fresh (fun m hm => ((hsw.moved.mem m).mp hm).1)
        fun m => by simp [hsw.moved.aliased, ha])

theorem import_single (ht : Piece docType) (hd : Piece dataset) (hi : i.PublicFor docType dataset)
    (ha : a ∈ aliases docType dataset) (hnot : a ∉ s₀.indices)
    (hown : ∀ m, s₀.Aliased a m → Matches docType dataset m)
    (h : (elasticsearch E).Reach (s₀, i.run) (s, Client.done (.ok index))) :
    Single docType dataset s a i.indexName ∧
      ∃ docs, s.contentOf i.indexName = some (docs, docs) ∧ Holds i.documents docs := by
  obtain ⟨hready, previous, hsw⟩ := reach_ended h
  have hresolves := import_resolves ht hd hi h ha
  have hnew : i.indexName ∈ s.resolves a (Matches docType dataset) := by
    rw [hresolves]
    rfl
  refine ⟨⟨ha, hnew.1, madeFor_indexName hi, ?_⟩, hready.2⟩
  rintro m ⟨hm, rfl | hma⟩
  · exact ((hsw.moved.mem m).mp hm).1.resolve_left hnot
  · obtain ⟨⟨hold | hsame, _⟩, _⟩ := (hsw.moved.aliased a m).mp hma
    · have hmatch : m ∈ s.resolves a (Matches docType dataset) := ⟨hma, hown m hold⟩
      rw [hresolves] at hmatch
      exact hmatch
    · exact hsame.2

theorem import_leaves (ht : Piece docType) (hd : Piece dataset) (hi : i.PublicFor docType dataset)
    (h : (elasticsearch E).Reach (s₀, i.run) (s, Client.done (.ok index))) :
    (∀ m ∈ s.indices, m ∈ s₀.indices ∨ m = i.indexName) ∧
      ∀ a, a ∉ aliases docType dataset → ∀ m, s.Aliased a m → s₀.Aliased a m := by
  obtain ⟨_, previous, hsw⟩ := reach_ended h
  refine ⟨fun m hm => ((hsw.moved.mem m).mp hm).1, fun a ha m hm => ?_⟩
  rcases ((hsw.moved.aliased a m).mp hm).1.1 with hold | ⟨hdone, _⟩
  · exact hold
  · rw [← List.append_nil (i.plan index), ← hsw.plan] at hdone
    exact absurd ((mem_plan ht hd hi hsw.named a).mp hdone) ha

theorem Single.document (h : Single docType dataset s a n) {docs : TreeMap Text D}
    (hdocs : s.contentOf n = some (docs, docs)) (hholds : Holds i.documents docs)
    (hid : id ∈ i.documents.map Document.id) :
    ∃ d ∈ i.documents, s.document a id = some d ∧ Document.id d = id := by
  obtain ⟨d', hd', rfl⟩ := List.mem_map.mp hid
  obtain ⟨d, hfound⟩ := Option.isSome_iff_exists.mp
    (TreeMap.mem_iff_isSome_getElem?.mp (hholds.covers d' hd'))
  obtain ⟨hmem, hsame⟩ := hholds.sound _ d hfound
  refine ⟨d, hmem, ?_, hsame⟩
  rw [Store.document, h.target, Option.bind_some, hdocs]
  exact hfound

theorem Holds.exact {documents : List D} {docs : TreeMap Text D} (h : Holds documents docs)
    (hids : (documents.map Document.id).Nodup) {d : D} :
    docs[id]? = some d ↔ d ∈ documents ∧ Document.id d = id := by
  constructor
  · exact h.sound id d
  · rintro ⟨hd, rfl⟩
    obtain ⟨d', hfound⟩ := Option.isSome_iff_exists.mp
      (TreeMap.mem_iff_isSome_getElem?.mp (h.covers d hd))
    obtain ⟨hmem, hid⟩ := h.sound _ d' hfound
    obtain rfl := List.inj_on_of_nodup_map hids hmem hd hid
    exact hfound

theorem import_exact (ht : Piece docType) (hd : Piece dataset) (hi : i.PublicFor docType dataset)
    (ha : a ∈ aliases docType dataset) (hnot : a ∉ s₀.indices)
    (hown : ∀ m, s₀.Aliased a m → Matches docType dataset m)
    (hids : (i.documents.map Document.id).Nodup)
    (h : (elasticsearch E).Reach (s₀, i.run) (s, Client.done (.ok index))) {d : D} :
    s.document a id = some d ↔ d ∈ i.documents ∧ Document.id d = id := by
  obtain ⟨hsingle, docs, hdocs, hholds⟩ := import_single ht hd hi ha hnot hown h
  rw [Store.document, hsingle.target, Option.bind_some, hdocs]
  exact hholds.exact hids

theorem reach_document (ht : Piece docType) (hd : Piece dataset) (hi : i.PublicFor docType dataset)
    (h₀ : Single docType dataset s₀ a n) {d₀ : D} (hold : s₀.document a id = some d₀)
    (hnew : id ∈ i.documents.map Document.id) {c : Es D ModelError Index}
    (h : (elasticsearch E).Reach (s₀, i.run) (s, c)) :
    ∃ d, s.document a id = some d ∧ (d = d₀ ∨ d ∈ i.documents ∧ Document.id d = id) := by
  rcases reach_single ht hd hi h₀ h with ⟨hsingle, hsame⟩ | ⟨hsingle, docs, hdocs, hholds⟩
  · refine ⟨d₀, ?_, .inl rfl⟩
    rw [Store.document, h₀.target] at hold
    rw [Store.document, hsingle.target, Option.bind_some, hsame]
    exact hold
  · obtain ⟨d, hmem, hfound, hid⟩ := hsingle.document hdocs hholds hnew
    exact ⟨d, hfound, .inr ⟨hmem, hid⟩⟩

end Mimirsbrunn
