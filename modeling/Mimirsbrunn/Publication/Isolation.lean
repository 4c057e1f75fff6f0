import Mathlib.Data.List.Count
import Mimirsbrunn.Library.Utf8
import Mimirsbrunn.Publication.Completion
import Mimirsbrunn.Publication.Dataset

namespace Mimirsbrunn
open Regex Std Internal Phase

def stem (a b : Text) : Text := a ++ '_' :: b ++ ['_']

theorem rootDoctypeDatasetTs_stem (docType dataset : Text) (now : DateTime) :
    rootDoctypeDatasetTs docType dataset now =
      (indexRoot ++ ['_']) ++ (stem docType dataset ++ now.format) := by
  simp [rootDoctypeDatasetTs, stem]

theorem count_stem (a b : Text) : 2 ≤ (stem a b).count '_' := by
  simp only [stem, List.count_append, List.count_cons, List.count_nil, beq_self_eq_true, if_true]
  omega

theorem count_stem_pieces {a b : Text} (ha : Piece a) (hb : Piece b) :
    (stem a b).count '_' = 2 := by
  simp [stem, List.count_append, List.count_eq_zero.mpr ha.2, List.count_eq_zero.mpr hb.2]

theorem stem_prefix_iff {a b : Text} (ha : Piece a) (hb : Piece b) (docType dataset w : Text) :
    stem a b <+: stem docType dataset ++ w ↔ stem a b <+: stem docType dataset := by
  constructor
  · intro h
    rcases List.prefix_or_prefix_of_prefix h (List.prefix_append _ w) with h' | ⟨z, hz⟩
    · exact h'
    · have hcount := count_stem_pieces ha hb
      have htwo := count_stem docType dataset
      rw [← hz, List.count_append] at hcount
      rcases List.eq_nil_or_concat z with rfl | ⟨z', c, rfl⟩
      · exact ⟨[], by simpa using hz.symm⟩
      · have hlast : c = '_' := by
          have hz' : (stem docType dataset ++ z') ++ [c] = (a ++ '_' :: b) ++ ['_'] := by
            simpa [stem] using hz
          simpa using List.append_inj_right' hz' rfl
        subst hlast
        simp only [List.concat_eq_append, List.count_append, List.count_singleton_self] at hcount
        omega
  · exact fun h => h.trans (List.prefix_append _ _)

theorem matches_ts {a b : Text} (ha : Piece a) (hb : Piece b) (ha' : '*' ∉ a) (hb' : '*' ∉ b)
    (docType dataset : Text) (now : DateTime) :
    Matches a b (rootDoctypeDatasetTs docType dataset now) ↔ stem a b <+: stem docType dataset := by
  have hroot : rootDoctypeDataset a b ++ ['_'] = (indexRoot ++ ['_']) ++ stem a b := by
    simp [rootDoctypeDataset, stem]
  rw [matches_iff_stem ha' hb', hroot, rootDoctypeDatasetTs_stem, List.prefix_append_right_inj,
    stem_prefix_iff ha hb]

theorem splitIndexName_of_stem {a b docType dataset : Text} (ha : Piece a) (hb : Piece b)
    (h : stem a b <+: stem docType dataset) (now : DateTime) :
    splitIndexName (rootDoctypeDatasetTs docType dataset now) = .ok (a, b) := by
  obtain ⟨w, hw⟩ := h
  have hr : Piece indexRoot := by decide
  have hname : rootDoctypeDatasetTs docType dataset now =
      indexRoot ++ '_' :: a ++ '_' :: b ++ ('_' :: (w ++ now.format)) := by
    rw [rootDoctypeDatasetTs_stem, ← hw]
    simp [stem]
  rw [hname]
  exact splitIndexName_three _ hr ha hb (by simp)

def Separated (docType dataset docType' dataset' : Text) : Prop :=
  ∃ a b, Piece a ∧ Piece b ∧ stem a b <+: stem docType dataset ∧
    ¬ stem a b <+: stem docType' dataset'

theorem exists_other_ts (docType dataset n : Text) :
    ∃ now, rootDoctypeDatasetTs docType dataset now ≠ n := by
  by_cases h : rootDoctypeDatasetTs docType dataset (.utc 2021 5 4 12 30 0 0) = n
  · refine ⟨.utc 2021 5 4 12 30 0 1, fun h' => ?_⟩
    rw [← h, rootDoctypeDatasetTs_stem, rootDoctypeDatasetTs_stem, List.append_right_inj,
      List.append_right_inj] at h'
    exact absurd h' (by decide)
  · exact ⟨_, h⟩

variable {D : Type} {E : Engine D} {s s' : Store D} {index : Index}

theorem getPreviousIndices_mem {previous : List Text}
    (h : (elasticsearch E).Reach (s, getPreviousIndices index) (s', Client.done (.ok previous)))
    (m : Text) :
    m ∈ previous ↔ m ∈ s.indices ∧ Matches index.doc_type index.dataset m ∧ m ≠ index.name := by
  obtain ⟨x, t, ha, h⟩ := Service.reach_call h
  simp only [Client.bind] at h
  revert h
  cases hx : findAliasesReply
      (aliasPattern (rootDoctypeDataset index.doc_type index.dataset)) x with
  | error e => intro h; cases Service.reach_done h
  | ok found =>
      intro h
      cases Service.reach_done h
      exact mem_previousOf.trans ((and_congr_left' (listed ha hx m)).trans and_assoc)

theorem getPreviousIndices_served (s : Store D) (index : Index) :
    ∃ previous, (elasticsearch E).Reach (s, getPreviousIndices index)
      (s, Client.done (.ok previous)) :=
  ⟨_, Service.reach_served .refl⟩

theorem createContainer_accepted {config : ContainerConfig} {now : DateTime} {index : Index}
    (h : (elasticsearch E).Reach (s, Storage.createContainer config now)
      (s', Client.done (.ok index))) :
    E.accepts (rootDoctypeDatasetTs config.name config.dataset now) = true := by
  obtain ⟨x, t, ha, h⟩ := Service.reach_call h
  simp only [Client.bind] at h
  revert h
  cases hx : createIndexReply (rootDoctypeDatasetTs config.name config.dataset now) x with
  | error e =>
      intro h
      cases e <;> cases Service.reach_done h
  | ok _ => exact fun _ => (created ha hx).2.1

theorem createContainer_served {config : ContainerConfig} {now : DateTime} {docType dataset : Text}
    (hn : rootDoctypeDatasetTs config.name config.dataset now ∉ s.indices)
    (ha : E.accepts (rootDoctypeDatasetTs config.name config.dataset now) = true)
    (hsplit : splitIndexName (rootDoctypeDatasetTs config.name config.dataset now) =
      .ok (docType, dataset)) :
    ∃ s' index, (elasticsearch E).Reach (s, Storage.createContainer config now)
      (s', Client.done (.ok index)) := by
  have hx := createIndex_served config.number_of_shards config.number_of_replicas hn ha
  obtain ⟨index, hy⟩ := catIndices_served
    (Store.contentOf_createIndex config.number_of_shards config.number_of_replicas hn ha)
    (by simp) hsplit
  refine ⟨(s.createIndex E (rootDoctypeDatasetTs config.name config.dataset now)
    config.number_of_shards config.number_of_replicas).1, index, Service.reach_served ?_⟩
  simp only [Client.bind, elasticsearch, Store.serve, hx]
  refine Service.reach_served ?_
  simp only [Client.bind, hy]
  exact .refl

variable [Document D]

theorem run_accepted {i : Import D}
    (h : (elasticsearch E).Reach (s, i.run) (s', Client.done (.ok index))) :
    E.accepts i.indexName = true := by
  obtain ⟨x, t, ha, h⟩ := Service.reach_call h
  simp only [Client.bind] at h
  revert h
  cases hx : createIndexReply (rootDoctypeDatasetTs i.config.name i.config.dataset i.now) x with
  | error e =>
      intro h
      cases e <;> cases Service.reach_done h
  | ok _ => exact fun _ => (created ha hx).2.1

def LeavesUntouched (E : Engine D) (docType dataset docType' dataset' : Text) : Prop :=
  ∀ (i : Import D) (s₀ s : Store D) (index : Index),
    i.config.name = docType → i.config.dataset = dataset →
    (elasticsearch E).Reach (s₀, i.run) (s, Client.done (.ok index)) →
    ∀ m ∈ s₀.indices, MadeFor docType' dataset' m →
      m ∈ s.indices ∧ ∀ a, s.Aliased a m ↔ s₀.Aliased a m

def ListsExactly (E : Engine D) (docType dataset docType' dataset' : Text) : Prop :=
  ∀ (config : ContainerConfig) (now : DateTime) (s₁ s₂ : Store D) (index : Index),
    config.name = docType → config.dataset = dataset →
    (elasticsearch E).Reach (s₁, Storage.createContainer config now)
      (s₂, Client.done (.ok index)) →
    ∀ (s s' : Store D) (previous : List Text),
      (elasticsearch E).Reach (s, getPreviousIndices index) (s', Client.done (.ok previous)) →
      ∀ m ∈ s.indices, MadeFor docType dataset m ∨ MadeFor docType' dataset' m →
        (m ∈ previous ↔ MadeFor docType dataset m ∧ m ≠ index.name)

def Isolated (E : Engine D) (docType dataset docType' dataset' : Text) : Prop :=
  LeavesUntouched E docType dataset docType' dataset' ∧
    ListsExactly E docType dataset docType' dataset'

def Accepted (E : Engine D) (docType dataset : Text) : Prop :=
  ∃ now, E.accepts (rootDoctypeDatasetTs docType dataset now) = true

variable {docType dataset docType' dataset' : Text}

theorem leavesUntouched_of_separated (h : Separated docType dataset docType' dataset') :
    LeavesUntouched E docType dataset docType' dataset' := by
  obtain ⟨a, b, hpa, hpb, hin, hout⟩ := h
  rintro i s₀ s index rfl rfl hrun m hm ⟨now, rfl⟩
  obtain ⟨_, previous, hsw⟩ := reach_ended hrun
  have hnamed := hsw.named.2
  have hstar := E.accepts_literal _ (run_accepted hrun)
  have hsplit := splitIndexName_of_stem hpa hpb hin i.now
  obtain ⟨hia, hib⟩ := splitIndexName_isInfix_pieces hsplit
  rw [Import.indexName, hsplit] at hnamed
  obtain ⟨hda, hdb⟩ := Prod.mk.inj (Except.ok.inj hnamed)
  have hnot : rootDoctypeDatasetTs docType' dataset' now ∉ previous := by
    rw [hsw.listed.mem, pattern, ← hda, ← hdb]
    rintro ⟨_, hmatch⟩
    exact hout ((matches_ts hpa hpb (fun h => hstar (hia.subset h)) (fun h => hstar (hib.subset h))
      _ _ now).mp hmatch)
  have hne : rootDoctypeDatasetTs docType' dataset' now ≠ i.indexName :=
    fun he => hsw.fresh (he ▸ hm)
  refine ⟨(hsw.moved.mem _).mpr ⟨.inl hm, hnot⟩, fun al => ?_⟩
  rw [hsw.moved.aliased]
  constructor
  · rintro ⟨⟨hal | ⟨_, he⟩, _⟩, _⟩
    · exact hal
    · exact absurd he hne
  · exact fun hal => ⟨⟨.inl hal, fun hc => hnot hc.2⟩, hnot⟩

omit [Document D] in
theorem listsExactly_of_separated (h : Separated docType dataset docType' dataset') :
    ListsExactly E docType dataset docType' dataset' := by
  obtain ⟨a, b, hpa, hpb, hin, hout⟩ := h
  rintro config now s₁ s₂ index rfl rfl hcreate s s' previous hlist m hm hmade
  obtain ⟨hname, hnamed⟩ := createContainer_named hcreate
  have hstar := E.accepts_literal _ (createContainer_accepted hcreate)
  have hsplit := splitIndexName_of_stem hpa hpb hin now
  obtain ⟨hia, hib⟩ := splitIndexName_isInfix_pieces hsplit
  rw [hname, hsplit] at hnamed
  obtain ⟨hda, hdb⟩ := Prod.mk.inj (Except.ok.inj hnamed)
  have hmatch := fun t d ts => matches_ts hpa hpb (fun h => hstar (hia.subset h))
    (fun h => hstar (hib.subset h)) t d ts
  rw [getPreviousIndices_mem hlist, ← hda, ← hdb]
  rcases hmade with ⟨ts, rfl⟩ | ⟨ts, rfl⟩
  · simp only [hm, (hmatch _ _ ts).mpr hin, true_and, iff_and_self]
    exact fun _ => ⟨ts, rfl⟩
  · constructor
    · rintro ⟨_, hma, _⟩
      exact absurd ((hmatch _ _ ts).mp hma) hout
    · rintro ⟨⟨ts', he⟩, _⟩
      have hma := (hmatch _ _ ts').mpr hin
      rw [← he] at hma
      exact absurd ((hmatch _ _ ts).mp hma) hout

section Apart

variable {a b : Text} {day : DateTime}

omit [Document D] in
theorem stem_of_listsExactly
    (haccepts : E.accepts (rootDoctypeDatasetTs docType dataset day) = true)
    (hsplit : splitIndexName (rootDoctypeDatasetTs docType dataset day) = .ok (a, b))
    (h : ListsExactly E docType dataset docType' dataset') :
    stem a b <+: stem docType dataset := by
  obtain ⟨hpa, hpb⟩ := splitIndexName_pieces hsplit
  obtain ⟨hia, hib⟩ := splitIndexName_isInfix_pieces hsplit
  have hstar := E.accepts_literal _ haccepts
  obtain ⟨now, hnow⟩ := exists_other_ts docType dataset (rootDoctypeDatasetTs docType dataset day)
  have hempty : rootDoctypeDatasetTs docType dataset day ∉ (⟨∅, []⟩ : Store D).indices := by
    simp
  let config : ContainerConfig := ⟨docType, dataset, .Public, 1, 1⟩
  obtain ⟨s₂, index, hcreate⟩ : ∃ s₂ index, (elasticsearch E).Reach
      ((⟨∅, []⟩ : Store D), Storage.createContainer config day)
      (s₂, Client.done (.ok index)) := createContainer_served hempty haccepts hsplit
  obtain ⟨hname, hnamed⟩ := createContainer_named hcreate
  obtain ⟨previous, hlist⟩ := getPreviousIndices_served
    (Store.published (rootDoctypeDatasetTs docType dataset now) []) index
  have hm := (h config day _ _ index rfl rfl hcreate _ _ _ hlist _
    (Store.mem_published.mpr rfl) (.inl ⟨now, rfl⟩)).mpr ⟨⟨now, rfl⟩, hname ▸ hnow⟩
  rw [getPreviousIndices_mem hlist] at hm
  rw [hname] at hnamed
  obtain ⟨hda, hdb⟩ := Prod.mk.inj (Except.ok.inj (hsplit.symm.trans hnamed))
  rw [← hda, ← hdb] at hm
  exact (matches_ts hpa hpb (fun h => hstar (hia.subset h)) (fun h => hstar (hib.subset h))
    _ _ now).mp hm.2.1

theorem not_stem_of_leavesUntouched
    (haccepts : E.accepts (rootDoctypeDatasetTs docType dataset day) = true)
    (hsplit : splitIndexName (rootDoctypeDatasetTs docType dataset day) = .ok (a, b))
    (h : LeavesUntouched E docType dataset docType' dataset') :
    ¬ stem a b <+: stem docType' dataset' := by
  intro hout
  obtain ⟨hpa, hpb⟩ := splitIndexName_pieces hsplit
  obtain ⟨hia, hib⟩ := splitIndexName_isInfix_pieces hsplit
  have hstar := E.accepts_literal _ haccepts
  let i : Import D := .plain docType dataset day []
  obtain ⟨now, hnow⟩ := exists_other_ts docType' dataset' i.indexName
  have hsmooth : Smooth E i := ⟨haccepts, ⟨a, b, hsplit⟩, by simp [i, Import.plain],
    by simp [i, Import.plain], by simp [i, Import.plain], rfl, by simp [i, Import.plain]⟩
  have hfresh : i.indexName ∉
      (Store.published (rootDoctypeDatasetTs docType' dataset' now) [] : Store D).indices :=
    fun hm => hnow (Store.mem_published.mp hm).symm
  obtain ⟨s, index, hrun⟩ := import_completes hsmooth hfresh
  have hkeep := h i _ _ index rfl rfl hrun _ (Store.mem_published.mpr rfl) ⟨now, rfl⟩
  obtain ⟨_, previous, hsw⟩ := reach_ended hrun
  have hnamed := hsw.named.2
  rw [Import.indexName] at hnamed
  obtain ⟨hda, hdb⟩ := Prod.mk.inj (Except.ok.inj (hsplit.symm.trans hnamed))
  refine ((hsw.moved.mem _).mp hkeep.1).2
    ((hsw.listed.mem _).mpr ⟨Store.mem_published.mpr rfl, ?_⟩)
  rw [pattern, ← hda, ← hdb]
  exact (matches_ts hpa hpb (fun h => hstar (hia.subset h)) (fun h => hstar (hib.subset h))
    _ _ now).mpr hout

end Apart

theorem separated_of_isolated (ha : Accepted E docType dataset)
    (h : Isolated E docType dataset docType' dataset') :
    Separated docType dataset docType' dataset' := by
  obtain ⟨day, haccepts⟩ := ha
  obtain ⟨a, b, hsplit⟩ := splitIndexName_total docType dataset day
  obtain ⟨hpa, hpb⟩ := splitIndexName_pieces hsplit
  exact ⟨a, b, hpa, hpb, stem_of_listsExactly haccepts hsplit h.2,
    not_stem_of_leavesUntouched haccepts hsplit h.1⟩

theorem isolated_iff (ha : Accepted E docType dataset) :
    Isolated E docType dataset docType' dataset' ↔
      Separated docType dataset docType' dataset' :=
  ⟨separated_of_isolated ha,
    fun h => ⟨leavesUntouched_of_separated h, listsExactly_of_separated h⟩⟩

-- The index names Elasticsearch 7 takes: lowercase, 255 bytes, none of these characters.
def Engine.naming (D : Type) : Engine D where
  accepts n := decide (Utf8.size n ≤ 255) && !n.contains '*' &&
    n.all fun c => !c.isUpper && !"\\/?\"<>| ,#:".toList.contains c
  accepts_literal _ h := by
    rw [Bool.and_eq_true, Bool.and_eq_true] at h
    simpa using h.1.2
  parses _ := true
  script _ _ := none

theorem naming_accepted :
    Accepted (Engine.naming Poi) "poi".toList "fr".toList :=
  ⟨.utc 2021 5 4 12 30 0 0, by decide⟩

theorem isolated_fr_es :
    Isolated (Engine.naming Poi) "poi".toList "fr".toList "poi".toList "es".toList :=
  (isolated_iff naming_accepted).mpr
    ⟨"poi".toList, "fr".toList, by decide, by decide, by decide, by decide⟩

theorem not_isolated_fr_idf :
    ¬ Isolated (Engine.naming Poi) "poi".toList "fr".toList "poi".toList "fr_idf".toList := by
  intro h
  obtain ⟨a, b, _, _, hin, hout⟩ := separated_of_isolated naming_accepted h
  exact hout (hin.trans (by decide))

end Mimirsbrunn
