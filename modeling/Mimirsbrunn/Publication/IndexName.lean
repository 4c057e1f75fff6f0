import Mathlib.Data.List.Infix
import Mimirsbrunn.Publication.Progress

namespace Mimirsbrunn
open Regex Internal

theorem glob_star (s : Text) : glob ['*'] s = true := by
  have hn : glob [] [] = true := rfl
  have hm : ([] : Text) ∈ s.tails := (List.mem_tails _ _).mpr List.nil_suffix
  simp only [glob, if_true]
  exact List.any_eq_true.mpr ⟨[], hm, hn⟩

theorem glob_literal_star {p : Text} (hp : '*' ∉ p) (s : Text) :
    glob (p ++ ['*']) s = true ↔ p <+: s := by
  induction p generalizing s with
  | nil => simp [glob_star]
  | cons c p ih =>
      simp only [List.mem_cons, not_or] at hp
      simp only [List.cons_append, glob, Ne.symm hp.1, if_false]
      cases s with
      | nil => simp
      | cons d s =>
          simp only [Bool.and_eq_true, beq_iff_eq, ih hp.2, List.cons_prefix_cons]
          exact and_congr_left' eq_comm

theorem aliasPattern_iff_prefix_dash {base : Text} (hb : '*' ∉ base) (m : Text) :
    glob (aliasPattern base) m = true ↔ base ++ ['_'] <+: m := by
  have he : aliasPattern base = (base ++ ['_']) ++ ['*'] := by simp [aliasPattern]
  rw [he, glob_literal_star]
  simpa using hb

def MadeFor (docType dataset m : Text) : Prop := ∃ now, m = rootDoctypeDatasetTs docType dataset now

theorem rootDoctypeDatasetTs_eq (docType dataset : Text) (now : DateTime) :
    rootDoctypeDatasetTs docType dataset now =
      rootDoctypeDataset docType dataset ++ ['_'] ++ now.format := by
  simp [rootDoctypeDatasetTs, rootDoctypeDataset]

theorem splitIndexName_ts {docType dataset : Text} (now : DateTime) (ht : Piece docType)
    (hd : Piece dataset) :
    splitIndexName (rootDoctypeDatasetTs docType dataset now) = .ok (docType, dataset) := by
  have hr : Piece indexRoot := by decide
  exact splitIndexName_three ('_' :: now.format) hr ht hd (by simp)

theorem count_format (now : DateTime) : now.format.count '_' = 2 := by
  obtain ⟨date, time, fraction, hd, ht, hf, he⟩ := format_pieces now
  simp [he, List.count_append, List.count_eq_zero.mpr hd.2, List.count_eq_zero.mpr ht.2,
    List.count_eq_zero.mpr hf.2]

theorem count_rootDoctypeDatasetTs (docType dataset : Text) (now : DateTime) :
    (rootDoctypeDatasetTs docType dataset now).count '_' =
      docType.count '_' + dataset.count '_' + 5 := by
  simp only [rootDoctypeDatasetTs, indexRoot, List.count_append, List.count_cons, count_format,
    beq_self_eq_true, if_true]
  have : "munin".toList.count '_' = 0 := by decide
  omega

variable {D : Type} {E : Engine D}

theorem createContainer_named {config : ContainerConfig} {now : DateTime} {s s' : Store D}
    {index : Index} (h : (elasticsearch E).Reach (s, Storage.createContainer config now)
      (s', Client.done (.ok index))) :
    index.name = rootDoctypeDatasetTs config.name config.dataset now ∧
      splitIndexName index.name = .ok (index.doc_type, index.dataset) := by
  obtain ⟨x, t, _, h⟩ := Service.reach_call h
  simp only [Client.bind] at h
  revert h
  cases createIndexReply (rootDoctypeDatasetTs config.name config.dataset now) x with
  | error e =>
      intro h
      cases e <;> cases Service.reach_done h
  | ok _ =>
      intro h
      obtain ⟨y, t', ha, h⟩ := Service.reach_call h
      simp only [Client.bind] at h
      revert h
      cases hy : findIndexReply (rootDoctypeDatasetTs config.name config.dataset now) y with
      | error e =>
          intro h
          cases e <;> cases Service.reach_done h
      | ok found' =>
          intro h
          cases found' with
          | none => cases Service.reach_done h
          | some index' =>
              cases Service.reach_done h
              obtain ⟨_, hname, hsplit⟩ := found ha hy
              exact ⟨hname, hname ▸ hsplit⟩

theorem createContainer_decodes {config : ContainerConfig} {now : DateTime} {s s' : Store D}
    {index : Index} (h : (elasticsearch E).Reach (s, Storage.createContainer config now)
      (s', Client.done (.ok index))) :
    index.doc_type = config.name ∧ index.dataset = config.dataset ↔
      Piece config.name ∧ Piece config.dataset := by
  obtain ⟨hname, hsplit⟩ := createContainer_named h
  rw [hname] at hsplit
  constructor
  · rintro ⟨ht, hd⟩
    exact ht ▸ hd ▸ splitIndexName_pieces hsplit
  · rintro ⟨ht, hd⟩
    rw [splitIndexName_ts now ht hd] at hsplit
    obtain ⟨h₁, h₂⟩ := Prod.mk.inj (Except.ok.inj hsplit)
    exact ⟨h₁.symm, h₂.symm⟩

theorem index_name_decodes_iff (docType dataset : Text) (now : DateTime) :
    (splitIndexName (rootDoctypeDatasetTs docType dataset now) = .ok (docType, dataset) ∧
      ∀ (D : Type) (E : Engine D) (config : ContainerConfig) (s s' : Store D) (index : Index),
        config.name = docType → config.dataset = dataset →
        (elasticsearch E).Reach (s, Storage.createContainer config now)
          (s', Client.done (.ok index)) →
        index.doc_type = docType ∧ index.dataset = dataset) ↔
      Piece docType ∧ Piece dataset := by
  constructor
  · rintro ⟨h, _⟩
    exact splitIndexName_pieces h
  · rintro ⟨ht, hd⟩
    refine ⟨splitIndexName_ts now ht hd, ?_⟩
    rintro D E config s s' index rfl rfl h
    exact (createContainer_decodes h).mpr ⟨ht, hd⟩

theorem index_name_of_fr_idf_lost :
    splitIndexName (rootDoctypeDatasetTs "poi".toList "fr_idf".toList (.utc 2021 5 4 12 30 0 0)) ≠
      .ok ("poi".toList, "fr_idf".toList) := by
  intro h
  exact absurd (splitIndexName_pieces h).2 (by decide)

end Mimirsbrunn
