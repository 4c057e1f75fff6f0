import Mathlib.Data.Set.Subsingleton
import Mimirsbrunn.Publication.IndexName

namespace Mimirsbrunn
open Regex Internal

theorem glob_append (p s : Text) : glob (p ++ ['*']) (p ++ s) = true := by
  induction p with
  | nil => exact glob_star s
  | cons c p ih =>
      simp only [List.cons_append, glob]
      split
      · have hm : p ++ s ∈ (c :: (p ++ s)).tails :=
          (List.mem_tails _ _).mpr (List.suffix_cons c (p ++ s))
        exact List.any_eq_true.mpr ⟨p ++ s, hm, ih⟩
      · simp [ih]

def Matches (docType dataset m : Text) : Prop :=
  glob (aliasPattern (rootDoctypeDataset docType dataset)) m = true

instance (docType dataset m : Text) : Decidable (Matches docType dataset m) :=
  inferInstanceAs (Decidable (_ = true))

theorem MadeFor.matches {docType dataset m : Text} (h : MadeFor docType dataset m) :
    Matches docType dataset m := by
  obtain ⟨now, rfl⟩ := h
  have hp : aliasPattern (rootDoctypeDataset docType dataset) =
      (rootDoctypeDataset docType dataset ++ ['_']) ++ ['*'] := by simp [aliasPattern]
  rw [Matches, hp, rootDoctypeDatasetTs_eq]
  exact glob_append _ _

theorem matches_iff_stem {docType dataset m : Text} (ht : '*' ∉ docType) (hd : '*' ∉ dataset) :
    Matches docType dataset m ↔ rootDoctypeDataset docType dataset ++ ['_'] <+: m := by
  refine aliasPattern_iff_prefix_dash ?_ m
  simp [rootDoctypeDataset, indexRoot, ht, hd]

variable {D : Type}

def Store.resolves (s : Store D) (a : Text) (p : Text → Prop) : Set Text :=
  {m | s.Aliased a m ∧ p m}

theorem Store.mem_resolves {s : Store D} {a m : Text} {p : Text → Prop} :
    m ∈ s.resolves a p ↔ s.Aliased a m ∧ p m := Iff.rfl

theorem Store.resolves_congr {s s₀ : Store D} {a : Text} {p : Text → Prop}
    (h : ∀ m, p m → (s.Aliased a m ↔ s₀.Aliased a m)) :
    s.resolves a p = s₀.resolves a p := by
  ext m
  simp only [Store.mem_resolves]
  exact and_congr_left (h m)

structure Import.PublicFor (docType dataset : Text) (i : Import D) : Prop where
  name : i.config.name = docType
  dataset : i.config.dataset = dataset
  visibility : i.config.visibility = .Public

namespace Phase

variable {E : Engine D} {i : Import D} {s₀ s : Store D} {docType dataset : Text} {index : Index}
  {previous done rest gone left : List Text}

theorem named_fields (ht : Piece docType) (hd : Piece dataset) (hi : i.PublicFor docType dataset)
    (h : Named i index) : index.doc_type = docType ∧ index.dataset = dataset := by
  have hs := h.2
  rw [Import.indexName, hi.name, hi.dataset, splitIndexName_ts _ ht hd] at hs
  obtain ⟨h₁, h₂⟩ := Prod.mk.inj (Except.ok.inj hs)
  exact ⟨h₁.symm, h₂.symm⟩

theorem madeFor_indexName (hi : i.PublicFor docType dataset) :
    MadeFor docType dataset i.indexName := by
  refine ⟨i.now, ?_⟩
  rw [Import.indexName, hi.name, hi.dataset]

theorem mem_plan (ht : Piece docType) (hd : Piece dataset) (hi : i.PublicFor docType dataset)
    (h : Named i index) (a : Text) : a ∈ i.plan index ↔ a ∈ aliases docType dataset := by
  obtain ⟨rfl, rfl⟩ := named_fields ht hd hi h
  simp only [Import.plan, hi.visibility, if_true, aliases, List.mem_cons, List.not_mem_nil,
    or_false]
  tauto

theorem mem_previous (ht : Piece docType) (hd : Piece dataset) (hi : i.PublicFor docType dataset)
    (h : Switched i s₀ s index previous done rest gone left) (m : Text) :
    m ∈ previous ↔ m ∈ s₀.indices ∧ Matches docType dataset m := by
  obtain ⟨rfl, rfl⟩ := named_fields ht hd hi h.named
  exact h.listed.mem m

variable [Document D]

theorem progress_stopped {ph : Phase D} (hh : ph.Holding i (s.contentOf i.indexName))
    (hp : ph.Progress i s₀ s) : Stopped i s₀ s := by
  cases ph with
  | creating => exact .untouched hp
  | finding => exact .created hp
  | piping index => exact .created hp
  | filling index pending answers => exact .created hp
  | refreshing index => exact .created hp
  | listing index => exact .created hp
  | moving index previous a todo =>
      obtain ⟨done, hsw⟩ := hp
      exact .switched hsw hh.1
  | deleting index n todo =>
      obtain ⟨previous, gone, hsw⟩ := hp
      exact .switched hsw hh.1
  | merging index =>
      obtain ⟨previous, hsw⟩ := hp
      exact .switched hsw hh
  | locating index =>
      obtain ⟨previous, hsw⟩ := hp
      exact .switched hsw hh
  | ended result =>
      cases result with
      | error e => exact hp
      | ok index =>
          obtain ⟨previous, hsw⟩ := hp
          exact .switched hsw hh

theorem reach_stopped {c : Es D ModelError Index}
    (h : (elasticsearch E).Reach (s₀, i.run) (s, c)) : Stopped i s₀ s := by
  obtain ⟨ph, _, hh, hp⟩ := reach_progress h
  exact progress_stopped hh hp

end Phase

end Mimirsbrunn
