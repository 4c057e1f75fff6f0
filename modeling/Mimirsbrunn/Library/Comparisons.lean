import Mathlib.Data.List.Forall2
import Mathlib.Data.List.Perm.Basic
import Mathlib.Data.List.Sort
import Mathlib.Order.Antisymmetrization

-- Orders that are given by a comparison, as far as a list needs them.
namespace Comparison

variable {α : Type}

theorem forall₂_of_sorted [Preorder α] {l l' : List α} (h : l.Pairwise (· ≤ ·))
    (h' : l'.Pairwise (· ≤ ·)) (hp : l.Perm l') : List.Forall₂ (AntisymmRel (· ≤ ·)) l l' := by
  have heq : l.map (toAntisymmetrization (· ≤ ·)) = l'.map (toAntisymmetrization (· ≤ ·)) :=
    (hp.map _).eq_of_pairwise (fun _ _ _ _ => le_antisymm)
      (h.map _ fun _ _ hab => hab) (h'.map _ fun _ _ hab => hab)
  rw [← List.forall₂_eq_eq_eq, List.forall₂_map_left_iff, List.forall₂_map_right_iff] at heq
  exact heq.imp fun _ _ hab => Quotient.exact hab

structure PreorderOn (cmp : α → α → Ordering) (l : List α) : Prop where
  refl : ∀ a ∈ l, cmp a a = .eq
  swap : ∀ a ∈ l, ∀ b ∈ l, cmp b a = (cmp a b).swap
  trans : ∀ a ∈ l, ∀ b ∈ l, ∀ c ∈ l, (cmp a b).isLE → (cmp b c).isLE → (cmp a c).isLE

def sortBy (cmp : α → α → Ordering) (l : List α) : List α :=
  l.mergeSort (fun a b => (cmp a b).isLE)

variable {cmp : α → α → Ordering} {l l' : List α}

theorem sortBy_perm (cmp : α → α → Ordering) (l : List α) : (sortBy cmp l).Perm l :=
  List.mergeSort_perm _ _

namespace PreorderOn

theorem total (h : PreorderOn cmp l) {a b : α} (ha : a ∈ l) (hb : b ∈ l) :
    (cmp a b).isLE ∨ (cmp b a).isLE := by
  rw [h.swap a ha b hb]
  cases cmp a b <;> simp

theorem perm (h : PreorderOn cmp l) (hp : l'.Perm l) : PreorderOn cmp l' where
  refl a ha := h.refl a (hp.subset ha)
  swap a ha b hb := h.swap a (hp.subset ha) b (hp.subset hb)
  trans a ha b hb c hc := h.trans a (hp.subset ha) b (hp.subset hb) c (hp.subset hc)

abbrev members (h : PreorderOn cmp l) : Preorder {a // a ∈ l} where
  le a b := (cmp a b).isLE
  le_refl a := by
    rw [h.refl a a.2]
    rfl
  le_trans a b c := h.trans a a.2 b b.2 c c.2

theorem sorted (h : PreorderOn cmp l) :
    (sortBy cmp l).Pairwise (fun a b => (cmp a b).isLE) := by
  have hmap : sortBy cmp l =
      (l.attach.mergeSort (fun a b => (cmp a b).isLE)).map Subtype.val := by
    conv_lhs => rw [sortBy, ← List.attach_map_subtype_val l]
    exact (List.map_mergeSort (f := Subtype.val) fun _ _ _ _ => rfl).symm
  rw [hmap, List.pairwise_map]
  refine List.pairwise_mergeSort (fun (a b c : {a // a ∈ l}) => h.trans a a.2 b b.2 c c.2)
    (fun a b => ?_) _
  rw [Bool.or_eq_true]
  exact h.total a.2 b.2

theorem exists_members (hp : l'.Perm l) :
    ∃ xs : List {a // a ∈ l}, xs.map Subtype.val = l' :=
  ⟨l'.attachWith (· ∈ l) fun _ ha => hp.subset ha, List.attachWith_map_subtype_val _⟩

theorem agree (h : PreorderOn cmp l) {xs ys : List α} (hx : xs.Perm l) (hy : ys.Perm l)
    (hxs : xs.Pairwise (fun a b => (cmp a b).isLE))
    (hys : ys.Pairwise (fun a b => (cmp a b).isLE)) :
    List.Forall₂ (fun a b => cmp a b = .eq) xs ys := by
  obtain ⟨xs, rfl⟩ := exists_members hx
  obtain ⟨ys, rfl⟩ := exists_members hy
  rw [List.forall₂_map_left_iff, List.forall₂_map_right_iff]
  rw [List.pairwise_map] at hxs hys
  have hp : xs.Perm ys :=
    (List.map_perm_map_iff Subtype.val_injective).mp (hx.trans hy.symm)
  let _ := h.members
  refine (forall₂_of_sorted hxs hys hp).imp fun a b hab => ?_
  have hle : (cmp a b).isLE := hab.1
  have hge : (cmp b a).isLE := hab.2
  rw [h.swap a a.2 b b.2] at hge
  exact Ordering.eq_eq_of_isLE_of_isLE_swap hle hge

end PreorderOn

end Comparison
