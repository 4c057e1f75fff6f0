import Mathlib.Data.List.Nodup
import Mathlib.Data.List.Perm.Basic

-- Entries gathered by key, as a hash map of vectors does it.
namespace Grouping

variable {κ β γ : Type} [DecidableEq κ]

def push (k : κ) (v : β) : List (κ × List β) → List (κ × List β)
  | [] => [(k, [v])]
  | (k', vs) :: groups =>
      if k' = k then (k', vs ++ [v]) :: groups else (k', vs) :: push k v groups

def group (entries : List (κ × β)) : List (κ × List β) :=
  entries.foldl (fun groups e => push e.1 e.2 groups) []

def ungroup (f : κ → β → γ) (groups : List (κ × List β)) : List γ :=
  groups.flatMap (fun g => g.2.map (f g.1))

theorem ungroup_push (f : κ → β → γ) (k : κ) (v : β) (groups : List (κ × List β)) :
    (ungroup f (push k v groups)).Perm (ungroup f groups ++ [f k v]) := by
  induction groups with
  | nil => exact .refl _
  | cons g groups ih =>
      obtain ⟨k', vs⟩ := g
      simp only [push]
      split
      · next hk =>
        subst hk
        simp only [ungroup, List.flatMap_cons, List.map_append, List.map_singleton,
          List.append_assoc]
        exact (List.perm_append_comm).append_left _
      · simp only [ungroup, List.flatMap_cons, List.append_assoc] at ih ⊢
        exact ih.append_left _

theorem ungroup_foldl (f : κ → β → γ) (entries : List (κ × β)) (groups : List (κ × List β)) :
    (ungroup f (entries.foldl (fun groups e => push e.1 e.2 groups) groups)).Perm
      (ungroup f groups ++ entries.map (fun e => f e.1 e.2)) := by
  induction entries generalizing groups with
  | nil => simp
  | cons e entries ih =>
      rw [List.foldl_cons, List.map_cons, List.append_cons]
      exact (ih _).trans ((ungroup_push f e.1 e.2 groups).append_right _)

theorem ungroup_group (f : κ → β → γ) (entries : List (κ × β)) :
    (ungroup f (group entries)).Perm (entries.map (fun e => f e.1 e.2)) :=
  ungroup_foldl f entries []

theorem mem_of_mem_group {entries : List (κ × β)} {g : κ × List β} {v : β}
    (hg : g ∈ group entries) (hv : v ∈ g.2) : (g.1, v) ∈ entries := by
  have hmem : (g.1, v) ∈ ungroup Prod.mk (group entries) :=
    List.mem_flatMap.mpr ⟨g, hg, List.mem_map.mpr ⟨v, hv, rfl⟩⟩
  simpa using (ungroup_group Prod.mk entries).mem_iff.mp hmem

theorem exists_group {entries : List (κ × β)} {k : κ} {v : β} (h : (k, v) ∈ entries) :
    ∃ vs, (k, vs) ∈ group entries ∧ v ∈ vs := by
  have hmem : (k, v) ∈ ungroup Prod.mk (group entries) :=
    (ungroup_group Prod.mk entries).mem_iff.mpr (by simpa using h)
  obtain ⟨⟨k', vs⟩, hg, hv⟩ := List.mem_flatMap.mp hmem
  obtain ⟨w, hw, he⟩ := List.mem_map.mp hv
  obtain ⟨rfl, rfl⟩ := Prod.mk.inj he
  exact ⟨vs, hg, hw⟩

theorem mem_keys_push {k k' : κ} {v : β} {groups : List (κ × List β)} :
    k' ∈ (push k v groups).map Prod.fst ↔ k' = k ∨ k' ∈ groups.map Prod.fst := by
  induction groups with
  | nil => simp [push]
  | cons g groups ih =>
      simp only [push]
      split
      · next hk =>
        subst hk
        simp
      · simp only [List.map_cons, List.mem_cons, ih]
        exact or_left_comm

theorem keys_push {k : κ} {v : β} {groups : List (κ × List β)}
    (h : (groups.map Prod.fst).Nodup) : ((push k v groups).map Prod.fst).Nodup := by
  induction groups with
  | nil => simp [push]
  | cons g groups ih =>
      obtain ⟨hg, hrest⟩ := List.nodup_cons.mp h
      simp only [push]
      split
      · exact h
      · next hk =>
        refine List.nodup_cons.mpr ⟨fun hm => ?_, ih hrest⟩
        rcases mem_keys_push.mp hm with he | hm
        · exact hk he
        · exact hg hm

theorem keys_foldl (entries : List (κ × β)) {groups : List (κ × List β)}
    (h : (groups.map Prod.fst).Nodup) :
    ((entries.foldl (fun groups e => push e.1 e.2 groups) groups).map Prod.fst).Nodup := by
  induction entries generalizing groups with
  | nil => exact h
  | cons e entries ih => exact ih (keys_push h)

theorem keys_group (entries : List (κ × β)) : ((group entries).map Prod.fst).Nodup :=
  keys_foldl entries List.nodup_nil

theorem nodup_blocks {α δ ι τ : Type} {block : α → List δ} {name : δ → ι} {xs : List α} (key : α → τ)
    (hkeys : (xs.map key).Nodup) (hblock : ∀ x ∈ xs, ((block x).map name).Nodup)
    (hsep : ∀ x ∈ xs, ∀ y ∈ xs, ∀ b ∈ block x, ∀ c ∈ block y, name b = name c → key x = key y) :
    ((xs.flatMap block).map name).Nodup := by
  rw [List.map_flatMap, List.nodup_flatMap]
  refine ⟨hblock, List.Pairwise.imp_of_mem ?_ (List.pairwise_map.mp hkeys)⟩
  intro x y hx hy hne i hi hi'
  obtain ⟨b, hb, rfl⟩ := List.mem_map.mp hi
  obtain ⟨c, hc, heq⟩ := List.mem_map.mp hi'
  exact hne (hsep x hx y hy b hb c hc heq.symm)

theorem filter_key {f : β → κ} {xs : List β} (h : (xs.map f).Nodup) {x : β} (hx : x ∈ xs) :
    xs.filter (fun y => f y = f x) = [x] := by
  induction xs with
  | nil => cases hx
  | cons y xs ih =>
      obtain ⟨hy, hrest⟩ := List.nodup_cons.mp h
      rcases List.mem_cons.mp hx with rfl | hx
      · have hnone : xs.filter (fun y => f y = f x) = [] := by
          refine List.filter_eq_nil_iff.mpr (fun z hz hzx => hy ?_)
          rw [← of_decide_eq_true hzx]
          exact List.mem_map_of_mem hz
        rw [List.filter_cons_of_pos (by simp), hnone]
      · have hne : f y ≠ f x := fun he => hy (he ▸ List.mem_map_of_mem hx)
        rw [List.filter_cons_of_neg (by simpa using hne), ih hrest hx]

end Grouping
