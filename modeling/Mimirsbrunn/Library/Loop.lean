import Mathlib.Data.List.Basic
import Mathlib.Data.List.Forall2

namespace Loop

variable {α σ τ ω : Type} {step : σ → α → Option σ} {s s' : σ} {xs : List α}

theorem cons_iff {x : α} :
    (x :: xs).foldlM step s = some s' ↔ ∃ t, step s x = some t ∧ xs.foldlM step t = some s' := by
  rw [List.foldlM_cons]
  exact Option.bind_eq_some_iff

theorem returns (h : ∀ t, ∀ x ∈ xs, ∃ t', step t x = some t') :
    ∃ s', xs.foldlM step s = some s' := by
  induction xs generalizing s with
  | nil => exact ⟨s, rfl⟩
  | cons x xs ih =>
      obtain ⟨t, ht⟩ := h s x List.mem_cons_self
      obtain ⟨s', hs'⟩ := @ih t (fun t y hy => h t y (List.mem_cons_of_mem _ hy))
      exact ⟨s', cons_iff.mpr ⟨t, ht, hs'⟩⟩

theorem step_of_mem (h : xs.foldlM step s = some s') {x : α} (hx : x ∈ xs) :
    ∃ t t', step t x = some t' := by
  induction xs generalizing s with
  | nil => cases hx
  | cons y xs ih =>
      obtain ⟨t, ht, hrest⟩ := cons_iff.mp h
      rcases List.mem_cons.mp hx with rfl | hx
      · exact ⟨s, t, ht⟩
      · exact ih hrest hx

theorem preserves {P : σ → Prop} (hstep : ∀ t x t', P t → step t x = some t' → P t')
    (h : xs.foldlM step s = some s') (hs : P s) : P s' := by
  induction xs generalizing s with
  | nil =>
      obtain rfl := Option.some.inj h
      exact hs
  | cons x xs ih =>
      obtain ⟨t, ht, hrest⟩ := cons_iff.mp h
      exact ih hrest (hstep s x t hs ht)

theorem mono {step' : σ → α → Option σ}
    (hstep : ∀ t x t', step t x = some t' → step' t x = some t')
    (h : xs.foldlM step s = some s') : xs.foldlM step' s = some s' := by
  induction xs generalizing s with
  | nil => exact h
  | cons x xs ih =>
      obtain ⟨t, ht, hrest⟩ := cons_iff.mp h
      exact cons_iff.mpr ⟨t, hstep s x t ht, ih hrest⟩

theorem concat_iff {x : α} : (xs ++ [x]).foldlM step s = some s' ↔
    ∃ t, xs.foldlM step s = some t ∧ step t x = some s' := by
  rw [List.foldlM_append]
  refine Option.bind_eq_some_iff.trans ?_
  simp

theorem gathers {P : σ → Prop} {Q : α → Prop}
    (hstep : ∀ t x t', step t x = some t' → (P t' ↔ P t ∨ Q x))
    (h : xs.foldlM step s = some s') : P s' ↔ P s ∨ ∃ x ∈ xs, Q x := by
  induction xs generalizing s with
  | nil =>
      obtain rfl := Option.some.inj h
      simp
  | cons x xs ih =>
      obtain ⟨t, ht, hrest⟩ := cons_iff.mp h
      rw [ih hrest, hstep s x t ht, or_assoc, List.exists_mem_cons_iff]

theorem view {f : σ → τ} {offer : α → ω} {combine : τ → ω → τ}
    (hstep : ∀ t x t', step t x = some t' → f t' = combine (f t) (offer x))
    (h : xs.foldlM step s = some s') : f s' = (xs.map offer).foldl combine (f s) := by
  induction xs generalizing s with
  | nil =>
      obtain rfl := Option.some.inj h
      rfl
  | cons x xs ih =>
      obtain ⟨t, ht, hrest⟩ := cons_iff.mp h
      rw [ih hrest, hstep s x t ht, List.map_cons, List.foldl_cons]

section Collect

variable {β : Type} {f : α → Option β} {ys : List β}

theorem mapM_iff : xs.mapM f = some ys ↔ List.Forall₂ (fun x y => f x = some y) xs ys := by
  induction xs generalizing ys with
  | nil => simp [eq_comm]
  | cons x xs ih =>
      rw [List.mapM_cons, Option.bind_eq_bind, Option.bind_eq_some_iff, List.forall₂_cons_left_iff]
      constructor
      · rintro ⟨y, hy, h⟩
        rw [Option.bind_eq_bind, Option.bind_eq_some_iff] at h
        obtain ⟨rest, hrest, h⟩ := h
        cases h
        exact ⟨y, rest, hy, ih.mp hrest, rfl⟩
      · rintro ⟨y, rest, hy, hrest, rfl⟩
        exact ⟨y, hy, by rw [ih.mpr hrest]; rfl⟩

theorem mapM_returns (h : ∀ x ∈ xs, ∃ y, f x = some y) : ∃ ys, xs.mapM f = some ys := by
  induction xs with
  | nil => exact ⟨[], rfl⟩
  | cons x xs ih =>
      obtain ⟨y, hy⟩ := h x List.mem_cons_self
      obtain ⟨ys, hys⟩ := ih (fun x' hx' => h x' (List.mem_cons_of_mem x hx'))
      exact ⟨y :: ys, by rw [List.mapM_cons, hy, hys]; rfl⟩

theorem mapM_filterMap (h : ∀ x ∈ xs, ∃ y, f x = some y) : xs.mapM f = some (xs.filterMap f) := by
  induction xs with
  | nil => rfl
  | cons x xs ih =>
      obtain ⟨y, hy⟩ := h x List.mem_cons_self
      rw [List.mapM_cons, hy, ih (fun x' hx' => h x' (List.mem_cons_of_mem x hx')),
        List.filterMap_cons_some hy]
      rfl

theorem map_eq_of_mapM {γ : Type} {g : α → γ} {g' : β → γ} (h : xs.mapM f = some ys)
    (hg : ∀ x ∈ xs, ∀ y, f x = some y → g' y = g x) : ys.map g' = xs.map g := by
  have pairs := mapM_iff.mp h
  clear h
  induction pairs with
  | nil => rfl
  | @cons x y xs ys hxy _ ih =>
      rw [List.map_cons, List.map_cons, hg x List.mem_cons_self y hxy,
        ih (fun x' hx' => hg x' (List.mem_cons_of_mem x hx'))]

theorem mem_zip_of_mapM {x : α} {y : β} (h : xs.mapM f = some ys) (hxy : (x, y) ∈ xs.zip ys) :
    f x = some y := by
  have pairs := mapM_iff.mp h
  clear h
  induction pairs with
  | nil => cases hxy
  | cons hf _ ih =>
      rcases List.mem_cons.mp hxy with heq | hxy
      · cases heq
        exact hf
      · exact ih hxy

theorem mem_of_mapM {x : α} (h : xs.mapM f = some ys) (hx : x ∈ xs) : ∃ y ∈ ys, f x = some y := by
  have pairs := mapM_iff.mp h
  clear h
  induction pairs with
  | nil => cases hx
  | @cons x' y xs ys hf _ ih =>
      rcases List.mem_cons.mp hx with rfl | hx
      · exact ⟨y, List.mem_cons_self, hf⟩
      · obtain ⟨y', hy', hf'⟩ := ih hx
        exact ⟨y', List.mem_cons_of_mem y hy', hf'⟩

theorem mem_source_of_mapM {y : β} (h : xs.mapM f = some ys) (hy : y ∈ ys) :
    ∃ x ∈ xs, f x = some y := by
  have pairs := mapM_iff.mp h
  clear h
  induction pairs with
  | nil => cases hy
  | @cons x y' xs ys hf _ ih =>
      rcases List.mem_cons.mp hy with rfl | hy
      · exact ⟨x, List.mem_cons_self, hf⟩
      · obtain ⟨x', hx', hf'⟩ := ih hy
        exact ⟨x', List.mem_cons_of_mem x hx', hf'⟩

theorem exists_bound {P : α → Nat → Prop} (mono : ∀ x m n, m ≤ n → P x m → P x n)
    (h : ∀ x ∈ xs, ∃ n, P x n) : ∃ n, ∀ x ∈ xs, P x n := by
  induction xs with
  | nil => exact ⟨0, fun x hx => absurd hx List.not_mem_nil⟩
  | cons x xs ih =>
      obtain ⟨m, hm⟩ := h x List.mem_cons_self
      obtain ⟨n, hn⟩ := ih (fun x' hx' => h x' (List.mem_cons_of_mem x hx'))
      refine ⟨max m n, List.forall_mem_cons.mpr ⟨mono x m _ (Nat.le_max_left m n) hm, ?_⟩⟩
      exact fun x' hx' => mono x' n _ (Nat.le_max_right m n) (hn x' hx')

end Collect

end Loop
