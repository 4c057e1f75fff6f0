import Mathlib.Data.Set.Insert
import Mathlib.Order.Bounds.Defs

-- What the items of the greatest level carry, among the items that carry something.
namespace Greatest

variable {α β κ : Type}

section

variable (level : α → κ) (parts : α → List β)

def levels (xs : List α) : Set κ := {k | ∃ x ∈ xs, parts x ≠ [] ∧ level x = k}

def raise [LT κ] [DecidableLT κ] (best : κ) (x : α) : κ :=
  if best < level x ∧ ¬ (parts x).isEmpty then level x else best

-- A search that starts at `bottom` and takes it for the level of no item.
def collect [LT κ] [DecidableLT κ] [DecidableEq κ] (bottom : κ) (xs : List α) : List β :=
  let best := xs.foldl (raise level parts) bottom
  if best = bottom then []
  else (xs.filter (fun x => level x = best)).flatMap parts

structure Collected [LE κ] [DecidableEq κ] (xs : List α) (ys : List β) : Prop where
  top : ∀ k, IsGreatest (levels level parts xs) k →
    ys = (xs.filter (fun x => level x = k)).flatMap parts
  nonempty : ys ≠ [] ↔ ∃ x ∈ xs, parts x ≠ []

end

variable {level : α → κ} {parts : α → List β}

theorem mem_levels_cons {x : α} {xs : List α} {k : κ} :
    k ∈ levels level parts (x :: xs) ↔
      (parts x ≠ [] ∧ level x = k) ∨ k ∈ levels level parts xs := by
  simp [levels]

variable [LT κ] [DecidableLT κ]

theorem raise_cases (level : α → κ) (parts : α → List β) (best : κ) (x : α) :
    raise level parts best x = best ∨
      (parts x ≠ [] ∧ raise level parts best x = level x) := by
  by_cases h : best < level x ∧ ¬ (parts x).isEmpty
  · exact .inr ⟨by simpa using h.2, if_pos h⟩
  · exact .inl (if_neg h)

variable [LE κ] [Std.IsLinearOrder κ] [Std.LawfulOrderLT κ]

theorem le_raise (best : κ) (x : α) : best ≤ raise level parts best x := by
  rw [raise]
  split
  · next h => exact Std.le_of_lt h.1
  · exact Std.le_refl best

theorem level_le_raise {x : α} (hx : parts x ≠ []) (best : κ) :
    level x ≤ raise level parts best x := by
  rw [raise]
  split
  · exact Std.le_refl (level x)
  · next h =>
    refine Std.not_lt.mp (fun hlt => h ⟨hlt, ?_⟩)
    simpa using hx

theorem foldl_raise_greatest (level : α → κ) (parts : α → List β) (xs : List α) (best : κ) :
    IsGreatest (insert best (levels level parts xs)) (xs.foldl (raise level parts) best) := by
  induction xs generalizing best with
  | nil =>
      refine ⟨Set.mem_insert _ _, fun k hk => ?_⟩
      rcases hk with rfl | ⟨x, hx, _⟩
      · exact Std.le_refl k
      · cases hx
  | cons x xs ih =>
      obtain ⟨hmem, hle⟩ := ih (raise level parts best x)
      have hraised : raise level parts best x ≤ (x :: xs).foldl (raise level parts) best :=
        hle (Set.mem_insert _ _)
      refine ⟨?_, fun k hk => ?_⟩
      · rw [List.foldl_cons]
        rcases hmem with heq | hin
        · rw [heq]
          rcases raise_cases level parts best x with hb | ⟨hx, hl⟩
          · exact .inl hb
          · exact .inr (mem_levels_cons.mpr (.inl ⟨hx, hl.symm⟩))
        · exact .inr (mem_levels_cons.mpr (.inr hin))
      · rcases hk with rfl | hk
        · exact Std.le_trans (le_raise k x) hraised
        · rcases mem_levels_cons.mp hk with ⟨hx, rfl⟩ | hin
          · exact Std.le_trans (level_le_raise hx best) hraised
          · exact hle (.inr hin)

variable [DecidableEq κ]

theorem collect_none {bottom : κ} {xs : List α} (h : ∀ x ∈ xs, parts x ≠ [] → level x ≤ bottom) :
    collect level parts bottom xs = [] := by
  obtain ⟨hmem, hle⟩ := foldl_raise_greatest level parts xs bottom
  refine if_pos ?_
  rcases hmem with hb | ⟨x, hx, hparts, hlevel⟩
  · exact hb
  · refine Std.le_antisymm ?_ (hle (Set.mem_insert _ _))
    rw [← hlevel]
    exact h x hx hparts

theorem collect_top {bottom k : κ} {xs : List α} (hk : IsGreatest (levels level parts xs) k)
    (hb : bottom < k) :
    collect level parts bottom xs = (xs.filter (fun x => level x = k)).flatMap parts := by
  obtain ⟨hmem, hle⟩ := foldl_raise_greatest level parts xs bottom
  have hbest : xs.foldl (raise level parts) bottom = k := by
    refine Std.le_antisymm ?_ (hle (.inr hk.1))
    rcases hmem with heq | hin
    · rw [heq]
      exact Std.le_of_lt hb
    · exact hk.2 hin
  rw [collect, hbest]
  refine if_neg ?_
  rintro rfl
  exact Std.lt_irrefl hb

theorem collect_ne_nil_iff {bottom : κ} {xs : List α} :
    collect level parts bottom xs ≠ [] ↔ ∃ x ∈ xs, parts x ≠ [] ∧ bottom < level x := by
  obtain ⟨hmem, hle⟩ := foldl_raise_greatest level parts xs bottom
  constructor
  · intro hne
    by_contra hnone
    refine hne (collect_none (fun x hx hparts => Std.not_lt.mp (fun hlt => hnone ?_)))
    exact ⟨x, hx, hparts, hlt⟩
  · rintro ⟨x, hx, hparts, hlt⟩
    have hbest : bottom < xs.foldl (raise level parts) bottom :=
      Std.lt_of_lt_of_le hlt (hle (.inr ⟨x, hx, hparts, rfl⟩))
    rcases hmem with heq | ⟨y, hy, hyparts, hylevel⟩
    · rw [heq] at hbest
      exact absurd hbest Std.lt_irrefl
    · rw [collect, if_neg (fun heq => Std.lt_irrefl (heq ▸ hbest))]
      obtain ⟨b, hb⟩ := List.exists_mem_of_ne_nil _ hyparts
      refine List.ne_nil_of_mem (List.mem_flatMap.mpr ⟨y, ?_, hb⟩)
      exact List.mem_filter.mpr ⟨hy, by simpa using hylevel⟩

theorem collected_iff {bottom : κ} {xs : List α} :
    Collected level parts xs (collect level parts bottom xs) ↔
      ((∃ x ∈ xs, parts x ≠ []) → ∃ x ∈ xs, parts x ≠ [] ∧ bottom < level x) := by
  constructor
  · intro h hsome
    exact collect_ne_nil_iff.mp (h.nonempty.mpr hsome)
  · intro h
    refine ⟨fun k hk => ?_, ?_⟩
    · obtain ⟨y, hy, hyparts, _⟩ := hk.1
      obtain ⟨x, hx, hparts, hlt⟩ := h ⟨y, hy, hyparts⟩
      exact collect_top hk (Std.lt_of_lt_of_le hlt (hk.2 ⟨x, hx, hparts, rfl⟩))
    · rw [collect_ne_nil_iff]
      constructor
      · rintro ⟨x, hx, hparts, _⟩
        exact ⟨x, hx, hparts⟩
      · exact h

end Greatest
