import Mathlib.Data.List.Basic

-- A setting that sources give in layers, where the last source to define it is heard.
namespace Layers

variable {α R L V : Type} {x : Option V} {xs ys : List (Option V)} {v w : V}

def lastDefined (xs : List (Option V)) : Option V := xs.reverse.findSome? id

theorem lastDefined_nil : lastDefined ([] : List (Option V)) = none := rfl

theorem lastDefined_singleton : lastDefined [x] = x := by
  cases x <;> rfl

theorem lastDefined_append : lastDefined (xs ++ ys) = (lastDefined ys).or (lastDefined xs) := by
  rw [lastDefined, List.reverse_append, List.findSome?_append]
  rfl

theorem lastDefined_cons : lastDefined (x :: xs) = (lastDefined xs).or x := by
  rw [← List.singleton_append, lastDefined_append, lastDefined_singleton]

theorem foldl_or (xs : List (Option V)) (x : Option V) :
    xs.foldl (fun heard x => x.or heard) x = (lastDefined xs).or x := by
  induction xs generalizing x with
  | nil => rfl
  | cons y ys ih => rw [List.foldl_cons, ih, lastDefined_cons, Option.or_assoc]

theorem lastDefined_flatMap (f : α → List (Option V)) (as : List α) :
    lastDefined (as.flatMap f) = lastDefined (as.map (fun a => lastDefined (f a))) := by
  induction as with
  | nil => rfl
  | cons a as ih => rw [List.flatMap_cons, lastDefined_append, ih, List.map_cons, lastDefined_cons]

theorem lastDefined_none {f : α → Option V} {as : List α} :
    lastDefined (as.map f) = none ↔ ∀ i : Nat, as[i]?.bind f = none := by
  induction as with
  | nil => simp [lastDefined_nil]
  | cons a as ih =>
      rw [List.map_cons, lastDefined_cons, Option.or_eq_none_iff, ih]
      constructor
      · rintro ⟨htail, hhead⟩ (_ | i)
        · exact hhead
        · exact htail i
      · exact fun h => ⟨fun i => h (i + 1), h 0⟩

theorem lastDefined_some {f : α → Option V} {as : List α} :
    lastDefined (as.map f) = some v ↔
      ∃ i : Nat, as[i]?.bind f = some v ∧ ∀ j : Nat, (as[j]?.bind f).isSome → j ≤ i := by
  induction as with
  | nil => simp [lastDefined_nil]
  | cons a as ih =>
      rw [List.map_cons, lastDefined_cons, Option.or_eq_some_iff, ih, lastDefined_none]
      constructor
      · rintro (⟨i, hi, hlast⟩ | ⟨hnone, ha⟩)
        · refine ⟨i + 1, hi, ?_⟩
          rintro (_ | j) hj
          · exact Nat.zero_le _
          · exact Nat.succ_le_succ (hlast j hj)
        · refine ⟨0, ha, ?_⟩
          rintro (_ | j) hj
          · exact Nat.le_refl 0
          · rw [List.getElem?_cons_succ, hnone j] at hj
            cases hj
      · rintro ⟨_ | i, hi, hlast⟩
        · refine .inr ⟨fun j => ?_, hi⟩
          cases hj : as[j]?.bind f with
          | none => rfl
          | some w =>
              have hle := hlast (j + 1) (by rw [List.getElem?_cons_succ, hj]; rfl)
              cases hle
        · exact .inl ⟨i, hi, fun j hj => Nat.le_of_succ_le_succ (hlast (j + 1) hj)⟩

section Table

variable {value : R → L → Option V} {rows : List R} {layers : List L} {i : Nat}

def cell (value : R → L → Option V) (rows : List R) (layers : List L) (i l : Nat) : Option V :=
  rows[i]?.bind (fun row => layers[l]?.bind (value row))

theorem cell_swap (value : R → L → Option V) (rows : List R) (layers : List L) (i l : Nat) :
    cell (fun layer row => value row layer) layers rows l i = cell value rows layers i l := by
  cases hr : rows[i]? <;> cases hl : layers[l]? <;> simp [cell, hr, hl]

def lastInRow (value : R → L → Option V) (rows : List R) (layers : List L) (i : Nat) : Option V :=
  rows[i]?.bind (fun row => lastDefined (layers.map (value row)))

theorem lastInRow_none :
    lastInRow value rows layers i = none ↔ ∀ l, cell value rows layers i l = none := by
  cases hr : rows[i]? with
  | none => simp [lastInRow, cell, hr]
  | some row => simpa [lastInRow, cell, hr] using lastDefined_none

theorem lastInRow_some :
    lastInRow value rows layers i = some v ↔
      ∃ l, cell value rows layers i l = some v ∧
        ∀ m, (cell value rows layers i m).isSome → m ≤ l := by
  cases hr : rows[i]? with
  | none => simp [lastInRow, cell, hr]
  | some row => simpa [lastInRow, cell, hr] using lastDefined_some

def byRow (value : R → L → Option V) (rows : List R) (layers : List L) : Option V :=
  lastDefined (rows.flatMap (fun row => layers.map (value row)))

def byLayer (value : R → L → Option V) (rows : List R) (layers : List L) : Option V :=
  byRow (fun layer row => value row layer) layers rows

theorem byRow_eq : byRow value rows layers =
    lastDefined (rows.map (fun row => lastDefined (layers.map (value row)))) :=
  lastDefined_flatMap _ rows

theorem byRow_none : byRow value rows layers = none ↔ ∀ i l, cell value rows layers i l = none := by
  rw [byRow_eq, lastDefined_none]
  exact forall_congr' (fun i => lastInRow_none)

theorem byRow_some :
    byRow value rows layers = some v ↔
      ∃ i l, cell value rows layers i l = some v ∧
        ∀ j m, (cell value rows layers j m).isSome → j < i ∨ j = i ∧ m ≤ l := by
  rw [byRow_eq, lastDefined_some]
  constructor
  · rintro ⟨i, hv, hlast⟩
    obtain ⟨l, hl, hlastl⟩ := lastInRow_some.mp hv
    refine ⟨i, l, hl, fun j m hjm => ?_⟩
    have hj : (lastInRow value rows layers j).isSome := by
      rw [Option.isSome_iff_ne_none, ne_eq, lastInRow_none]
      intro hnone
      rw [hnone m] at hjm
      cases hjm
    rcases Nat.lt_or_eq_of_le (hlast j hj) with hlt | rfl
    · exact .inl hlt
    · exact .inr ⟨rfl, hlastl m hjm⟩
  · rintro ⟨i, l, hl, hlast⟩
    have hin (m : Nat) (hm : (cell value rows layers i m).isSome) : m ≤ l :=
      (hlast i m hm).elim (fun hlt => absurd hlt (Nat.lt_irrefl i)) And.right
    refine ⟨i, lastInRow_some.mpr ⟨l, hl, hin⟩, fun j hj => ?_⟩
    obtain ⟨w, hw⟩ := Option.isSome_iff_exists.mp hj
    obtain ⟨m, hm, -⟩ := lastInRow_some.mp hw
    rcases hlast j m (by rw [hm]; rfl) with hlt | ⟨heq, -⟩
    · exact Nat.le_of_lt hlt
    · exact Nat.le_of_eq heq

theorem byLayer_none :
    byLayer value rows layers = none ↔ ∀ i l, cell value rows layers i l = none := by
  simp only [byLayer, byRow_none, cell_swap]
  exact forall_comm

theorem byLayer_some :
    byLayer value rows layers = some v ↔
      ∃ i l, cell value rows layers i l = some v ∧
        ∀ j m, (cell value rows layers j m).isSome → m < l ∨ m = l ∧ j ≤ i := by
  simp only [byLayer, byRow_some, cell_swap]
  constructor
  · rintro ⟨l, i, hv, hlast⟩
    exact ⟨i, l, hv, fun j m => hlast m j⟩
  · rintro ⟨i, l, hv, hlast⟩
    exact ⟨l, i, hv, fun m j => hlast j m⟩

structure Shadowed (value : R → L → Option V) (rows : List R) (layers : List L)
    (i hi j lo : Nat) (w v : V) : Prop where
  later : i < j
  lower : lo < hi
  highest : cell value rows layers i hi = some w
  last : cell value rows layers j lo = some v
  differ : w ≠ v
  nothing_higher : ∀ k m, (cell value rows layers k m).isSome → m < hi ∨ m = hi ∧ k ≤ i
  nothing_later : ∀ k m, (cell value rows layers k m).isSome → k < j ∨ k = j ∧ m ≤ lo

theorem byRow_ne_byLayer :
    byRow value rows layers ≠ byLayer value rows layers ↔
      ∃ i hi j lo w v, Shadowed value rows layers i hi j lo w v := by
  constructor
  · intro hne
    cases hrow : byRow value rows layers with
    | none => exact absurd (hrow.trans (byLayer_none.mpr (byRow_none.mp hrow)).symm) hne
    | some v =>
        cases hlayer : byLayer value rows layers with
        | none =>
            rw [byRow_none.mpr (byLayer_none.mp hlayer)] at hrow
            cases hrow
        | some w =>
            obtain ⟨j, lo, hv, hlater⟩ := byRow_some.mp hrow
            obtain ⟨i, hi, hw, hhigher⟩ := byLayer_some.mp hlayer
            have hdiffer : w ≠ v := by
              rintro rfl
              exact hne (hrow.trans hlayer.symm)
            have hplace : ¬ (i = j ∧ hi = lo) := by
              rintro ⟨rfl, rfl⟩
              exact hdiffer (Option.some.inj (hw.symm.trans hv))
            have h₁ := hlater i hi (by rw [hw]; rfl)
            have h₂ := hhigher j lo (by rw [hv]; rfl)
            exact ⟨i, hi, j, lo, w, v, by omega, by omega, hw, hv, hdiffer, hhigher, hlater⟩
  · rintro ⟨i, hi, j, lo, w, v, h⟩ heq
    have hrow := byRow_some.mpr ⟨j, lo, h.last, h.nothing_later⟩
    have hlayer := byLayer_some.mpr ⟨i, hi, h.highest, h.nothing_higher⟩
    exact h.differ (Option.some.inj (hlayer.symm.trans (heq.symm.trans hrow)))

end Table

end Layers
