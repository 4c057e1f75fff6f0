import Mathlib.Algebra.Order.Field.Basic
import Mathlib.Order.Interval.Set.UnorderedInterval
import Mathlib.Order.Monotone.Basic
import Mathlib.Tactic.Linarith
import Mathlib.Tactic.Ring

-- Values between two end points, chosen by a share that a curve makes of a clamped number.
namespace Mixing

section Clamp

variable {K : Type} [LinearOrder K] {lo hi x y : K}

def clamped (lo hi x : K) : K := max (min x hi) lo

theorem lo_le_clamped : lo ≤ clamped lo hi x := le_max_right _ _

theorem clamped_mono (hxy : x ≤ y) : clamped lo hi x ≤ clamped lo hi y :=
  max_le_max_right _ (min_le_min_right _ hxy)

theorem clamped_of_hi_le (h : lo ≤ hi) (hx : hi ≤ x) : clamped lo hi x = hi := by
  rw [clamped, min_eq_right hx, max_eq_left h]

theorem clamped_of_hi_le_lo (h : hi ≤ lo) : clamped lo hi x = lo :=
  max_eq_right ((min_le_right x hi).trans h)

end Clamp

variable {K : Type} [Field K]

def mix (t a b : K) : K := (1 - t) * a + t * b

theorem mix_eq (t a b : K) : mix t a b = a + t * (b - a) := by
  rw [mix]
  ring

theorem mix_zero (a b : K) : mix 0 a b = a := by
  rw [mix_eq]
  ring

theorem mix_one (a b : K) : mix 1 a b = b := by
  rw [mix_eq]
  ring

theorem mix_eq_iff {t t' a b : K} : mix t a b = mix t' a b ↔ t = t' ∨ a = b := by
  rw [mix_eq, mix_eq, add_right_inj, mul_eq_mul_right_iff, sub_eq_zero, eq_comm (a := b)]

variable [LinearOrder K]

def share (f : K → K) (lo hi x : K) : K := (f (clamped lo hi x) - f lo) / (f hi - f lo)

variable [IsStrictOrderedRing K] {t t' a b : K}

theorem mix_mono (ht : t ≤ t') (hab : a ≤ b) : mix t a b ≤ mix t' a b := by
  rw [mix_eq, mix_eq]
  have hstep : t * (b - a) ≤ t' * (b - a) := mul_le_mul_of_nonneg_right ht (sub_nonneg.mpr hab)
  linarith

theorem mix_anti (ht : t ≤ t') (hba : b ≤ a) : mix t' a b ≤ mix t a b := by
  rw [mix_eq, mix_eq]
  have hstep : t * (a - b) ≤ t' * (a - b) := mul_le_mul_of_nonneg_right ht (sub_nonneg.mpr hba)
  linarith

theorem mix_mem (h₀ : 0 ≤ t) (h₁ : t ≤ 1) (a b : K) : mix t a b ∈ Set.uIcc a b := by
  rw [Set.mem_uIcc]
  rcases le_total a b with hab | hba
  · refine .inl ⟨?_, ?_⟩
    · simpa only [mix_zero] using mix_mono h₀ hab
    · simpa only [mix_one] using mix_mono h₁ hab
  · refine .inr ⟨?_, ?_⟩
    · simpa only [mix_one] using mix_anti h₁ hba
    · simpa only [mix_zero] using mix_anti h₀ hba

variable {f : K → K} {lo hi x y : K} (hf : StrictMonoOn f (Set.Ici 0)) (hlo : 0 ≤ lo)
  (h : lo < hi)

include hf hlo h

omit [IsStrictOrderedRing K] in
theorem value_lt : f lo < f hi := hf hlo (hlo.trans h.le) h

theorem share_nonneg : 0 ≤ share f lo hi x :=
  div_nonneg (sub_nonneg.mpr (hf.monotoneOn hlo (hlo.trans lo_le_clamped) lo_le_clamped))
    (sub_pos.mpr (value_lt hf hlo h)).le

theorem share_mono (hxy : x ≤ y) : share f lo hi x ≤ share f lo hi y := by
  refine div_le_div_of_nonneg_right (sub_le_sub_right ?_ _) (sub_pos.mpr (value_lt hf hlo h)).le
  exact hf.monotoneOn (hlo.trans lo_le_clamped) (hlo.trans lo_le_clamped) (clamped_mono hxy)

theorem share_of_hi_le (hx : hi ≤ x) : share f lo hi x = 1 := by
  rw [share, clamped_of_hi_le h.le hx]
  exact div_self (sub_pos.mpr (value_lt hf hlo h)).ne'

theorem share_eq_iff : share f lo hi x = share f lo hi y ↔ clamped lo hi x = clamped lo hi y := by
  have hspan : f hi - f lo ≠ 0 := (sub_pos.mpr (value_lt hf hlo h)).ne'
  rw [share, share, div_left_inj' hspan, sub_left_inj]
  exact hf.injOn.eq_iff (hlo.trans lo_le_clamped) (hlo.trans lo_le_clamped)

theorem share_le_one : share f lo hi x ≤ 1 := by
  rw [← share_of_hi_le hf hlo h (le_max_right x hi)]
  exact share_mono hf hlo h (le_max_left x hi)

end Mixing
