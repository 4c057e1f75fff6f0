import Mathlib.Analysis.SpecialFunctions.Log.Basic
import Mimirsbrunn.Bragi.Dsl
import Mimirsbrunn.Library.Exact
import Mimirsbrunn.Library.Mixing

namespace Mimirsbrunn
open Regex Settings Mixing

namespace Settings

inductive Part where
  | admin
  | factor
  | missing
  deriving DecidableEq, Repr

variable {F G : Type}

def BuildWeight.part (weights : BuildWeight F) : Part → F
  | .admin => weights.admin
  | .factor => weights.factor
  | .missing => weights.missing

theorem BuildWeight.ext_part {weights weights' : BuildWeight F}
    (h : ∀ part, weights.part part = weights'.part part) : weights = weights' := by
  obtain ⟨admin, factor, missing⟩ := weights
  obtain ⟨admin', factor', missing'⟩ := weights'
  obtain rfl : admin = admin' := h .admin
  obtain rfl : factor = factor' := h .factor
  obtain rfl : missing = missing' := h .missing
  rfl

section Maps

variable (f : F → G)

def Types.map (types : Types F) : Types G :=
  ⟨f types.address, f types.admin, f types.stop, f types.poi, f types.street⟩

def Decay.map (decay : Decay F) : Decay G :=
  ⟨decay.func, f decay.scale, f decay.offset, f decay.decay⟩

def Proximity.map (proximity : Proximity F) : Proximity G :=
  ⟨f proximity.weight, f proximity.weight_fuzzy, proximity.decay.map f⟩

def BuildWeight.map (weights : BuildWeight F) : BuildWeight G :=
  ⟨f weights.admin, f weights.factor, f weights.missing⟩

def Weights.map (weights : Weights F) : Weights G :=
  ⟨(f weights.radius_range.1, f weights.radius_range.2), weights.max_radius.map f,
    weights.min_radius_prefix.map f, weights.min_radius_fuzzy.map f, weights.types.map f⟩

def ImportanceQueryBoosts.map (importance : ImportanceQueryBoosts F) : ImportanceQueryBoosts G :=
  ⟨importance.proximity.map f, importance.weights.map f⟩

theorem BuildWeight.part_map (weights : BuildWeight F) (part : Part) :
    (weights.map f).part part = f (weights.part part) := by
  cases part <;> rfl

end Maps

def Decay.reach [Add F] (decay : Decay F) : F := decay.offset + decay.scale

def ImportanceQueryBoosts.withDecay (importance : ImportanceQueryBoosts F) (decay : Decay F) :
    ImportanceQueryBoosts F :=
  { importance with proximity := { importance.proximity with decay := decay } }

end Settings

section Ratio

variable {F Shape : Type} [OfNat F 1] [Add F] [Sub F] [Mul F]

def weightsAt (weights : Weights F) (zoom_ratio : F) : BuildWeight F where
  admin := (1 - zoom_ratio) * weights.min_radius_prefix.admin +
    zoom_ratio * weights.max_radius.admin
  factor := (1 - zoom_ratio) * weights.min_radius_prefix.factor +
    zoom_ratio * weights.max_radius.factor
  missing := (1 - zoom_ratio) * weights.min_radius_prefix.missing +
    zoom_ratio * weights.max_radius.missing

theorem part_weightsAt (weights : Weights F) (zoom_ratio : F) (part : Part) :
    (weightsAt weights zoom_ratio).part part =
      (1 - zoom_ratio) * weights.min_radius_prefix.part part +
        zoom_ratio * weights.max_radius.part part := by
  cases part <;> rfl

variable [Div F]

def zoomRatio (writer : JsonWriter F Shape) (weights : Weights F) (reach : F) : F :=
  let (min_radius, max_radius) := weights.radius_range
  let radius := writer.max (writer.min reach max_radius) min_radius
  (writer.ln_1p radius - writer.ln_1p min_radius) /
    (writer.ln_1p max_radius - writer.ln_1p min_radius)

def weightsFor (writer : JsonWriter F Shape) (weights : Weights F) (reach : F) : BuildWeight F :=
  weightsAt weights (zoomRatio writer weights reach)

theorem weightsFor_congr {writer : JsonWriter F Shape} {weights : Weights F} {reach reach' : F}
    (h : writer.max (writer.min reach weights.radius_range.2) weights.radius_range.1 =
      writer.max (writer.min reach' weights.radius_range.2) weights.radius_range.1) :
    weightsFor writer weights reach = weightsFor writer weights reach' := by
  unfold weightsFor zoomRatio
  simp only [h]

theorem buildWeight_none (writer : JsonWriter F Shape) (importance : ImportanceQueryBoosts F) :
    buildWeightDependingOnRadius writer importance none = weightsAt importance.weights 1 := rfl

theorem buildWeight_some (writer : JsonWriter F Shape) (importance : ImportanceQueryBoosts F)
    (coord : QueryCoord) :
    buildWeightDependingOnRadius writer importance (some coord) =
      weightsFor writer importance.weights importance.proximity.decay.reach := rfl

end Ratio

section Reals

variable {Shape : Type}

-- `f64` replaced by the reals, a division by zero having no result; `rest` is not used here.
noncomputable def exactWriter (rest : JsonWriter (Exact ℝ) Shape) (ln_1p : ℝ → ℝ) :
    JsonWriter (Exact ℝ) Shape :=
  { rest with
    finite := Exact.isDefined
    min := Exact.lift min
    max := Exact.lift max
    ln_1p := Exact.map ln_1p }

noncomputable def exactWeights (rest : JsonWriter (Exact ℝ) Shape) (ln_1p : ℝ → ℝ)
    (importance : ImportanceQueryBoosts ℝ) (coord : Option QueryCoord) : BuildWeight (Exact ℝ) :=
  buildWeightDependingOnRadius (exactWriter rest ln_1p) (importance.map Exact.of) coord

structure Interpolates (rest : JsonWriter (Exact ℝ) Shape) (ln_1p : ℝ → ℝ)
    (importance : ImportanceQueryBoosts ℝ) (coord : Option QueryCoord) : Prop where
  between : ∀ part, ∃ x ∈ Set.uIcc (importance.weights.min_radius_prefix.part part)
      (importance.weights.max_radius.part part),
    (exactWeights rest ln_1p importance coord).part part = Exact.of x
  far : coord = none ∨ importance.weights.radius_range.2 ≤ importance.proximity.decay.reach →
    exactWeights rest ln_1p importance coord = importance.weights.max_radius.map Exact.of
  monotone : ∀ decay : Decay ℝ, importance.proximity.decay.reach ≤ decay.reach →
    ∀ part x y, (exactWeights rest ln_1p importance coord).part part = Exact.of x →
      (exactWeights rest ln_1p (importance.withDecay decay) coord).part part = Exact.of y →
      (importance.weights.min_radius_prefix.part part ≤ importance.weights.max_radius.part part →
        x ≤ y) ∧
      (importance.weights.max_radius.part part ≤ importance.weights.min_radius_prefix.part part →
        y ≤ x)

variable {rest : JsonWriter (Exact ℝ) Shape} {ln_1p : ℝ → ℝ}
  {importance : ImportanceQueryBoosts ℝ} {coord : QueryCoord}

theorem exact_mix (weights : Weights ℝ) (t : ℝ) (part : Part) :
    (weightsAt (weights.map Exact.of) (Exact.of t)).part part =
      Exact.of (mix t (weights.min_radius_prefix.part part) (weights.max_radius.part part)) := by
  simp only [part_weightsAt, Weights.map, BuildWeight.part_map, Exact.one_eq, Exact.of_sub,
    Exact.of_mul, Exact.of_add, mix]

theorem exactWeights_none (part : Part) :
    (exactWeights rest ln_1p importance none).part part =
      Exact.of (importance.weights.max_radius.part part) := by
  rw [exactWeights, buildWeight_none]
  exact (exact_mix importance.weights 1 part).trans (congrArg Exact.of (mix_one _ _))

theorem zoomRatio_exact (rest : JsonWriter (Exact ℝ) Shape) (weights : Weights ℝ) (reach : ℝ)
    (h : ln_1p weights.radius_range.1 < ln_1p weights.radius_range.2) :
    zoomRatio (exactWriter rest ln_1p) (weights.map Exact.of) (Exact.of reach) =
      Exact.of (share ln_1p weights.radius_range.1 weights.radius_range.2 reach) :=
  Exact.of_div _ (sub_pos.mpr h).ne'

theorem weightsFor_part (rest : JsonWriter (Exact ℝ) Shape) (weights : Weights ℝ) (reach : ℝ)
    (h : ln_1p weights.radius_range.1 < ln_1p weights.radius_range.2) (part : Part) :
    (weightsFor (exactWriter rest ln_1p) (weights.map Exact.of) (Exact.of reach)).part part =
      Exact.of (mix (share ln_1p weights.radius_range.1 weights.radius_range.2 reach)
        (weights.min_radius_prefix.part part) (weights.max_radius.part part)) := by
  rw [weightsFor, zoomRatio_exact rest weights reach h, exact_mix]

theorem exactWeights_some (rest : JsonWriter (Exact ℝ) Shape)
    (importance : ImportanceQueryBoosts ℝ) (coord : QueryCoord)
    (h : ln_1p importance.weights.radius_range.1 < ln_1p importance.weights.radius_range.2)
    (part : Part) : (exactWeights rest ln_1p importance (some coord)).part part =
      Exact.of (mix (share ln_1p importance.weights.radius_range.1
        importance.weights.radius_range.2 importance.proximity.decay.reach)
          (importance.weights.min_radius_prefix.part part)
          (importance.weights.max_radius.part part)) :=
  weightsFor_part rest importance.weights importance.proximity.decay.reach h part

theorem exactWeights_withDecay
    (h : ln_1p importance.weights.radius_range.1 < ln_1p importance.weights.radius_range.2)
    (decay : Decay ℝ) (part : Part) :
    (exactWeights rest ln_1p (importance.withDecay decay) (some coord)).part part =
      Exact.of (mix (share ln_1p importance.weights.radius_range.1
        importance.weights.radius_range.2 decay.reach)
          (importance.weights.min_radius_prefix.part part)
          (importance.weights.max_radius.part part)) :=
  exactWeights_some rest (importance.withDecay decay) coord h part

theorem exactWeights_degenerate
    (h : ln_1p importance.weights.radius_range.1 = ln_1p importance.weights.radius_range.2)
    (part : Part) :
    (exactWeights rest ln_1p importance (some coord)).part part = Exact.undefined := by
  have hratio : zoomRatio (exactWriter rest ln_1p) (importance.weights.map Exact.of)
      (Exact.of importance.proximity.decay.reach) = Exact.undefined := by
    refine Eq.trans ?_ (Exact.of_div_zero (ln_1p (clamped importance.weights.radius_range.1
      importance.weights.radius_range.2 importance.proximity.decay.reach) -
        ln_1p importance.weights.radius_range.1))
    rw [← sub_eq_zero.mpr h.symm]
    rfl
  have hweights : exactWeights rest ln_1p importance (some coord) =
      weightsAt (importance.weights.map Exact.of) Exact.undefined := by
    rw [← hratio]
    rfl
  rw [hweights, part_weightsAt, Exact.undefined_mul, Exact.add_undefined]

theorem interpolates_none : Interpolates rest ln_1p importance none where
  between part := ⟨_, Set.right_mem_uIcc, exactWeights_none part⟩
  far _ := BuildWeight.ext_part fun part => by
    rw [exactWeights_none, BuildWeight.part_map]
  monotone decay _ part x y hx hy := by
    rw [exactWeights_none, Exact.of_inj] at hx hy
    obtain rfl := hx.symm.trans hy
    exact ⟨fun _ => le_rfl, fun _ => le_rfl⟩

section Increasing

variable (hln : StrictMonoOn ln_1p (Set.Ici 0)) (h₀ : 0 ≤ importance.weights.radius_range.1)

include hln h₀

theorem interpolates_some
    (h : importance.weights.radius_range.1 < importance.weights.radius_range.2) :
    Interpolates rest ln_1p importance (some coord) where
  between part := ⟨_, mix_mem (share_nonneg hln h₀ h) (share_le_one hln h₀ h) _ _,
    exactWeights_some rest importance coord (value_lt hln h₀ h) part⟩
  far hfar := BuildWeight.ext_part fun part => by
    have hreach := hfar.resolve_left (Option.some_ne_none coord)
    rw [exactWeights_some rest importance coord (value_lt hln h₀ h),
      share_of_hi_le hln h₀ h hreach, mix_one, BuildWeight.part_map]
  monotone decay hle part x y hx hy := by
    rw [exactWeights_some rest importance coord (value_lt hln h₀ h), Exact.of_inj] at hx
    rw [exactWeights_withDecay (value_lt hln h₀ h), Exact.of_inj] at hy
    subst hx hy
    have hshare := share_mono hln h₀ h hle
    exact ⟨mix_mono hshare, mix_anti hshare⟩

end Increasing

theorem part_eq_iff (rest : JsonWriter (Exact ℝ) Shape) {weights : Weights ℝ}
    (hln : StrictMonoOn ln_1p (Set.Ici 0)) (h₀ : 0 ≤ weights.radius_range.1)
    (h : weights.radius_range.1 < weights.radius_range.2) (reach reach' : ℝ) (part : Part) :
    (weightsFor (exactWriter rest ln_1p) (weights.map Exact.of) (Exact.of reach)).part part =
        (weightsFor (exactWriter rest ln_1p) (weights.map Exact.of) (Exact.of reach')).part part ↔
      clamped weights.radius_range.1 weights.radius_range.2 reach =
          clamped weights.radius_range.1 weights.radius_range.2 reach' ∨
        weights.min_radius_prefix.part part = weights.max_radius.part part := by
  have hvalue := value_lt hln h₀ h
  rw [weightsFor_part rest weights reach hvalue, weightsFor_part rest weights reach' hvalue,
    Exact.of_inj, mix_eq_iff, share_eq_iff hln h₀ h]

theorem interpolates_iff (rest : JsonWriter (Exact ℝ) Shape) {ln_1p : ℝ → ℝ}
    (hln : StrictMonoOn ln_1p (Set.Ici 0)) (importance : ImportanceQueryBoosts ℝ)
    (coord : Option QueryCoord) (h₀ : 0 ≤ importance.weights.radius_range.1)
    (hle : importance.weights.radius_range.1 ≤ importance.weights.radius_range.2) :
    Interpolates rest ln_1p importance coord ↔
      coord = none ∨ importance.weights.radius_range.1 < importance.weights.radius_range.2 := by
  constructor
  · intro h
    rcases coord with _ | coord
    · exact .inl rfl
    · refine .inr (lt_of_le_of_ne hle fun heq => ?_)
      obtain ⟨x, -, hx⟩ := h.between .admin
      rw [exactWeights_degenerate (congrArg ln_1p heq)] at hx
      exact Exact.of_ne_undefined x hx.symm
  · rintro (rfl | hlt)
    · exact interpolates_none
    · rcases coord with _ | coord
      · exact interpolates_none
      · exact interpolates_some hln h₀ hlt

end Reals

noncomputable def realLn1p (x : ℝ) : ℝ := Real.log (1 + x)

theorem realLn1p_strictMonoOn : StrictMonoOn realLn1p (Set.Ici 0) := by
  intro x hx y _ hxy
  have hpos : 0 < 1 + x := by
    have hnonneg : 0 ≤ x := hx
    linarith
  exact Real.log_lt_log hpos (by linarith)

noncomputable def realWriter : JsonWriter (Exact ℝ) Unit where
  finite := Exact.isDefined
  widen _ := Exact.of 0
  min := Exact.lift min
  max := Exact.lift max
  ln_1p := Exact.map realLn1p
  display _ := []
  shape _ := .null

-- The settings of `config/query/default.toml`, for a range of radii.
noncomputable def importanceOver (min_radius max_radius : ℝ) : ImportanceQueryBoosts ℝ where
  proximity := ⟨0.4, 0.4, ⟨"exp", 130, 20, 0.4⟩⟩
  weights :=
    { radius_range := (min_radius, max_radius)
      max_radius := ⟨0.03, 0.75, 0⟩
      min_radius_prefix := ⟨0.12, 0.4, 0⟩
      min_radius_fuzzy := ⟨0.03, 0.15, 0⟩
      types := ⟨0.5, 0.5, 1, 0.5, 0.5⟩ }

theorem default_interpolates :
    Interpolates realWriter realLn1p (importanceOver 100 10000) (some ⟨48, 2⟩) :=
  (interpolates_iff realWriter realLn1p_strictMonoOn _ _ (by norm_num [importanceOver])
    (by norm_num [importanceOver])).mpr (.inr (by norm_num [importanceOver]))

theorem one_radius_divides_by_zero :
    ¬ Interpolates realWriter realLn1p (importanceOver 100 100) (some ⟨48, 2⟩) := by
  intro h
  obtain ⟨x, -, hx⟩ := h.between .admin
  rw [exactWeights_degenerate rfl] at hx
  exact Exact.of_ne_undefined x hx.symm

end Mimirsbrunn
