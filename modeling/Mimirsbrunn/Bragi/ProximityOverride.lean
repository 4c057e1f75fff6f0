import Mimirsbrunn.Bragi.Radius

namespace Mimirsbrunn
open Regex Settings Mixing

variable {F Shape : Type} {writer : JsonWriter F Shape}

def Settings.QuerySettings.overridden (settings : QuerySettings F) (p : Mimirsbrunn.Proximity F) :
    QuerySettings F :=
  let importance := settings.importance_query
  let decay := { importance.proximity.decay with
    scale := p.scale, offset := p.offset, decay := p.decay }
  { settings with importance_query := importance.withDecay decay }

def QueryType.Shows : QueryType → Part → Prop
  | .PREFIX, _ => True
  | .FUZZY, part => part ≠ .admin

def WrittenAlike (writer : JsonWriter F Shape) (query_type : QueryType)
    (weights weights' : BuildWeight F) : Prop :=
  ∀ part, query_type.Shows part → writer.num (weights.part part) = writer.num (weights'.part part)

variable {weights weights' : BuildWeight F}

theorem WrittenAlike.refl (query_type : QueryType) (weights : BuildWeight F) :
    WrittenAlike writer query_type weights weights := fun _ _ => rfl

theorem writtenAlike_prefix : WrittenAlike writer .PREFIX weights weights' ↔
    (writer.num weights.factor = writer.num weights'.factor ∧
      writer.num weights.missing = writer.num weights'.missing) ∧
        writer.num weights.admin = writer.num weights'.admin := by
  refine ⟨fun h => ⟨⟨h .factor trivial, h .missing trivial⟩, h .admin trivial⟩, ?_⟩
  rintro ⟨⟨hfactor, hmissing⟩, hadmin⟩ part _
  cases part with
  | admin => exact hadmin
  | factor => exact hfactor
  | missing => exact hmissing

theorem writtenAlike_fuzzy : WrittenAlike writer .FUZZY weights weights' ↔
    writer.num weights.factor = writer.num weights'.factor ∧
      writer.num weights.missing = writer.num weights'.missing := by
  refine ⟨fun h => ⟨h .factor nofun, h .missing nofun⟩, ?_⟩
  rintro ⟨hfactor, hmissing⟩ part hshows
  cases part with
  | admin => exact absurd rfl hshows
  | factor => exact hfactor
  | missing => exact hmissing

theorem buildWithWeight_eq_iff (types : Types F) :
    buildWithWeight writer weights types = buildWithWeight writer weights' types ↔
      writer.num weights.factor = writer.num weights'.factor ∧
        writer.num weights.missing = writer.num weights'.missing := by
  simp [buildWithWeight, weightOfType]

theorem buildAdminWeightQuery_eq_iff [OfNat F 1000000] :
    buildAdminWeightQuery writer weights = buildAdminWeightQuery writer weights' ↔
      writer.num weights.admin = writer.num weights'.admin := by
  simp [buildAdminWeightQuery]

variable [OfNat F 1] [Add F] [Sub F] [Mul F] [Div F]

variable [OfNat F 1000000]

def ActsAsSettings (writer : JsonWriter F Shape) (q : Text) (filters : Filters F Shape)
    (lang : Text) (settings : QuerySettings F) (query_type : QueryType)
    (excludes : Option (List Text)) (p : Mimirsbrunn.Proximity F) : Prop :=
  buildQuery writer q { filters with proximity := some p } lang settings query_type excludes =
    buildQuery writer q { filters with proximity := none } lang (settings.overridden p) query_type
      excludes

variable (q lang : Text) (filters : Filters F Shape) (settings : QuerySettings F)
  (query_type : QueryType) (excludes : Option (List Text)) (p : Mimirsbrunn.Proximity F)

theorem buildBoosts_override_iff :
    buildBoosts writer settings { filters with proximity := some p } query_type =
      buildBoosts writer (settings.overridden p) { filters with proximity := none } query_type ↔
    WrittenAlike writer query_type
      (buildWeightDependingOnRadius writer settings.importance_query filters.coord)
      (buildWeightDependingOnRadius writer (settings.overridden p).importance_query
        filters.coord) := by
  unfold buildBoosts
  cases query_type with
  | PREFIX =>
      simp [List.reduceOption, QuerySettings.overridden, ImportanceQueryBoosts.withDecay,
        buildWithWeight_eq_iff, buildAdminWeightQuery_eq_iff, writtenAlike_prefix]
  | FUZZY =>
      simp [List.reduceOption, QuerySettings.overridden, ImportanceQueryBoosts.withDecay,
        buildWithWeight_eq_iff, writtenAlike_fuzzy]

theorem buildQuery_override_iff :
    ActsAsSettings writer q filters lang settings query_type excludes p ↔
    buildBoosts writer settings { filters with proximity := some p } query_type =
      buildBoosts writer (settings.overridden p) { filters with proximity := none } query_type := by
  unfold ActsAsSettings buildQuery
  cases excludes <;> simp [QuerySettings.overridden, ImportanceQueryBoosts.withDecay]

theorem acts_iff_weights (writer : JsonWriter F Shape) :
    ActsAsSettings writer q filters lang settings query_type excludes p ↔
      filters.coord = none ∨ WrittenAlike writer query_type
        (weightsFor writer settings.importance_query.weights
          settings.importance_query.proximity.decay.reach)
        (weightsFor writer settings.importance_query.weights (p.offset + p.scale)) := by
  rw [buildQuery_override_iff, buildBoosts_override_iff]
  cases hcoord : filters.coord with
  | none =>
      refine iff_of_true ?_ (.inl rfl)
      rw [buildWeight_none, buildWeight_none]
      exact .refl _ _
  | some coord =>
      rw [buildWeight_some, buildWeight_some]
      exact ⟨.inr, fun h => h.resolve_left (Option.some_ne_none coord)⟩

theorem acts_of_same_radius
    (h : writer.max (writer.min settings.importance_query.proximity.decay.reach
        settings.importance_query.weights.radius_range.2)
          settings.importance_query.weights.radius_range.1 =
      writer.max (writer.min (p.offset + p.scale)
        settings.importance_query.weights.radius_range.2)
          settings.importance_query.weights.radius_range.1) :
    ActsAsSettings writer q filters lang settings query_type excludes p := by
  refine (acts_iff_weights _ _ _ _ _ _ _ writer).mpr (.inr ?_)
  rw [weightsFor_congr h]
  exact .refl _ _

section Reals

variable (rest : JsonWriter (Exact ℝ) Shape) {ln_1p : ℝ → ℝ}

theorem exact_num_inj (ln_1p : ℝ → ℝ) {x y : Exact ℝ} :
    (exactWriter rest ln_1p).num x = (exactWriter rest ln_1p).num y ↔ x = y := by
  refine ⟨fun h => ?_, fun h => h ▸ rfl⟩
  rcases x with _ | x <;> rcases y with _ | y
  · rfl
  · cases h
  · cases h
  · exact Json.num.inj h

def exactProximity (p : Mimirsbrunn.Proximity ℝ) : Mimirsbrunn.Proximity (Exact ℝ) :=
  ⟨.of p.scale, .of p.offset, .of p.decay⟩

variable (q lang : Text) (filters : Filters (Exact ℝ) Shape) (settings : QuerySettings (Exact ℝ))
  (importance : ImportanceQueryBoosts ℝ) (query_type : QueryType) (excludes : Option (List Text))
  (p : Mimirsbrunn.Proximity ℝ)

def SameRadius (importance : ImportanceQueryBoosts ℝ) (query_type : QueryType) (reach : ℝ) : Prop :=
  clamped importance.weights.radius_range.1 importance.weights.radius_range.2
      importance.proximity.decay.reach =
    clamped importance.weights.radius_range.1 importance.weights.radius_range.2 reach ∨
  ∀ part, query_type.Shows part →
    importance.weights.min_radius_prefix.part part = importance.weights.max_radius.part part

theorem acts_iff_radius (hln : StrictMonoOn ln_1p (Set.Ici 0))
    (h₀ : 0 ≤ importance.weights.radius_range.1) :
    ActsAsSettings (exactWriter rest ln_1p) q filters lang
        { settings with importance_query := importance.map .of } query_type excludes
        (exactProximity p) ↔
      filters.coord = none ∨ SameRadius importance query_type (p.offset + p.scale) := by
  rcases lt_or_ge importance.weights.radius_range.1 importance.weights.radius_range.2 with
    hlt | hge
  · rw [acts_iff_weights]
    refine or_congr_right ?_
    have hpart (part : Part) := (exact_num_inj rest ln_1p).trans (part_eq_iff rest hln h₀ hlt
      importance.proximity.decay.reach (p.offset + p.scale) part)
    constructor
    · intro h
      by_cases hsame : clamped importance.weights.radius_range.1 importance.weights.radius_range.2
          importance.proximity.decay.reach =
        clamped importance.weights.radius_range.1 importance.weights.radius_range.2
          (p.offset + p.scale)
      · exact Or.inl hsame
      · exact Or.inr fun part hshows => ((hpart part).mp (h part hshows)).resolve_left hsame
    · rintro (hsame | hends) part hshows
      · exact (hpart part).mpr (.inl hsame)
      · exact (hpart part).mpr (.inr (hends part hshows))
  · have hsame (reach reach' : ℝ) :
        clamped importance.weights.radius_range.1 importance.weights.radius_range.2 reach =
          clamped importance.weights.radius_range.1 importance.weights.radius_range.2 reach' := by
      rw [clamped_of_hi_le_lo hge, clamped_of_hi_le_lo hge]
    exact iff_of_true (acts_of_same_radius _ _ _ _ _ _ _ (congrArg Exact.of (hsame _ _)))
      (.inr (Or.inl (hsame _ _)))

end Reals

structure OverrideTold (q lang : Text) (query_type : QueryType) (excludes : Option (List Text)) :
    Prop where
  weights : ∀ {F Shape : Type} [OfNat F 1] [OfNat F 1000000] [Add F] [Sub F] [Mul F] [Div F]
    (writer : JsonWriter F Shape) (filters : Filters F Shape) (settings : QuerySettings F)
    (p : Mimirsbrunn.Proximity F),
    ActsAsSettings writer q filters lang settings query_type excludes p ↔
      filters.coord = none ∨ WrittenAlike writer query_type
        (weightsFor writer settings.importance_query.weights
          settings.importance_query.proximity.decay.reach)
        (weightsFor writer settings.importance_query.weights (p.offset + p.scale))
  radius : ∀ {Shape : Type} (rest : JsonWriter (Exact ℝ) Shape) {ln_1p : ℝ → ℝ}
    (filters : Filters (Exact ℝ) Shape) (settings : QuerySettings (Exact ℝ))
    (importance : ImportanceQueryBoosts ℝ) (p : Mimirsbrunn.Proximity ℝ),
    StrictMonoOn ln_1p (Set.Ici 0) → 0 ≤ importance.weights.radius_range.1 →
    (ActsAsSettings (exactWriter rest ln_1p) q filters lang
        { settings with importance_query := importance.map .of } query_type excludes
        (exactProximity p) ↔
      filters.coord = none ∨ SameRadius importance query_type (p.offset + p.scale))

theorem override_told (q lang : Text) (query_type : QueryType) (excludes : Option (List Text)) :
    OverrideTold q lang query_type excludes where
  weights writer filters settings p :=
    acts_iff_weights q lang filters settings query_type excludes p writer
  radius rest _ filters settings importance p :=
    acts_iff_radius rest q lang filters settings importance query_type excludes p

noncomputable def defaultSettings : QuerySettings (Exact ℝ) where
  type_query := ⟨.of 30, Types.map .of ⟨30, 19, 18, 1.5, 1⟩⟩
  string_query := ⟨.of 1, ⟨.of 1.8, .of 0.6, .of 0.6, .of 1, .of 0.001, .of 3.8, .of 1.8⟩⟩
  importance_query := (importanceOver 100 10000).map .of
  reverse_query := ⟨1000⟩

def aroundParis : Filters (Exact ℝ) Unit where
  coord := some ⟨48, 2⟩
  shape := none
  zone_types := none
  poi_types := none
  limit := 10
  timeout := none
  proximity := none

-- A scale of 10000 reaches the greatest radius; the settings' 150 does not.
theorem override_keeps_weights : ¬ ActsAsSettings realWriter "paris".toList aroundParis
    "fr".toList defaultSettings .PREFIX none ⟨.of 10000, .of 0, .of 0.4⟩ := by
  intro h
  have hpos : 0 ≤ (importanceOver 100 10000).weights.radius_range.1 := by norm_num [importanceOver]
  rcases (acts_iff_radius realWriter "paris".toList "fr".toList aroundParis defaultSettings
    (importanceOver 100 10000) .PREFIX none ⟨10000, 0, 0.4⟩ realLn1p_strictMonoOn hpos).mp h with
    hcoord | hradius | hends
  · cases hcoord
  · norm_num [importanceOver, clamped, Decay.reach] at hradius
  · have hfactor := hends .factor trivial
    norm_num [importanceOver, BuildWeight.part] at hfactor

end Mimirsbrunn
