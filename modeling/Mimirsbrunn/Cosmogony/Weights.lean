import Mimirsbrunn.Cosmogony.IntoAdmin
import Mimirsbrunn.Library.Entries
import Mimirsbrunn.Library.Loop
import Mimirsbrunn.Places.DecodesBack

namespace Mimirsbrunn.Places
open Regex Std

variable {Shape Geometry Color : Type} (crates : Crates Shape Geometry Color)
variable (decimal : Text → Option Float) (langs : List Text) (flag : Bool)

def Produced (zones : List (Zone Shape)) (admin : Admin Shape Geometry) : Prop :=
  (∃ zone ∈ zones, firstAdmin crates decimal langs flag zones zone = some admin) ∨
    ∃ admins fuel, adminsWithoutBoundaries crates decimal langs flag zones = some admins ∧
      ∃ zone ∈ zones, zone.intoAdmin crates decimal (cosmogonyIdToOsmId zones) langs
        ADMIN_MAX_WEIGHT flag (some admins) fuel = some admin

def isNanWord (s : Text) : Bool := String.ofList ((unsigned s).2.map Char.toLower) = "nan"

def Zone.Poisoned (zone : Zone Shape) : Prop :=
  (∃ s, zone.tags["population".toList]? = some s ∧ isNanWord s = true) ∨
    zone.tags["population".toList]?.bind (f64FromStr decimal) = none ∧
      ∃ s, zone.center_tags["population".toList]? = some s ∧ isNanWord s = true

-- The numbers of a zone come from a JSON file.
structure Zone.Finite (zone : Zone Shape) : Prop where
  center : ∀ center ∈ zone.center, center.Finite
  boundary : ∀ boundary ∈ zone.boundary, crates.Finite boundary
  bbox : ∀ bbox ∈ zone.bbox, bbox.Finite

variable {decimal}

theorem f64FromStr_isNaN (numbers : ∀ s x, decimal s = some x → x.isNaN = false) {s : Text}
    {x : Float} (h : f64FromStr decimal s = some x) : x.isNaN = isNanWord s := by
  rw [f64FromStr] at h
  split at h
  case h_1 negative word hsplit =>
    rw [isNanWord, hsplit]
    split at h
    case h_1 hword => rw [hword]; cases h; decide +kernel
    case h_2 hword => rw [hword]; cases h; cases negative <;> decide +kernel
    case h_3 hword => rw [hword]; cases h; cases negative <;> decide +kernel
    case h_4 hnan _ _ => rw [numbers s x h, decide_eq_false hnan]

theorem f64FromStr_of_isNanWord {s : Text} (h : isNanWord s = true) :
    f64FromStr decimal s ≠ none := by
  rw [isNanWord, decide_eq_true_eq] at h
  rw [f64FromStr]
  split
  case h_1 negative word hsplit =>
    rw [hsplit] at h
    rw [h]
    exact Option.some_ne_none _

theorem getWeight_isNaN (numbers : ∀ s x, decimal s = some x → x.isNaN = false)
    (zone : Zone Shape) :
    (getWeight decimal zone.tags zone.center_tags).isNaN = true ↔ zone.Poisoned decimal := by
  have nan_word {o : Option Text} {x : Float} (h : o.bind (f64FromStr decimal) = some x) :
      x.isNaN = true ↔ ∃ s, o = some s ∧ isNanWord s = true := by
    obtain ⟨s, rfl, hs⟩ := Option.bind_eq_some_iff.mp h
    rw [f64FromStr_isNaN numbers hs]
    simp
  rw [getWeight, Zone.Poisoned]
  cases hown : zone.tags["population".toList]?.bind (f64FromStr decimal) with
  | some x =>
    rw [Option.some_or, Option.getD_some, nan_word hown]
    simp only [reduceCtorEq, false_and, or_false]
  | none =>
    have own : ¬∃ s, zone.tags["population".toList]? = some s ∧ isNanWord s = true := by
      rintro ⟨s, hs, hnan⟩
      rw [hs, Option.bind_some] at hown
      exact absurd hown (f64FromStr_of_isNanWord hnan)
    rw [Option.none_or]
    cases hcenter : zone.center_tags["population".toList]?.bind (f64FromStr decimal) with
    | some x =>
      rw [Option.getD_some, nan_word hcenter]
      simp only [own, false_or, true_and]
    | none =>
      have center : ¬∃ s, zone.center_tags["population".toList]? = some s ∧ isNanWord s = true := by
        rintro ⟨s, hs, hnan⟩
        rw [hs, Option.bind_some] at hcenter
        exact absurd hcenter (f64FromStr_of_isNanWord hnan)
      simp only [own, center, and_false, or_false, iff_false]
      decide +kernel

theorem clamp_le {x : Float} (h : x.isNaN = false) : 0 ≤ clamp x 0 1 ∧ clamp x 0 1 ≤ 1 := by
  have h0 : (0 : Float).isNaN = false := by decide +kernel
  have h1 : (1 : Float).isNaN = false := by decide +kernel
  rw [clamp]
  split
  case isTrue => constructor <;> decide +kernel
  case isFalse hpos =>
    have hpos := Floats.le_of_not_lt h h0 hpos
    split
    case isTrue => constructor <;> decide +kernel
    case isFalse hle => exact ⟨hpos, Floats.le_of_not_lt h1 h hle⟩

theorem clamp_isNaN {x : Float} (h : x.isNaN = true) : clamp x 0 1 = x := by
  have unordered {y : Float} : ¬x < y ∧ ¬y < x := by
    constructor
    · exact fun hlt => absurd (Floats.isNaN_of_lt hlt).1 (by rw [h]; exact Bool.noConfusion)
    · exact fun hlt => absurd (Floats.isNaN_of_lt hlt).2 (by rw [h]; exact Bool.noConfusion)
  rw [clamp, if_neg unordered.1, if_neg unordered.2]

theorem normalizeWeight_le_iff (weight : Float) :
    0 ≤ normalizeWeight weight ADMIN_MAX_WEIGHT ∧ normalizeWeight weight ADMIN_MAX_WEIGHT ≤ 1 ↔
      weight.isNaN = false := by
  have divided : (weight / ADMIN_MAX_WEIGHT).isNaN = weight.isNaN :=
    Floats.isNaN_div (by decide +kernel) (by decide +kernel)
  rw [normalizeWeight]
  constructor
  · rintro ⟨hle, _⟩
    by_contra hnan
    rw [Bool.not_eq_false, ← divided] at hnan
    rw [clamp_isNaN hnan] at hle
    exact absurd (Floats.isNaN_of_le hle).2 (by rw [hnan]; exact Bool.noConfusion)
  · intro h
    exact clamp_le (divided.trans h)

theorem Coord.default_finite : Coord.default.Finite := by
  constructor <;> decide +kernel

theorem Admin.finite_iff (admin : Admin Shape Geometry) :
    admin.Finite crates ↔
      admin.weight.isFinite = true ∧ admin.coord.Finite ∧
      (∀ boundary ∈ admin.boundary, crates.Finite boundary) ∧
      (∀ region ∈ admin.administrative_regions, region.Finite crates) ∧
      (∀ bbox ∈ admin.bbox, bbox.Finite) ∧ ∀ context ∈ admin.context, context.Finite := by
  cases admin
  rw [Admin.Finite, Admin.allFinite_iff]

theorem Admin.build_without_weight {fields : List (String × Json Float)}
    {regions : Option (Option (List (Admin Shape Geometry)))}
    (h : Json.field fields "weight" number? = none) : build crates fields regions = none := by
  rw [build, h]
  iterate 6 refine Option.bind_eq_none_iff.mpr (fun _ _ => ?_)
  rfl

theorem Admin.decode_of_not_finite {admin : Admin Shape Geometry}
    (h : admin.weight.isFinite = false) : Admin.decode crates (admin.encode crates) = none := by
  obtain ⟨id, insee, level, label, name, zip_codes, weight, approx_coord, coord, boundary,
    administrative_regions, bbox, zone_type, parent_id, country_codes, codes, names, labels,
    distance, context⟩ := admin
  have null : number weight = .null := by
    rw [number, if_neg (by rw [h]; exact Bool.noConfusion)]
  rw [encode, decode, Json.tree_obj]
  refine build_without_weight crates ?_
  simp [Json.field, null, number?]

structure Readable (admin : Admin Shape Geometry) : Prop where
  weight : 0 ≤ admin.weight ∧ admin.weight ≤ 1
  decodes : ∃ admin', Admin.decode crates (admin.encode crates) = some admin'

section Fields

variable {crates} {zones_osm_id : ZonesOsmId} {langs flag} {zone : Zone Shape}
variable {admin : Admin Shape Geometry}
variable (h : zone.asAdmin crates decimal zones_osm_id langs ADMIN_MAX_WEIGHT flag = some admin)
include h

theorem asAdmin_weight : admin.weight =
    normalizeWeight (getWeight decimal zone.tags zone.center_tags) ADMIN_MAX_WEIGHT := by
  obtain ⟨id, _, heq⟩ := Option.bind_eq_some_iff.mp h
  cases heq
  rfl

theorem asAdmin_weight_iff (numbers : ∀ s x, decimal s = some x → x.isNaN = false) :
    0 ≤ admin.weight ∧ admin.weight ≤ 1 ↔ ¬zone.Poisoned decimal := by
  rw [asAdmin_weight h, normalizeWeight_le_iff, ← Bool.not_eq_true, getWeight_isNaN numbers]

theorem asAdmin_finite (hzone : zone.Finite crates)
    (hweight : 0 ≤ admin.weight ∧ admin.weight ≤ 1) : admin.Finite crates := by
  obtain ⟨id, _, heq⟩ := Option.bind_eq_some_iff.mp h
  cases heq
  rw [Admin.finite_iff]
  refine ⟨Floats.isFinite_of_le hweight.1 hweight.2 (by decide +kernel) (by decide +kernel), ?_,
    hzone.boundary, fun _ hregion => absurd hregion List.not_mem_nil, hzone.bbox,
    fun _ hcontext => by cases hcontext⟩
  cases hcenter : zone.center with
  | none => exact Coord.default_finite
  | some center => exact hzone.center center hcenter

end Fields

variable {crates langs flag}

theorem firstAdmin_asAdmin {zones : List (Zone Shape)} {zone : Zone Shape}
    {admin : Admin Shape Geometry}
    (h : firstAdmin crates decimal langs flag zones zone = some admin) :
    { zone with boundary := none }.asAdmin crates decimal (cosmogonyIdToOsmId zones) langs
      ADMIN_MAX_WEIGHT flag = some admin := by
  obtain ⟨admin', hadmin, heq⟩ := Option.bind_eq_some_iff.mp h
  cases heq
  exact hadmin

theorem firstAdmin_returns {zones : List (Zone Shape)} {zone : Zone Shape} (hzone : zone ∈ zones) :
    ∃ admin, firstAdmin crates decimal langs flag zones zone = some admin := by
  have known : zone.id ∈ cosmogonyIdToOsmId zones := by
    rw [cosmogonyIdToOsmId, ExtTreeMap.mem_ofList, List.contains_iff_mem, List.map_map]
    exact List.mem_map_of_mem hzone
  obtain ⟨entry, hentry⟩ := Option.isSome_iff_exists.mp (ExtTreeMap.mem_iff_isSome_getElem?.mp known)
  simp only [firstAdmin, Zone.intoAdmin, Zone.asAdmin, hentry]
  exact ⟨_, rfl⟩

theorem adminsWithoutBoundaries_values {zones : List (Zone Shape)}
    {admins : ExtTreeMap Text (Admin Shape Geometry)}
    (h : adminsWithoutBoundaries crates decimal langs flag zones = some admins) {id : Text}
    {admin : Admin Shape Geometry} (hget : admins[id]? = some admin) :
    ∃ zone ∈ zones, firstAdmin crates decimal langs flag zones zone = some admin := by
  obtain ⟨firsts, hfirsts, rfl⟩ := Option.map_eq_some_iff.mp h
  obtain ⟨entry, hentry, _, rfl⟩ := Entries.mem_of_getElem?_ofList hget
  obtain ⟨first, hfirst, rfl⟩ := List.mem_map.mp hentry
  exact Loop.mem_source_of_mapM hfirsts hfirst

theorem firstAdmin_finite {zones : List (Zone Shape)} {zone : Zone Shape}
    {admin : Admin Shape Geometry} (numbers : ∀ s x, decimal s = some x → x.isNaN = false)
    (hzone : zone.Finite crates) (hsafe : ¬zone.Poisoned decimal)
    (h : firstAdmin crates decimal langs flag zones zone = some admin) :
    (0 ≤ admin.weight ∧ admin.weight ≤ 1) ∧ admin.Finite crates := by
  have first := firstAdmin_asAdmin h
  have weight := (asAdmin_weight_iff first numbers).mpr hsafe
  exact ⟨weight, asAdmin_finite first ⟨hzone.center, fun _ h => (by cases h), hzone.bbox⟩ weight⟩

theorem produced_readable {zones : List (Zone Shape)} (hcrates : crates.ReadBack)
    (numbers : ∀ s x, decimal s = some x → x.isNaN = false)
    (hzones : ∀ zone ∈ zones, zone.Finite crates)
    (hsafe : ∀ zone ∈ zones, ¬zone.Poisoned decimal) {admin : Admin Shape Geometry}
    (h : Produced crates decimal langs flag zones admin) : Readable crates admin := by
  rcases h with ⟨zone, hzone, hfirst⟩ | ⟨firsts, fuel, hfirsts, zone, hzone, hadmin⟩
  · obtain ⟨weight, finite⟩ :=
      firstAdmin_finite numbers (hzones zone hzone) (hsafe zone hzone) hfirst
    exact ⟨weight, _, admin.decode_encode hcrates finite⟩
  · obtain ⟨base, hbase, hclimb⟩ := Option.bind_eq_some_iff.mp hadmin
    obtain ⟨parents, _, heq⟩ := Option.bind_eq_some_iff.mp hclimb
    cases heq
    have weight := (asAdmin_weight_iff hbase numbers).mpr (hsafe zone hzone)
    have finite := (Admin.finite_iff crates _).mp (asAdmin_finite hbase (hzones zone hzone) weight)
    obtain ⟨hweight, hcoord, hboundary, _, hbbox, hcontext⟩ := finite
    refine ⟨weight, _, Admin.decode_encode hcrates _ ((Admin.finite_iff crates _).mpr
      ⟨hweight, hcoord, hboundary, fun region hregion => ?_, hbbox, hcontext⟩)⟩
    obtain ⟨id, _, hget⟩ := List.mem_filterMap.mp hregion
    obtain ⟨owner, howner, hfirst⟩ := adminsWithoutBoundaries_values hfirsts hget
    exact (firstAdmin_finite numbers (hzones owner howner) (hsafe owner howner) hfirst).2

theorem admins_readable_iff (crates : Crates Shape Geometry Color) (decimal : Text → Option Float)
    (langs : List Text) (flag : Bool) (zones : List (Zone Shape)) (hcrates : crates.ReadBack)
    (numbers : ∀ s x, decimal s = some x → x.isNaN = false)
    (hzones : ∀ zone ∈ zones, zone.Finite crates) :
    (∀ admin, Produced crates decimal langs flag zones admin → Readable crates admin) ↔
      ∀ zone ∈ zones, ¬zone.Poisoned decimal := by
  constructor
  · intro h zone hzone hpoisoned
    obtain ⟨admin, hadmin⟩ := firstAdmin_returns hzone
    have weight := (h admin (.inl ⟨zone, hzone, hadmin⟩)).weight
    exact (asAdmin_weight_iff (firstAdmin_asAdmin hadmin) numbers).mp weight hpoisoned
  · exact fun hsafe admin => produced_readable hcrates numbers hzones hsafe

def roubaix : Zone Unit where
  id := 0
  osm_id := "relation:58411".toList
  admin_level := some 8
  zone_type := some .City
  name := "Roubaix".toList
  label := "Roubaix (59100), Nord, France".toList
  center := none
  boundary := none
  bbox := none
  tags := ExtTreeMap.ofList [("population".toList, "inf".toList)]
  center_tags := ∅
  parent := none
  international_labels := ∅

theorem roubaix_finite : ∀ zone ∈ [roubaix], zone.Finite plainCrates := by
  intro zone hzone
  cases List.mem_singleton.mp hzone
  exact ⟨fun _ h => (by cases h), fun _ h => (by cases h), fun _ h => (by cases h)⟩

theorem roubaix_safe : ∀ zone ∈ [roubaix], ¬zone.Poisoned (fun _ => none) := by
  intro zone hzone
  cases List.mem_singleton.mp hzone
  have own : roubaix.tags["population".toList]? = some "inf".toList := by decide +kernel
  rintro (⟨s, hs, hnan⟩ | ⟨_, s, hs, _⟩)
  · rw [own] at hs
    cases hs
    exact absurd hnan (by decide)
  · have center : roubaix.center_tags["population".toList]? = none := by decide +kernel
    rw [center] at hs
    cases hs

theorem infinite_population_readable :
    ∃ admin, Produced plainCrates (fun _ => none) [] false [roubaix] admin ∧
      Readable plainCrates admin := by
  obtain ⟨admin, hadmin⟩ := firstAdmin_returns (List.mem_singleton_self roubaix)
  have produced : Produced plainCrates (fun _ => none) [] false [roubaix] admin :=
    .inl ⟨roubaix, List.mem_singleton_self roubaix, hadmin⟩
  exact ⟨admin, produced, (admins_readable_iff plainCrates (fun _ => none) [] false [roubaix]
    plainCrates_readBack (fun _ _ h => by cases h) roubaix_finite).mpr roubaix_safe admin produced⟩

def tourcoing : Zone Unit :=
  { roubaix with tags := ExtTreeMap.ofList [("population".toList, "NaN".toList)] }

theorem nan_population_poisons :
    ∃ admin, Produced plainCrates (fun _ => none) [] false [tourcoing] admin ∧
      ¬(0 ≤ admin.weight ∧ admin.weight ≤ 1) ∧
      Admin.decode plainCrates (admin.encode plainCrates) = none := by
  obtain ⟨admin, hadmin⟩ := firstAdmin_returns (List.mem_singleton_self tourcoing)
  have weight := asAdmin_weight (firstAdmin_asAdmin hadmin)
  refine ⟨admin, .inl ⟨tourcoing, List.mem_singleton_self tourcoing, hadmin⟩, ?_,
    Admin.decode_of_not_finite plainCrates ?_⟩
  · rw [weight]
    decide +kernel
  · rw [weight]
    decide +kernel

end Mimirsbrunn.Places
