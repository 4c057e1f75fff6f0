import Mimirsbrunn.Library.Comparisons
import Mimirsbrunn.Places.NormalizeId

namespace Mimirsbrunn
open Regex Std Comparison

namespace Transit

structure Mode where
  id : Text
  name : Text

structure Contributor where
  id : Text
  name : Text
  license : Option Text
  website : Option Text

structure Comment where
  id : Text
  name : Text

structure Line (Color : Type) where
  id : Text
  name : Text
  code : Option Text
  color : Option Color
  text_color : Option Color
  sort_order : Option UInt32
  commercial_mode_id : Text
  network_id : Text

structure StopArea where
  id : Text
  name : Text
  coord : Places.Coord
  timezone : Option Text
  codes : List (Text × Text)
  object_properties : Places.StringMap
  comment_links : List Text

structure StopPoint where
  id : Text
  stop_area_id : Text

-- Each object stands for its index in what `get_corresponding_from_idx` relates. The ids of a
-- collection differ, and every stop point is in a stop area of the model.
structure Model (Color : Type) where
  stop_areas : List StopArea
  stop_points : List StopPoint
  commercial_modes : List Mode
  networks : List Mode
  comments : List Comment
  lines_of : StopArea → List (Line Color)
  commercial_modes_of : StopArea → List Mode
  physical_modes_of : StopArea → List Mode
  contributors_of : StopArea → List Contributor
  line_physical_modes : Line Color → List Mode
  stop_point_physical_modes : StopPoint → List Mode
  distinct : (stop_areas.map StopArea.id).Nodup
  attached : ∀ stop_point ∈ stop_points, ∃ stop_area ∈ stop_areas,
    stop_area.id = stop_point.stop_area_id

end Transit

namespace Places

variable {Color : Type}

def commercialModeFrom (mode : Transit.Mode) : CommercialMode :=
  ⟨normalizeId "commercial_mode".toList mode.id, mode.name⟩

def physicalModeFrom (mode : Transit.Mode) : PhysicalMode :=
  ⟨normalizeId "physical_mode".toList mode.id, mode.name⟩

def networkFrom (network : Transit.Mode) : Network :=
  ⟨normalizeId "network".toList network.id, network.name⟩

def Line.fromTransitModel (navitia : Transit.Model Color) (line : Transit.Line Color) :
    Line Color where
  id := normalizeId "line".toList line.id
  name := line.name
  code := line.code
  color := line.color
  text_color := line.text_color
  commercial_mode := (navitia.commercial_modes.find? (fun c => c.id = line.commercial_mode_id)).map
    commercialModeFrom
  network := (navitia.networks.find? (fun n => n.id = line.network_id)).map networkFrom
  physical_modes := (navitia.line_physical_modes line).map physicalModeFrom
  sort_order := line.sort_order

-- `human_sort::compare`.
variable (human_sort : Text → Text → Ordering)

def compareSortOrder : Option UInt32 → Option UInt32 → Ordering
  | none, some _ => .gt
  | some _, none => .lt
  | some s, some o => compare s o
  | none, none => .eq

def compareCode : Option Text → Option Text → Ordering
  | some l, some r => human_sort l r
  | _, _ => .eq

def compareLines (lhs rhs : Line Color) : Ordering :=
  (compareSortOrder lhs.sort_order rhs.sort_order).then
    ((compareCode human_sort lhs.code rhs.code).then (human_sort lhs.name rhs.name))

-- The sort is stable; what it makes of a comparison that is no preorder is left open.
def sortLines (lines : List (Line Color)) : List (Line Color) :=
  sortBy (compareLines human_sort) lines

def getLines (navitia : Transit.Model Color) (stop_area : Transit.StopArea) : List (Line Color) :=
  sortLines human_sort ((navitia.lines_of stop_area).map (Line.fromTransitModel navitia))

structure Crossed (u c₁ c₂ : Line Color) : Prop where
  missing : u.code = none
  codes : ∃ l r, c₁.code = some l ∧ c₂.code = some r ∧ human_sort l r = .lt
  same₁ : c₁.sort_order = u.sort_order
  same₂ : c₂.sort_order = u.sort_order
  below : (human_sort c₂.name u.name).isLE
  above : (human_sort u.name c₁.name).isLE

structure TotallyPreordered (lines : List (Line Color)) : Prop where
  preorder : PreorderOn (compareLines human_sort) lines
  perm : ∀ input, input.Perm lines → (sortLines human_sort input).Perm lines
  sorted : ∀ input, input.Perm lines →
    (sortLines human_sort input).Pairwise (fun a b => (compareLines human_sort a b).isLE)
  settled : ∀ input, input.Perm lines → List.Forall₂ (fun a b => compareLines human_sort a b = .eq)
    (sortLines human_sort input) (sortLines human_sort lines)

instance : TransCmp compareSortOrder where
  eq_swap {a b} := by
    cases a <;> cases b <;> simp only [compareSortOrder, Ordering.swap]
    exact OrientedCmp.eq_swap
  isLE_trans {a b c} hab hbc := by
    cases a <;> cases b <;> cases c <;> simp_all [compareSortOrder]
    exact TransCmp.isLE_trans hab hbc

theorem compareSortOrder_self (order : Option UInt32) : compareSortOrder order order = .eq :=
  ReflCmp.compare_self

theorem compareSortOrder_eq {a b : Option UInt32} : compareSortOrder a b = .eq ↔ a = b := by
  cases a <;> cases b <;> simp [compareSortOrder]

variable {human_sort} {lines : List (Line Color)}

def compareWithin (human_sort : Text → Text → Ordering) (lhs rhs : Line Color) : Ordering :=
  (compareCode human_sort lhs.code rhs.code).then (human_sort lhs.name rhs.name)

theorem within_some {a b : Line Color} {l r : Text} (ha : a.code = some l) (hb : b.code = some r) :
    (compareWithin human_sort a b).isLE ↔
      human_sort l r = .lt ∨ human_sort l r = .eq ∧ (human_sort a.name b.name).isLE := by
  rw [compareWithin, ha, hb, Ordering.isLE_then_iff_or]
  rfl

theorem within_left {a b : Line Color} (ha : a.code = none) :
    compareWithin human_sort a b = human_sort a.name b.name := by
  rw [compareWithin, ha]
  rfl

theorem within_right {a b : Line Color} (hb : b.code = none) :
    compareWithin human_sort a b = human_sort a.name b.name := by
  rw [compareWithin, hb]
  cases a.code <;> rfl

theorem compareLines_isLE {a b : Line Color} : (compareLines human_sort a b).isLE ↔
    compareSortOrder a.sort_order b.sort_order = .lt ∨
      a.sort_order = b.sort_order ∧ (compareWithin human_sort a b).isLE := by
  rw [compareLines, Ordering.isLE_then_iff_or, compareSortOrder_eq]
  rfl

variable [TransCmp human_sort]

theorem compareCode_swap (a b : Option Text) :
    compareCode human_sort b a = (compareCode human_sort a b).swap := by
  rcases a with _ | l <;> rcases b with _ | r
  · rfl
  · rfl
  · rfl
  · exact (OrientedCmp.eq_swap : human_sort r l = (human_sort l r).swap)

theorem compareLines_swap (a b : Line Color) :
    compareLines human_sort b a = (compareLines human_sort a b).swap := by
  have horder : compareSortOrder b.sort_order a.sort_order =
      (compareSortOrder a.sort_order b.sort_order).swap := OrientedCmp.eq_swap
  have hname : human_sort b.name a.name = (human_sort a.name b.name).swap := OrientedCmp.eq_swap
  rw [compareLines, compareLines, Ordering.swap_then, Ordering.swap_then, horder, hname,
    compareCode_swap]

theorem compareLines_self (a : Line Color) : compareLines human_sort a a = .eq := by
  have h : compareLines human_sort a a = (compareLines human_sort a a).swap :=
    compareLines_swap a a
  cases hc : compareLines human_sort a a <;> rw [hc] at h <;> first | rfl | cases h

theorem not_isLE {l r : Text} (h : ¬ (human_sort l r).isLE) : human_sort r l = .lt := by
  have hswap : human_sort r l = (human_sort l r).swap := OrientedCmp.eq_swap
  cases hc : human_sort l r <;> simp_all

def Uncrossed (human_sort : Text → Text → Ordering) (lines : List (Line Color)) : Prop :=
  ∀ u ∈ lines, ∀ c₁ ∈ lines, ∀ c₂ ∈ lines, ¬ Crossed human_sort u c₁ c₂

theorem within_trans (h : Uncrossed human_sort lines) {a b c : Line Color} (ha : a ∈ lines)
    (hb : b ∈ lines) (hc : c ∈ lines) (hsame : a.sort_order = b.sort_order)
    (hsame' : b.sort_order = c.sort_order)
    (hab : (compareWithin human_sort a b).isLE) (hbc : (compareWithin human_sort b c).isLE) :
    (compareWithin human_sort a c).isLE := by
  rcases hca : a.code with _ | x <;> rcases hcb : b.code with _ | y <;>
    rcases hcc : c.code with _ | z
  · rw [within_left hca] at hab ⊢
    rw [within_left hcb] at hbc
    exact TransCmp.isLE_trans hab hbc
  · rw [within_left hca] at hab ⊢
    rw [within_left hcb] at hbc
    exact TransCmp.isLE_trans hab hbc
  · rw [within_left hca] at hab ⊢
    rw [within_right hcc] at hbc
    exact TransCmp.isLE_trans hab hbc
  · rw [within_left hca] at hab ⊢
    rcases (within_some hcb hcc).mp hbc with hlt | ⟨_, hle⟩
    · by_contra hnot
      exact h a ha b hb c hc ⟨hca, ⟨y, z, hcb, hcc, hlt⟩, hsame.symm, (hsame.trans hsame').symm,
        Ordering.isLE_of_eq_lt (not_isLE hnot), hab⟩
    · exact TransCmp.isLE_trans hab hle
  · rw [within_right hcb] at hab
    rw [within_left hcb] at hbc
    rw [within_right hcc]
    exact TransCmp.isLE_trans hab hbc
  · rw [within_right hcb] at hab
    rw [within_left hcb] at hbc
    by_contra hnot
    rw [within_some hca hcc, not_or, not_and] at hnot
    have hlt : human_sort z x = .lt := not_isLE fun hle => by
      rcases Ordering.isLE_iff_eq_lt_or_eq_eq.mp hle with hlt | heq
      · exact hnot.1 hlt
      · exact hnot.2 heq (TransCmp.isLE_trans hab hbc)
    exact h b hb c hc a ha ⟨hcb, ⟨z, x, hcc, hca, hlt⟩, hsame'.symm, hsame, hab, hbc⟩
  · rw [within_right hcc] at hbc ⊢
    rcases (within_some hca hcb).mp hab with hlt | ⟨_, hle⟩
    · by_contra hnot
      exact h c hc a ha b hb ⟨hcc, ⟨x, y, hca, hcb, hlt⟩, hsame.trans hsame', hsame',
        hbc, Ordering.isLE_of_eq_lt (not_isLE hnot)⟩
    · exact TransCmp.isLE_trans hle hbc
  · rw [within_some hca hcb] at hab
    rw [within_some hcb hcc] at hbc
    rw [within_some hca hcc]
    rcases hab with hlt | ⟨heq, hle⟩ <;> rcases hbc with hlt' | ⟨heq', hle'⟩
    · exact .inl (TransCmp.lt_trans hlt hlt')
    · exact .inl (TransCmp.lt_of_lt_of_eq hlt heq')
    · exact .inl (TransCmp.lt_of_eq_of_lt heq hlt')
    · exact .inr ⟨TransCmp.eq_trans heq heq', TransCmp.isLE_trans hle hle'⟩

theorem compareLines_trans (h : Uncrossed human_sort lines) {a b c : Line Color} (ha : a ∈ lines)
    (hb : b ∈ lines) (hc : c ∈ lines) (hab : (compareLines human_sort a b).isLE)
    (hbc : (compareLines human_sort b c).isLE) : (compareLines human_sort a c).isLE := by
  rw [compareLines_isLE] at hab hbc ⊢
  rcases hab with hlt | ⟨heq, hle⟩ <;> rcases hbc with hlt' | ⟨heq', hle'⟩
  · exact .inl (TransCmp.lt_trans hlt hlt')
  · exact .inl (heq' ▸ hlt)
  · exact .inl (heq ▸ hlt')
  · exact .inr ⟨heq.trans heq', within_trans h ha hb hc heq heq' hle hle'⟩

theorem preorderOn_iff :
    PreorderOn (compareLines human_sort) lines ↔ Uncrossed human_sort lines := by
  constructor
  · intro h u hu c₁ hc₁ c₂ hc₂ ⟨hmissing, ⟨l, r, hl, hr, hlt⟩, hsame₁, hsame₂, hbelow, habove⟩
    have hfirst : (compareLines human_sort c₂ u).isLE :=
      compareLines_isLE.mpr (.inr ⟨hsame₂, by rwa [within_right hmissing]⟩)
    have hsecond : (compareLines human_sort u c₁).isLE :=
      compareLines_isLE.mpr (.inr ⟨hsame₁.symm, by rwa [within_left hmissing]⟩)
    have hboth := h.trans c₂ hc₂ u hu c₁ hc₁ hfirst hsecond
    have hgt : human_sort r l = .gt := OrientedCmp.gt_of_lt hlt
    rcases compareLines_isLE.mp hboth with horder | ⟨_, hwithin⟩
    · rw [hsame₂, hsame₁, compareSortOrder_self] at horder
      cases horder
    · rw [within_some hr hl, hgt] at hwithin
      rcases hwithin with hcase | ⟨hcase, _⟩ <;> cases hcase
  · intro h
    exact ⟨fun a _ => compareLines_self a, fun a _ b _ => compareLines_swap a b,
      fun a ha b hb c hc => compareLines_trans h ha hb hc⟩

-- For a `human_sort::compare` that is itself a total preorder.
theorem totally_preordered_iff (human_sort : Text → Text → Ordering) [TransCmp human_sort]
    (lines : List (Line Color)) :
    TotallyPreordered human_sort lines ↔
      ∀ u ∈ lines, ∀ c₁ ∈ lines, ∀ c₂ ∈ lines, ¬ Crossed human_sort u c₁ c₂ := by
  refine ⟨fun h => preorderOn_iff.mp h.preorder, fun h => ?_⟩
  have hpre : PreorderOn (compareLines human_sort) lines := preorderOn_iff.mpr h
  refine ⟨hpre, fun input hp => (sortBy_perm _ _).trans hp, fun input hp => (hpre.perm hp).sorted,
    fun input hp => ?_⟩
  exact hpre.agree ((sortBy_perm _ _).trans hp) (sortBy_perm _ _) (hpre.perm hp).sorted hpre.sorted

def lineOf (code : Option String) (name : String) : Line Unit where
  id := name.toList
  name := name.toList
  code := code.map String.toList
  color := none
  text_color := none
  commercial_mode := none
  network := none
  physical_modes := []
  sort_order := none

def ferry : List (Line Unit) := [lineOf (some "1") "z", lineOf none "m", lineOf (some "2") "a"]

theorem ferry_crossed : ¬ TotallyPreordered compare ferry := by
  intro h
  have hle := h.preorder.trans (lineOf (some "2") "a") (by simp [ferry]) (lineOf none "m")
    (by simp [ferry]) (lineOf (some "1") "z") (by simp [ferry]) (by decide) (by decide)
  exact absurd hle (by decide)

def bus : List (Line Unit) := [lineOf (some "1") "a", lineOf none "m", lineOf (some "2") "z"]

theorem mem_bus {line : Line Unit} : line ∈ bus ↔
    line = lineOf (some "1") "a" ∨ line = lineOf none "m" ∨ line = lineOf (some "2") "z" := by
  simp [bus]

theorem coded_preordered : TotallyPreordered compare bus :=
  (totally_preordered_iff compare bus).mpr fun u hu c₁ h₁ c₂ h₂ hcross => by
    obtain ⟨l, r, hl, hr, hlt⟩ := hcross.codes
    have hu : u = lineOf none "m" := by
      rcases mem_bus.mp hu with rfl | rfl | rfl
      · cases hcross.missing
      · rfl
      · cases hcross.missing
    subst hu
    have hsecond : c₂ = lineOf (some "1") "a" := by
      rcases mem_bus.mp h₂ with rfl | rfl | rfl
      · rfl
      · cases hr
      · exact absurd hcross.below (by decide)
    have hfirst : c₁ = lineOf (some "2") "z" := by
      rcases mem_bus.mp h₁ with rfl | rfl | rfl
      · exact absurd hcross.above (by decide)
      · cases hl
      · rfl
    subst hfirst hsecond
    obtain rfl := Option.some.inj hl
    obtain rfl := Option.some.inj hr
    exact absurd hlt (by decide)

end Places

end Mimirsbrunn
