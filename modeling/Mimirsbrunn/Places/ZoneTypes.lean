import Mathlib.Data.List.Pairwise
import Mimirsbrunn.Places.Founders

namespace Mimirsbrunn
open Regex Std Ancestry Greedy

theorem nodup_filterMap_iff {α β : Type} {f : α → Option β} {xs : List α} (hn : xs.Nodup) :
    (xs.filterMap f).Nodup ↔
      ∀ a ∈ xs, ∀ b ∈ xs, ∀ y, f a = some y → f b = some y → a = b := by
  rw [List.Nodup, List.pairwise_filterMap]
  constructor
  · intro h a ha b hb y hay hby
    have : Std.Symm fun a b => ∀ y, f a = some y → ∀ z, f b = some z → y ≠ z :=
      ⟨fun a b hab y hy z hz => (hab z hz y hy).symm⟩
    by_contra hne
    exact h.forall ha hb hne y hay y hby rfl
  · intro h
    refine hn.pairwise_of_forall_ne fun a ha b hb hne y hay z hbz hyz => ?_
    exact hne (h a ha b hb y hay (hyz ▸ hbz))

namespace AdminGeoFinder

variable {G E : Type} [Areal G E] [Envelope E] {finder : AdminGeoFinder G E} {coord : Coord}

def DistinctTypes (finder : AdminGeoFinder G E) : Prop :=
  ∀ split ∈ finder.rtree, ∀ above other, Above finder.parentOf above split.admin →
    Above finder.parentOf other split.admin → above.zone_type = other.zone_type →
    above.zone_type = none ∨ above = other

def OnePerType (finder : AdminGeoFinder G E) (coord : Coord) : Prop :=
  ∃ result, finder.Returns coord result ∧ (result.filterMap Admin.zone_type).Nodup

structure NoTypeTwice (finder : AdminGeoFinder G E) (coord : Coord) : Prop where
  founder : ∀ founder ∈ finder.founders coord, ∀ other ∈ finder.founders coord, ∀ split,
    finder.BringsLater coord other split → ∀ zt, founder.admin.zone_type = some zt →
    split.admin.zone_type ≠ some zt
  brought : ∀ founder ∈ finder.founders coord, ∀ other ∈ finder.founders coord, founder ≠ other →
    ∀ split split', finder.BringsLater coord founder split →
    finder.BringsLater coord other split' → ∀ zt, split.admin.zone_type = some zt →
    split'.admin.zone_type = some zt → split = split'

variable {founder other split : SplitAdmin G E} {zt : ZoneType}

theorem founders_types (h : DistinctIds finder) (hf : founder ∈ finder.founders coord)
    (ho : other ∈ finder.founders coord) (hzt : founder.admin.zone_type = some zt)
    (hzt' : other.admin.zone_type = some zt) : founder = other := by
  rcases before_or (founder_located hf) (founder_located ho) with heq | hsooner | hsooner
  · exact heq
  · exact absurd (.inr ⟨zt, hzt', .inl hzt⟩) (not_claimed h.located_nodup hf ho hsooner)
  · exact absurd (.inr ⟨zt, hzt, .inl hzt'⟩) (not_claimed h.located_nodup ho hf hsooner)

theorem founder_not_brought (h : DistinctIds finder) (hf : founder ∈ finder.founders coord)
    (ho : other ∈ finder.founders coord) : ¬finder.BringsLater coord other founder :=
  fun hb => not_claimed h.located_nodup ho hf hb.1 (.inl hb.2)

theorem NoTypeTwice.onePerType (hcond : finder.NoTypeTwice coord) (h : DistinctIds finder)
    (ht : finder.DistinctTypes) : finder.OnePerType coord := by
  obtain ⟨result, hr⟩ := exists_returns finder coord
  refine ⟨result, hr, (nodup_filterMap_iff (hr.nodup h)).mpr ?_⟩
  intro admin ha admin' ha' zt hzt hzt'
  obtain ⟨split, rfl, hs⟩ := (hr.mem_iff h).mp ha
  obtain ⟨split', rfl, hs'⟩ := (hr.mem_iff h).mp ha'
  rcases hs with hf | ⟨founder, hf, hb⟩
  · rcases hs' with hf' | ⟨founder', hf', hb'⟩
    · rw [founders_types h hf hf' hzt hzt']
    · exact absurd hzt' (hcond.founder split hf founder' hf' split' hb' zt hzt)
  · rcases hs' with hf' | ⟨founder', hf', hb'⟩
    · exact absurd hzt (hcond.founder split' hf' founder hf split hb zt hzt')
    · by_cases heq : founder = founder'
      · subst heq
        rcases ht founder (mem_located.mp (founder_located hf)).1 _ _ hb.2 hb'.2
          (hzt.trans hzt'.symm) with hnone | hsame
        · rw [hnone] at hzt
          cases hzt
        · exact hsame
      · rw [hcond.brought founder hf founder' hf' heq split split' hb hb' zt hzt hzt']

theorem one_per_type_iff (h : DistinctIds finder) (ht : finder.DistinctTypes) (coord : Coord) :
    finder.OnePerType coord ↔ finder.NoTypeTwice coord := by
  constructor
  · rintro ⟨result, hr, htypes⟩
    have hone := (nodup_filterMap_iff (hr.nodup h)).mp htypes
    constructor
    · intro founder hf other ho split hb zt hzt hzt'
      have heq := hone _ (hr.mem_founder h hf) _ (hr.mem_brought h ho hb) zt hzt hzt'
      have hsplit := h.split_ext (mem_located.mp (founder_located hf)).1
        (mem_located.mp hb.1.mem_right).1 heq
      exact founder_not_brought h (hsplit ▸ hf) ho hb
    · intro founder hf other ho _ split split' hb hb' zt hzt hzt'
      refine h.split_ext (mem_located.mp hb.1.mem_right).1 (mem_located.mp hb'.1.mem_right).1 ?_
      exact hone _ (hr.mem_brought h hf hb) _ (hr.mem_brought h ho hb') zt hzt hzt'
  · exact fun hcond => hcond.onePerType h ht

def Around (finder : AdminGeoFinder G E) (coord : Coord) (admin : Admin) : Prop :=
  ∃ split ∈ finder.rtree, Found coord split ∧
    (admin = split.admin ∨ Above finder.parentOf admin split.admin)

def LoneAncestors (finder : AdminGeoFinder G E) (coord : Coord) : Prop :=
  ∀ split ∈ finder.rtree, Found coord split → ∀ above, Above finder.parentOf above split.admin →
    ∀ admin, finder.Around coord admin → ∀ zt, above.zone_type = some zt →
    admin.zone_type = some zt → above = admin

theorem LoneAncestors.noTypeTwice (hlone : finder.LoneAncestors coord) (h : DistinctIds finder) :
    finder.NoTypeTwice coord := by
  have hstored {founder : SplitAdmin G E} (hf : founder ∈ finder.founders coord) :
      founder ∈ finder.rtree := (mem_located.mp (founder_located hf)).1
  have hbrought {founder split : SplitAdmin G E} (hb : finder.BringsLater coord founder split) :
      split ∈ finder.rtree := (mem_located.mp hb.1.mem_right).1
  constructor
  · intro founder hf other ho split hb zt hzt hzt'
    have heq := hlone other (hstored ho) (founder_found ho) split.admin hb.2 founder.admin
      ⟨founder, hstored hf, founder_found hf, .inl rfl⟩ zt hzt' hzt
    obtain rfl := h.split_ext (hbrought hb) (hstored hf) heq
    exact founder_not_brought h hf ho hb
  · intro founder hf other ho _ split split' hb hb' zt hzt hzt'
    refine h.split_ext (hbrought hb) (hbrought hb') ?_
    exact hlone founder (hstored hf) (founder_found hf) split.admin hb.2 split'.admin
      ⟨other, hstored ho, founder_found ho, .inr hb'.2⟩ zt hzt hzt'

theorem LoneAncestors.onePerType (hlone : finder.LoneAncestors coord) (h : DistinctIds finder)
    (ht : finder.DistinctTypes) : finder.OnePerType coord :=
  (hlone.noTypeTwice h).onePerType h ht

def LevelsKept (finder : AdminGeoFinder G E) (coord : Coord) : Prop :=
  ∃ result, finder.Returns coord result ∧ ∀ split ∈ finder.rtree, ∀ zt,
    Areal.contains split.boundary coord = true → split.admin.zone_type = some zt →
    ∃ admin ∈ result, admin.zone_type = some zt

def MarksKept (finder : AdminGeoFinder G E) (coord : Coord) : Prop :=
  ∀ split ∈ finder.rtree, ∀ zt, Areal.contains split.boundary coord = true →
    split.admin.zone_type = some zt → ∀ founder ∈ finder.founders coord, ∀ above,
    Above finder.parentOf above founder.admin → above.zone_type = some zt →
    ∃ other ∈ finder.founders coord, other.admin.zone_type = some zt ∨
      ∃ later, finder.BringsLater coord other later ∧ later.admin.zone_type = some zt

theorem MarksKept.levelsKept [Covering G E] (hcond : finder.MarksKept coord)
    (h : DistinctIds finder) : finder.LevelsKept coord := by
  obtain ⟨result, hr⟩ := exists_returns finder coord
  refine ⟨result, hr, fun split hs zt hfound hzt => ?_⟩
  have hloc : split ∈ finder.located coord :=
    mem_located.mpr ⟨hs, Covering.contains (h.envelope hs) hfound⟩
  rcases founder_or_claimed hloc hfound with hf | ⟨founder, hf, hsooner, hclaim⟩
  · exact ⟨split.admin, hr.mem_founder h hf, hzt⟩
  · rcases hclaim with hbrings | ⟨zt', hzt', hmark | ⟨above, habove, hatype⟩⟩
    · exact ⟨split.admin, hr.mem_brought h hf ⟨hsooner, hbrings⟩, hzt⟩
    · exact ⟨founder.admin, hr.mem_founder h hf, hmark.trans (hzt'.symm.trans hzt)⟩
    · obtain ⟨other, ho, hotype | ⟨later, hb, hltype⟩⟩ := hcond split hs zt hfound hzt founder hf
        above habove (hatype.trans (hzt'.symm.trans hzt))
      · exact ⟨other.admin, hr.mem_founder h ho, hotype⟩
      · exact ⟨later.admin, hr.mem_brought h ho hb, hltype⟩

theorem levels_kept_iff [Covering G E] (h : DistinctIds finder) (coord : Coord) :
    finder.LevelsKept coord ↔ finder.MarksKept coord := by
  constructor
  · rintro ⟨result, hr, hkept⟩ split hs zt hfound hzt _ _ _ _ _
    obtain ⟨admin, ha, hatype⟩ := hkept split hs zt hfound hzt
    obtain ⟨kept, rfl, hf | ⟨other, ho, hb⟩⟩ := (hr.mem_iff h).mp ha
    · exact ⟨kept, hf, .inl hatype⟩
    · exact ⟨other, ho, .inr ⟨kept, hb, hatype⟩⟩
  · exact fun hcond => hcond.levelsKept h

def NestedAncestors (finder : AdminGeoFinder G E) (coord : Coord) : Prop :=
  ∀ split ∈ finder.rtree, Found coord split → ∀ above ∈ finder.rtree,
    Above finder.parentOf above.admin split.admin →
    Envelope.containsPoint above.envelope coord = true ∧
      zoneOrder above.admin.zone_type split.admin.zone_type = false

theorem NestedAncestors.marksKept (hnested : finder.NestedAncestors coord)
    (h : DistinctIds finder) : finder.MarksKept coord := by
  intro _ _ zt _ _ founder hf above habove htype
  obtain ⟨_, split, hs, rfl⟩ := h.stored_iff.mp (h.reached_of_above habove).2
  have hmem := mem_located.mp (founder_located hf)
  obtain ⟨hpoint, hlater⟩ := hnested founder hmem.1 (founder_found hf) split hs habove
  have hsooner := sooner_of_lt (founder_located hf) (mem_located.mpr ⟨hs, hpoint⟩) hlater
  exact ⟨founder, hf, .inr ⟨split, ⟨hsooner, habove⟩, htype⟩⟩

theorem NestedAncestors.levelsKept [Covering G E] (hnested : finder.NestedAncestors coord)
    (h : DistinctIds finder) : finder.LevelsKept coord :=
  (hnested.marksKept h).levelsKept h

end AdminGeoFinder

-- A suburb and a city, found one after the other, that hang under two states.
def twoStates : List (Admin × Option Rectangle) :=
  [(district "west".toList (some .State) none, some square),
    (district "east".toList (some .State) none, some square),
    (district "city".toList (some .City) (some "west".toList), some square),
    (district "suburb".toList (some .Suburb) (some "east".toList), some square)]

def twoStatesFinder : AdminGeoFinder Rectangle Rectangle := AdminGeoFinder.fromIter twoStates

theorem two_states_distinct : twoStatesFinder.DistinctIds :=
  ⟨⟨[.fromIter twoStates], .refl _, rfl⟩, by decide⟩

theorem two_states_located : twoStatesFinder.located ⟨5, 5⟩ = twoStatesFinder.rtree :=
  List.mergeSort_of_pairwise (by decide)

theorem two_states_get : twoStatesFinder.get 5 ⟨5, 5⟩ =
    some [district "suburb".toList (some .Suburb) (some "east".toList),
      district "city".toList (some .City) (some "west".toList),
      district "east".toList (some .State) none, district "west".toList (some .State) none] := by
  rw [AdminGeoFinder.get_eq_lookup, AdminGeoFinder.lookup, two_states_located]
  rfl

theorem two_states_types : twoStatesFinder.DistinctTypes := by
  intro split hs above other ha ho _
  have hchain : ∃ up : Option Admin, Chain twoStatesFinder.parentOf split.admin up.toList := by
    change split ∈ [_, _, _, _] at hs
    simp only [List.mem_cons, List.not_mem_nil, or_false] at hs
    rcases hs with rfl | rfl | rfl | rfl
    · exact ⟨some _, .step rfl (.root rfl)⟩
    · exact ⟨some _, .step rfl (.root rfl)⟩
    · exact ⟨none, .root rfl⟩
    · exact ⟨none, .root rfl⟩
  obtain ⟨up, hup⟩ := hchain
  have habove := Option.mem_toList.mp (hup.above_iff.mp ha)
  have hother := Option.mem_toList.mp (hup.above_iff.mp ho)
  exact .inr (Option.mem_unique habove hother)

theorem one_per_type_of_two_states :
    twoStatesFinder.OnePerType ⟨5, 5⟩ ↔ twoStatesFinder.NoTypeTwice ⟨5, 5⟩ :=
  AdminGeoFinder.one_per_type_iff two_states_distinct two_states_types ⟨5, 5⟩

theorem two_states_returned : twoStatesFinder.DistinctIds ∧ twoStatesFinder.DistinctTypes ∧
    ¬twoStatesFinder.OnePerType ⟨5, 5⟩ := by
  refine ⟨two_states_distinct, two_states_types, ?_⟩
  rintro ⟨result, hr, htypes⟩
  obtain rfl := hr.eq_of_get two_states_get
  exact absurd htypes (by decide)

-- A city around the point whose own state lies elsewhere, in another state that does not.
def farState : List (Admin × Option Rectangle) :=
  [(district "near".toList (some .State) none, some square),
    (district "far".toList (some .State) none, some ⟨20, 30, 20, 30⟩),
    (district "city".toList (some .City) (some "far".toList), some square)]

def farStateFinder : AdminGeoFinder Rectangle Rectangle := AdminGeoFinder.fromIter farState

theorem far_state_distinct : farStateFinder.DistinctIds :=
  ⟨⟨[.fromIter farState], .refl _, rfl⟩, by decide⟩

theorem levels_kept_of_far_state :
    farStateFinder.LevelsKept ⟨25, 25⟩ ↔ farStateFinder.MarksKept ⟨25, 25⟩ :=
  AdminGeoFinder.levels_kept_iff far_state_distinct ⟨25, 25⟩

theorem far_state_located : farStateFinder.located ⟨5, 5⟩ =
    farStateFinder.rtree.filter (fun split => Envelope.containsPoint split.envelope ⟨5, 5⟩) :=
  List.mergeSort_of_pairwise (by decide)

theorem near_state_lost : farStateFinder.DistinctIds ∧ ¬farStateFinder.LevelsKept ⟨5, 5⟩ := by
  refine ⟨far_state_distinct, ?_⟩
  rintro ⟨result, hr, hkept⟩
  have hget : farStateFinder.get 5 ⟨5, 5⟩ =
      some [district "city".toList (some .City) (some "far".toList)] := by
    rw [AdminGeoFinder.get_eq_lookup, AdminGeoFinder.lookup, far_state_located]
    rfl
  obtain rfl := hr.eq_of_get hget
  obtain ⟨admin, ha, hzt⟩ := hkept ⟨square, square, district "near".toList (some .State) none⟩
    (by change _ ∈ [_, _, _]; simp) .State rfl rfl
  obtain rfl := List.mem_singleton.mp ha
  cases hzt

end Mimirsbrunn
