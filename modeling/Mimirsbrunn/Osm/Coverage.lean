import Mimirsbrunn.Osm.WayStreets

namespace Mimirsbrunn
open Regex Std

variable {G E : Type} [Geometry G E] [Envelope E] {admins_geofinder : AdminGeoFinder G E}
  {objs_map : ObjWrapper}

def Names (objs_map : ObjWrapper) (way : Way) (name : Text) : Prop :=
  way.tags.name = some name ∨
    ∃ rel ∈ objs_map.relations, MemberOf rel way ∧ rel.tags.name = some name

def Within (city : Text) (admins : List Admin) : Prop := ∃ admin ∈ admins, admin.id = city

theorem firstCity_within {admins : List Admin} {city : Text} (h : firstCity admins = some city) :
    Within city admins := by
  obtain ⟨admin, hfind, rfl⟩ := Option.map_eq_some_iff.mp h
  exact ⟨admin, List.mem_of_find?_eq_some hfind, rfl⟩

structure Located (admins_geofinder : AdminGeoFinder G E) (objs_map : ObjWrapper)
    (exclusions : StreetExclusion) (way : Way) (city : Text) : Prop where
  stored : way ∈ objs_map.ways
  valid : isValidObj exclusions (.way way) = true
  branch : ∃ all_admins, Branches admins_geofinder objs_map way all_admins ∧
    ∃ admins ∈ all_admins, firstCity admins = some city

def NoStreetLost (admins_geofinder : AdminGeoFinder G E) (objs_map : ObjWrapper)
    (exclusions : StreetExclusion) (streets : List Street) : Prop :=
  ∀ way city, Located admins_geofinder objs_map exclusions way city →
    ∃ d ∈ streets, Within city d.administrative_regions ∧ Names objs_map way d.name

inductive StandIn (admins_geofinder : AdminGeoFinder G E) (objs_map : ObjWrapper) (way : Way)
    (city : Text) : Prop where
  | relation (rel : Relation) (street : Way) (name : Text) (all_admins : List (List Admin))
      (admins : List Admin) (stored : rel ∈ objs_map.relations)
      (represents : Represents objs_map rel street name)
      (branches : Branches admins_geofinder objs_map street all_admins)
      (branch : admins ∈ all_admins) (within : Within city admins) (named : Names objs_map way name)
  | way (street : Way) (name first : Text) (admins : List Admin)
      (chosen : Chosen admins_geofinder objs_map name first street admins)
      (within : Within city admins) (named : Names objs_map way name)

theorem valid_named {exclusions : StreetExclusion} {way : Way}
    (h : isValidObj exclusions (.way way) = true) : ∃ name, way.tags.name = some name := by
  cases hn : way.tags.name with
  | some name => exact ⟨name, rfl⟩
  | none => simp [isValidObj, hn] at h

variable {exclusions : StreetExclusion} {fuel : Nat} {sort : BranchSort} {streets : List Street}
  {way : Way} {city : Text} {d : Street}

theorem outside_candidate (h : Located admins_geofinder objs_map exclusions way city)
    (hout : ¬ InRelation objs_map way) :
    ∃ name admins, Candidate admins_geofinder objs_map name city way admins := by
  obtain ⟨name, hn⟩ := valid_named h.valid
  obtain ⟨all, hall, admins, hm, hc⟩ := h.branch
  have hfirst : ∃ first, firstBranch city all = some first := by
    rw [← Option.isSome_iff_exists, firstBranch, List.find?_isSome]
    exact ⟨admins, hm, decide_eq_true hc⟩
  obtain ⟨first, hfirst⟩ := hfirst
  exact ⟨name, first, h.stored, hout, hn, all, hall, hfirst⟩

theorem StreetRun.mem_streets (run : StreetRun admins_geofinder fuel sort objs_map streets) :
    d ∈ streets ↔ (∃ rel ∈ objs_map.relations, RelationBuilds sort objs_map
      (getStreetAdmin admins_geofinder fuel objs_map) rel d) ∨
        d ∈ wayStreets sort objs_map run.groups := by
  have hout : d ∈ streets ↔ d ∈ run.pass.street_list ++ wayStreets sort objs_map run.groups :=
    iff_of_eq (congrArg (d ∈ ·) run.output)
  rw [hout, List.mem_append, relations_streets run.relations_pass]
  simp only [List.not_mem_nil, false_or, run.rels_perm.mem_iff]

theorem StreetRun.chosen_street (run : StreetRun admins_geofinder fuel sort objs_map streets)
    {name first : Text} {admins : List Admin}
    (h : Chosen admins_geofinder objs_map name first way admins) :
    ∃ d ∈ streets, d.name = name ∧ d.administrative_regions = admins := by
  obtain ⟨suffix, hd⟩ := wayStreets_complete run.merges run.groups_perm h
  exact ⟨_, run.mem_streets.mpr (.inr hd), rfl, rfl⟩

theorem StreetRun.standIn_street (run : StreetRun admins_geofinder fuel sort objs_map streets)
    (h : StandIn admins_geofinder objs_map way city) :
    ∃ d ∈ streets, Within city d.administrative_regions ∧ Names objs_map way d.name := by
  cases h with
  | relation rel street name all_admins admins stored represents branches branch within named =>
      have hrel := run.rels_perm.mem_iff.mpr stored
      obtain ⟨all, hall⟩ := relations_admins run.relations_pass hrel (relStreet_iff.mpr represents)
      obtain rfl := branches.unique ⟨fuel, hall⟩
      obtain ⟨suffix, hd⟩ := exists_mem_buildStreetsForAdmins branch
      refine ⟨_, run.mem_streets.mpr (.inl ⟨rel, stored, street, name, _,
        relStreet_iff.mpr represents, hall, hd⟩), within, named⟩
  | way street name first admins chosen within named =>
      obtain ⟨d, hd, rfl, rfl⟩ := run.chosen_street chosen
      exact ⟨d, hd, within, named⟩

theorem StreetRun.standIn_of_street (run : StreetRun admins_geofinder fuel sort objs_map streets)
    (hd : d ∈ streets) (hw : Within city d.administrative_regions)
    (hn : Names objs_map way d.name) : StandIn admins_geofinder objs_map way city := by
  rcases run.mem_streets.mp hd with ⟨rel, hrel, street, name, all, hstreet, hall, hb⟩ | hway
  · obtain ⟨admins, hm, suffix, rfl⟩ := mem_buildStreetsForAdmins hb
    exact .relation rel street name all admins hrel (relStreet_iff.mp hstreet) ⟨fuel, hall⟩ hm hw hn
  · obtain ⟨name, first, street, admins, suffix, hc, rfl⟩ :=
      wayStreets_sound run.merges run.groups_perm hway
    exact .way street name first admins hc hw hn

theorem StreetRun.noStreetLost_iff
    (run : StreetRun admins_geofinder fuel sort objs_map streets) :
    NoStreetLost admins_geofinder objs_map exclusions streets ↔
      ∀ way city, Located admins_geofinder objs_map exclusions way city →
        InRelation objs_map way → StandIn admins_geofinder objs_map way city := by
  constructor
  · intro h way city hloc _
    obtain ⟨d, hd, hw, hn⟩ := h way city hloc
    exact run.standIn_of_street hd hw hn
  · intro h way city hloc
    by_cases hin : InRelation objs_map way
    · exact run.standIn_street (h way city hloc hin)
    · obtain ⟨name, admins, hc⟩ := outside_candidate hloc hin
      obtain ⟨stored, hget⟩ := run.merges.complete hc
      obtain ⟨chosen, _, hchosen⟩ := run.merges.sound hget
      exact run.standIn_street (.way chosen name city stored.2 hchosen
        (firstCity_within hchosen.firstCity_eq) (.inl hc.named))

theorem no_street_lost_iff (admins_geofinder : AdminGeoFinder G E) (sort : BranchSort)
    (exclusions : StreetExclusion) (getObjsAndDepsStore : (OsmObj → Bool) → Except Text ObjWrapper)
    (objs_map : ObjWrapper) (hread : getObjsAndDepsStore (isValidObj exclusions) = .ok objs_map) :
    Gives admins_geofinder sort exclusions getObjsAndDepsStore
        (NoStreetLost admins_geofinder objs_map exclusions) ↔
      (∀ way, Queried objs_map way →
        ∃ all_admins, Branches admins_geofinder objs_map way all_admins) ∧
      ∀ way city, Located admins_geofinder objs_map exclusions way city →
        InRelation objs_map way → StandIn admins_geofinder objs_map way city := by
  constructor
  · intro h
    refine ⟨h.answers hread, ?_⟩
    obtain ⟨fuel, hfuel⟩ := h.returns
    obtain ⟨streets, hstreets⟩ := hfuel .stored
    obtain ⟨run⟩ := innerStreets_run hread hstreets
    exact run.noStreetLost_iff.mp (h.holds _ _ _ hstreets)
  · rintro ⟨hanswers, hstand⟩
    refine ⟨innerStreets_returns hread hanswers, fun fuel schedule streets h => ?_⟩
    obtain ⟨run⟩ := innerStreets_run hread h
    exact run.noStreetLost_iff.mpr hstand

def rueHaute : Way :=
  ⟨5, .ofList [("highway".toList, "residential".toList), ("name".toList, "Rue Haute".toList)], [1]⟩

def rueHauteRelation (role : Text) : Relation :=
  ⟨9, .ofList [("type".toList, "associatedStreet".toList)], [⟨.way 5, role⟩]⟩

def rueHauteStore (role : Text) : ObjWrapper :=
  ⟨[.node ⟨1, ∅, 506300000, 30600000⟩, .way rueHaute, .relation (rueHauteRelation role)],
    by simp [OsmObj.id]⟩

theorem rueHauteStore_ways {role : Text} : way ∈ (rueHauteStore role).ways ↔ way = rueHaute := by
  simp [ObjWrapper.mem_ways, rueHauteStore]

theorem rueHaute_name : rueHaute.tags.name = some "Rue Haute".toList := by
  decide +kernel

theorem rueHaute_located (role : Text) :
    Located lilleFinder (rueHauteStore role) ⟨none, none⟩ rueHaute lille.id where
  stored := rueHauteStore_ways.mpr rfl
  valid := by decide +kernel
  branch := by
    have hbranch : (getStreetAdmin lilleFinder 1 (rueHauteStore []) rueHaute).any
        (fun all_admins =>
          all_admins.any (fun admins => firstCity admins = some lille.id)) = true := by
      decide +kernel
    obtain ⟨all_admins, hall, hany⟩ := (Option.any_eq_true _ _).mp hbranch
    obtain ⟨admins, hm, hcity⟩ := List.any_eq_true.mp hany
    have hrole : getStreetAdmin lilleFinder 1 (rueHauteStore role) rueHaute =
        getStreetAdmin lilleFinder 1 (rueHauteStore []) rueHaute := rfl
    exact ⟨all_admins, ⟨1, hrole.trans hall⟩, admins, hm, of_decide_eq_true hcity⟩

theorem rueHaute_represents :
    Represents (rueHauteStore "street".toList) (rueHauteRelation "street".toList) rueHaute
      "Rue Haute".toList := by
  refine ⟨[], _, [], rfl, ⟨rfl, rfl, rueHauteStore_ways.mpr rfl, ?_⟩, by simp⟩
  decide +kernel

theorem street_member_kept :
    ∃ fuel, ∀ schedule, ∃ streets, innerStreets lilleFinder fuel schedule branchSort ⟨none, none⟩
      (fun _ => .ok (rueHauteStore "street".toList)) = some (.ok streets) ∧
      ∃ d ∈ streets, Within lille.id d.administrative_regions ∧
        Names (rueHauteStore "street".toList) rueHaute d.name := by
  obtain ⟨hreturns, hkept⟩ := (no_street_lost_iff lilleFinder branchSort ⟨none, none⟩
      (fun _ => .ok (rueHauteStore "street".toList)) (rueHauteStore "street".toList) rfl).mpr (by
    refine ⟨fun way hq => ?_, fun way city hloc _ => ?_⟩
    · obtain rfl := rueHauteStore_ways.mp hq.mem_ways
      obtain ⟨all, hall, _⟩ := (rueHaute_located "street".toList).branch
      exact ⟨all, hall⟩
    · obtain rfl := rueHauteStore_ways.mp hloc.stored
      obtain ⟨all, hall, admins, hm, hcity⟩ := hloc.branch
      exact .relation (rueHauteRelation "street".toList) rueHaute "Rue Haute".toList all admins
        (ObjWrapper.mem_relations.mpr (by simp [rueHauteStore])) rueHaute_represents hall hm
        (firstCity_within hcity) (.inl rueHaute_name))
  obtain ⟨fuel, hfuel⟩ := hreturns
  refine ⟨fuel, fun schedule => ?_⟩
  obtain ⟨streets, hrun⟩ := hfuel schedule
  exact ⟨streets, hrun, hkept fuel schedule streets hrun _ _ (rueHaute_located _)⟩

-- A member without the role `street` is taken out of the way pass and given to no relation.
theorem roleless_member_lost :
    innerStreets lilleFinder 1 .stored branchSort ⟨none, none⟩
      (fun _ => .ok (rueHauteStore [])) = some (.ok []) ∧
    ¬ Gives lilleFinder branchSort ⟨none, none⟩ (fun _ => .ok (rueHauteStore []))
      (NoStreetLost lilleFinder (rueHauteStore []) ⟨none, none⟩) := by
  have hrun : innerStreets lilleFinder 1 .stored branchSort ⟨none, none⟩
      (fun _ => .ok (rueHauteStore [])) = some (.ok []) := by
    have hempty : (innerStreets lilleFinder 1 .stored branchSort ⟨none, none⟩
        (fun _ => .ok (rueHauteStore []))).any (fun r => r.toOption.any List.isEmpty) = true := by
      decide +kernel
    obtain ⟨result, hrun, hempty⟩ := (Option.any_eq_true _ _).mp hempty
    cases result with
    | error => cases hempty
    | ok streets => rw [hrun, List.isEmpty_iff.mp hempty]
  refine ⟨hrun, fun h => ?_⟩
  obtain ⟨d, hd, _⟩ := h.holds 1 .stored [] hrun rueHaute lille.id (rueHaute_located [])
  cases hd

end Mimirsbrunn
