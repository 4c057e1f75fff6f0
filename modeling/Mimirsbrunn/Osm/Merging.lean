import Mimirsbrunn.Library.Least
import Mimirsbrunn.Osm.Relations

namespace Mimirsbrunn
open Regex Std

-- A store is merged per name and first city: the smallest way that no relation takes stands for
-- all of them.
section Candidates

variable {G E : Type} [Geometry G E] [Envelope E]

def firstBranch (city : Text) (all_admins : List (List Admin)) : Option (List Admin) :=
  all_admins.find? (fun admins => firstCity admins = some city)

structure Candidate (admins_geofinder : AdminGeoFinder G E) (objs_map : ObjWrapper)
    (name city : Text) (way : Way) (admins : List Admin) : Prop where
  stored : way ∈ objs_map.ways
  outside : ¬ InRelation objs_map way
  named : way.tags.name = some name
  branch : ∃ all_admins, Branches admins_geofinder objs_map way all_admins ∧
    firstBranch city all_admins = some admins

structure Chosen (admins_geofinder : AdminGeoFinder G E) (objs_map : ObjWrapper)
    (name city : Text) (way : Way) (admins : List Admin) : Prop extends
    Candidate admins_geofinder objs_map name city way admins where
  smallest : ∀ way' admins', Candidate admins_geofinder objs_map name city way' admins' →
    way.id ≤ way'.id

theorem firstBranch_city {city : Text} {all_admins : List (List Admin)} {admins : List Admin}
    (h : firstBranch city all_admins = some admins) : firstCity admins = some city := by
  simpa using List.find?_some h

end Candidates

section Merge

variable {name city : Text} {osmid : OsmId} {name_admin_map : NameAdminMap}

theorem getElem?_insert {key : Text × Text} (v : OsmId × List Admin) :
    (name_admin_map.insert key v)[(name, city)]? =
      if key = (name, city) then some v else name_admin_map[(name, city)]? := by
  rw [TreeMap.getElem?_insert]
  simp only [Std.compare_eq_iff_eq]

theorem mergeBranch_get (way_name : Text) (admins : List Admin) :
    (mergeBranch way_name osmid name_admin_map admins)[(name, city)]? =
      Least.keep name_admin_map[(name, city)]?
        (if way_name = name ∧ firstCity admins = some city then some (osmid, admins) else none) := by
  rw [mergeBranch]
  cases hc : firstCity admins with
  | none => simp [Least.keep_none]
  | some c =>
      dsimp only
      by_cases hk : (way_name, c) = (name, city)
      · obtain ⟨rfl, rfl⟩ := Prod.mk.inj hk
        cases hs : name_admin_map[(way_name, c)]? with
        | none => simp [Least.keep]
        | some stored =>
            simp only [Least.keep, and_self, if_true]
            split
            · rw [getElem?_insert, if_pos rfl]
            · exact hs
      · have hne : ¬ (way_name = name ∧ some c = some city) := by
          rintro ⟨rfl, h⟩
          exact hk (by rw [Option.some.inj h])
        rw [if_neg hne, Least.keep_none]
        cases name_admin_map[(way_name, c)]? with
        | none => simp only [getElem?_insert, if_neg hk]
        | some stored =>
            simp only
            split
            · rw [getElem?_insert, if_neg hk]
            · rfl

theorem mergeBranches_get (way_name : Text) (all_admins : List (List Admin)) :
    (all_admins.foldl (mergeBranch way_name osmid) name_admin_map)[(name, city)]? =
      Least.keep name_admin_map[(name, city)]?
        (if way_name = name then (firstBranch city all_admins).map (osmid, ·) else none) := by
  induction all_admins generalizing name_admin_map with
  | nil => simp [firstBranch, Least.keep_none]
  | cons admins all_admins ih =>
      rw [List.foldl_cons, ih, mergeBranch_get]
      by_cases hn : way_name = name
      · by_cases hc : firstCity admins = some city
        · rw [if_pos ⟨hn, hc⟩, if_pos hn, if_pos hn, firstBranch, firstBranch,
            List.find?_cons_of_pos (by simpa using hc)]
          cases all_admins.find? (fun admins => firstCity admins = some city) with
          | none => exact Least.keep_none _
          | some admins' => exact Least.keep_again _ _ _ _
        · rw [if_neg (fun h => hc h.2), Least.keep_none, firstBranch, firstBranch,
            List.find?_cons_of_neg (by simpa using hc)]
      · rw [if_neg (fun h => hn h.1), if_neg hn, if_neg hn, Least.keep_none]

end Merge

section Passes

variable {street_in_relation : List OsmId} {admins : Way → Option (List (List Admin))}
  {name_admin_map merged : NameAdminMap} {way : Way} {ways : List Way} {name city : Text}

def offer (street_in_relation : List OsmId) (admins : Way → Option (List (List Admin)))
    (name city : Text) (way : Way) : Option (OsmId × List Admin) :=
  if .way way.id ∉ street_in_relation ∧ way.tags.name = some name then
    (admins way).bind (fun all_admins => (firstBranch city all_admins).map (.way way.id, ·))
  else none

theorem offer_eq_some {x : OsmId × List Admin} :
    offer street_in_relation admins name city way = some x ↔
      .way way.id ∉ street_in_relation ∧ way.tags.name = some name ∧ x.1 = .way way.id ∧
        ∃ all_admins, admins way = some all_admins ∧ firstBranch city all_admins = some x.2 := by
  obtain ⟨id, branch⟩ := x
  rw [offer]
  split
  · next h =>
    simp only [Option.bind_eq_some_iff, Option.map_eq_some_iff, Prod.mk.injEq, h, not_false_eq_true,
      true_and]
    constructor
    · rintro ⟨all, hall, b, hb, rfl, rfl⟩
      exact ⟨rfl, all, hall, hb⟩
    · rintro ⟨rfl, all, hall, hb⟩
      exact ⟨all, hall, _, hb, rfl, rfl⟩
  · next h =>
    constructor
    · intro hx
      cases hx
    · rintro ⟨hs, hn, _⟩
      exact absurd ⟨hs, hn⟩ h

theorem mergeWay_get (h : mergeWay street_in_relation admins name_admin_map way = some merged) :
    merged[(name, city)]? = Least.keep name_admin_map[(name, city)]?
      (offer street_in_relation admins name city way) := by
  rw [mergeWay] at h
  rw [offer]
  split at h
  · next hs =>
    obtain rfl := Option.some.inj h
    rw [if_neg (fun hc => hc.1 hs), Least.keep_none]
  · next hs =>
    split at h
    · next way_name hn =>
      obtain ⟨all, hall, rfl⟩ := Option.map_eq_some_iff.mp h
      rw [mergeBranches_get, hall, hn, Option.bind_some]
      by_cases hname : way_name = name
      · rw [if_pos hname, if_pos ⟨hs, congrArg some hname⟩]
      · rw [if_neg hname, if_neg (fun hc => hname (Option.some.inj hc.2))]
    · next hn =>
      obtain rfl := Option.some.inj h
      rw [hn, if_neg (by simp), Least.keep_none]

theorem mergeWays_get
    (h : ways.foldlM (mergeWay street_in_relation admins) name_admin_map = some merged) :
    merged[(name, city)]? = (ways.map (offer street_in_relation admins name city)).foldl
      Least.keep name_admin_map[(name, city)]? :=
  Loop.view (f := fun name_admin_map : NameAdminMap => name_admin_map[(name, city)]?)
    (fun _ _ _ hstep => mergeWay_get hstep) h

theorem mergeWays_admins
    (h : ways.foldlM (mergeWay street_in_relation admins) name_admin_map = some merged)
    (hm : way ∈ ways) (hs : .way way.id ∉ street_in_relation) (hn : way.tags.name = some name) :
    ∃ all_admins, admins way = some all_admins := by
  obtain ⟨_, _, hstep⟩ := Loop.step_of_mem h hm
  rw [mergeWay, if_neg hs, hn] at hstep
  obtain ⟨all, hall, _⟩ := Option.map_eq_some_iff.mp hstep
  exact ⟨all, hall⟩

theorem mergeWays_returns (hdef : ∀ way ∈ ways, .way way.id ∉ street_in_relation →
      ∀ name, way.tags.name = some name → ∃ all_admins, admins way = some all_admins) :
    ∃ merged, ways.foldlM (mergeWay street_in_relation admins) name_admin_map = some merged := by
  refine Loop.returns (fun name_admin_map way hm => ?_)
  rw [mergeWay]
  split
  · exact ⟨_, rfl⟩
  · next hs =>
    split
    · next name hn =>
      obtain ⟨all, hall⟩ := hdef way hm hs name hn
      rw [hall]
      exact ⟨_, rfl⟩
    · exact ⟨_, rfl⟩

variable {G E : Type} [Geometry G E] [Envelope E] {admins_geofinder : AdminGeoFinder G E}
  {objs_map : ObjWrapper} {fuel : Nat}

theorem mem_offers (hperm : ways.Perm objs_map.ways)
    (hs : ∀ way, .way way.id ∈ street_in_relation ↔ InRelation objs_map way)
    (h : ways.foldlM (mergeWay street_in_relation (getStreetAdmin admins_geofinder fuel objs_map)) ∅ =
      some merged) {x : OsmId × List Admin} :
    some x ∈ ways.map (offer street_in_relation (getStreetAdmin admins_geofinder fuel objs_map)
      name city) ↔
      ∃ way, x.1 = .way way.id ∧ Candidate admins_geofinder objs_map name city way x.2 := by
  rw [List.mem_map]
  constructor
  · rintro ⟨way, hm, ho⟩
    obtain ⟨hout, hn, hid, all, hall, hb⟩ := offer_eq_some.mp ho
    exact ⟨way, hid, hperm.mem_iff.mp hm, fun hr => hout ((hs way).mpr hr), hn, all,
      ⟨fuel, hall⟩, hb⟩
  · rintro ⟨way, hid, hw, hout, hn, all, ⟨fuel', hall⟩, hb⟩
    have hm := hperm.mem_iff.mpr hw
    have hnot : OsmId.way way.id ∉ street_in_relation := fun hc => hout ((hs way).mp hc)
    obtain ⟨all', hall'⟩ := mergeWays_admins h hm hnot hn
    obtain rfl := getStreetAdmin_unique hall hall'
    exact ⟨way, hm, offer_eq_some.mpr ⟨hnot, hn, hid, all, hall', hb⟩⟩

theorem offers_unique (hperm : ways.Perm objs_map.ways) {x y : OsmId × List Admin}
    (hx : some x ∈ ways.map (offer street_in_relation admins name city))
    (hy : some y ∈ ways.map (offer street_in_relation admins name city)) (hid : x.1 = y.1) :
    x = y := by
  obtain ⟨v, hv, hox⟩ := List.mem_map.mp hx
  obtain ⟨w, hw, hoy⟩ := List.mem_map.mp hy
  have hvw : OsmId.way v.id = .way w.id :=
    (offer_eq_some.mp hox).2.2.1.symm.trans (hid.trans (offer_eq_some.mp hoy).2.2.1)
  obtain rfl := ObjWrapper.ways_ext (hperm.mem_iff.mp hv) (hperm.mem_iff.mp hw)
    (OsmId.way.inj hvw)
  exact Option.some.inj (hox.symm.trans hoy)

theorem merged_eq (h : ways.foldlM (mergeWay street_in_relation admins) ∅ = some merged) :
    merged[(name, city)]? =
      (ways.map (offer street_in_relation admins name city)).foldl Least.keep none := by
  rw [mergeWays_get h, TreeMap.getElem?_emptyc]

structure Merged (admins_geofinder : AdminGeoFinder G E) (objs_map : ObjWrapper)
    (name_admin_map : NameAdminMap) : Prop where
  sound : ∀ {name city id branch}, name_admin_map[(name, city)]? = some (id, branch) →
    ∃ way, id = .way way.id ∧ Chosen admins_geofinder objs_map name city way branch
  complete : ∀ {name city way branch}, Candidate admins_geofinder objs_map name city way branch →
    ∃ stored, name_admin_map[(name, city)]? = some stored

theorem mergeWays_merged (hperm : ways.Perm objs_map.ways)
    (hs : ∀ way, .way way.id ∈ street_in_relation ↔ InRelation objs_map way)
    (h : ways.foldlM (mergeWay street_in_relation (getStreetAdmin admins_geofinder fuel objs_map)) ∅ =
      some merged) : Merged admins_geofinder objs_map merged where
  sound := by
    intro name city id branch hget
    rw [merged_eq h, Least.foldl_keep_iff (fun _ _ => offers_unique hperm)] at hget
    obtain ⟨hmem, hmin⟩ := hget
    obtain ⟨way, hid, hc⟩ := (mem_offers hperm hs h).mp hmem
    refine ⟨way, hid, hc, fun way' admins' hc' => ?_⟩
    have hle := hmin (.way way'.id, admins') ((mem_offers hperm hs h).mpr ⟨way', rfl, hc'⟩)
    rw [hid] at hle
    exact OsmId.way_le.mp hle
  complete := by
    intro name city way branch hc
    have hmem : some (.way way.id, branch) ∈ ways.map (offer street_in_relation
        (getStreetAdmin admins_geofinder fuel objs_map) name city) :=
      (mem_offers hperm hs h).mpr ⟨way, rfl, hc⟩
    obtain ⟨stored, hstored, _⟩ := Least.foldl_keep_le (.inr hmem)
    exact ⟨stored, (merged_eq h).trans hstored⟩

theorem Chosen.unique {way way' : Way} {branch branch' : List Admin}
    (h : Chosen admins_geofinder objs_map name city way branch)
    (h' : Chosen admins_geofinder objs_map name city way' branch') :
    way = way' ∧ branch = branch' := by
  have hid : way.id = way'.id :=
    Int.le_antisymm (h.smallest _ _ h'.toCandidate) (h'.smallest _ _ h.toCandidate)
  obtain rfl := ObjWrapper.ways_ext h.stored h'.stored hid
  obtain ⟨all, hall, hb⟩ := h.branch
  obtain ⟨all', hall', hb'⟩ := h'.branch
  obtain rfl := hall.unique hall'
  exact ⟨rfl, Option.some.inj (hb.symm.trans hb')⟩

theorem Chosen.firstCity_eq {branch : List Admin}
    (h : Chosen admins_geofinder objs_map name city way branch) : firstCity branch = some city := by
  obtain ⟨all, _, hb⟩ := h.branch
  exact firstBranch_city hb

theorem Merged.get (hm : Merged admins_geofinder objs_map merged) {branch : List Admin}
    (h : Chosen admins_geofinder objs_map name city way branch) :
    merged[(name, city)]? = some (.way way.id, branch) := by
  obtain ⟨⟨id, branch'⟩, hget⟩ := hm.complete h.toCandidate
  obtain ⟨way', rfl, h'⟩ := hm.sound hget
  obtain ⟨rfl, rfl⟩ := h.unique h'
  exact hget

theorem Merged.equiv {merged' : NameAdminMap} (hm : Merged admins_geofinder objs_map merged)
    (hm' : Merged admins_geofinder objs_map merged') : merged.toList = merged'.toList := by
  refine TreeMap.equiv_iff_toList_eq.mp (.of_forall_constGet?_eq ?_)
  rintro ⟨name, city⟩
  change merged[(name, city)]? = merged'[(name, city)]?
  cases hget : merged[(name, city)]? with
  | some stored =>
      obtain ⟨way, hid, hc⟩ := hm.sound hget
      rw [hm'.get hc, ← hid]
  | none =>
      cases hget' : merged'[(name, city)]? with
      | none => rfl
      | some stored =>
          obtain ⟨way, _, hc⟩ := hm'.sound hget'
          rw [hm.get hc] at hget
          cases hget

end Passes

end Mimirsbrunn
