import Mimirsbrunn.Library.Numeral
import Mimirsbrunn.Osm.WayStreets

namespace Mimirsbrunn
open Regex Std

section DocIds

def suffixText : Option Nat → Text
  | none => []
  | some i => '-' :: Nat.toDigits 10 i

theorem digits_suffix_injective {n m : Nat} {s t : Option Nat}
    (h : Nat.toDigits 10 n ++ suffixText s = Nat.toDigits 10 m ++ suffixText t) :
    n = m ∧ s = t := by
  have hn := Numeral.separator_notMem_toDigits (c := '-') rfl n
  have hm := Numeral.separator_notMem_toDigits (c := '-') rfl m
  cases s with
  | none =>
      cases t with
      | none => exact ⟨Numeral.toDigits_injective (by simpa [suffixText] using h), rfl⟩
      | some j => exact absurd h.symm (Numeral.split_absent (by simpa [suffixText] using hn))
  | some i =>
      cases t with
      | none => exact absurd h (Numeral.split_absent (by simpa [suffixText] using hm))
      | some j =>
          obtain ⟨hnum, hsuf⟩ := Numeral.split_at hn hm h
          exact ⟨Numeral.toDigits_injective hnum, congrArg some (Numeral.toDigits_injective hsuf)⟩

theorem showInt_suffix_injective {a b : Int} {s t : Option Nat}
    (h : showInt a ++ suffixText s = showInt b ++ suffixText t) : a = b ∧ s = t := by
  cases a with
  | ofNat n =>
      cases b with
      | ofNat m =>
          obtain ⟨rfl, hs⟩ := digits_suffix_injective h
          exact ⟨rfl, hs⟩
      | negSucc m => exact absurd h.symm (Numeral.cons_ne_toDigits rfl n _ _)
  | negSucc n =>
      cases b with
      | ofNat m => exact absurd h (Numeral.cons_ne_toDigits rfl m _ _)
      | negSucc m =>
          obtain ⟨hnum, hs⟩ := digits_suffix_injective (List.cons.inj h).2
          exact ⟨congrArg Int.negSucc (Nat.succ.inj hnum), hs⟩

theorem docId_eq (kind : Text) (id : Int) (suffix : Option Nat) :
    docId kind id suffix =
      "street:osm:".toList ++ (kind ++ ':' :: (showInt id ++ suffixText suffix)) := by
  have hcolon (xs : Text) : ":".toList ++ xs = ':' :: xs := rfl
  have hdash (i : Nat) : "-".toList ++ showInt i = '-' :: Nat.toDigits 10 i := rfl
  cases suffix with
  | none =>
      have hdoc : docId kind id none =
          "street:osm:".toList ++ kind ++ ":".toList ++ showInt id := rfl
      rw [hdoc, suffixText, List.append_assoc, List.append_assoc, hcolon, List.append_nil]
  | some i =>
      have hdoc : docId kind id (some i) = "street:osm:".toList ++ kind ++ ":".toList ++
          showInt id ++ "-".toList ++ showInt i := rfl
      rw [hdoc, suffixText]
      simp only [List.append_assoc, List.cons_append, hcolon, hdash]

theorem docId_injective {kind kind' : Text} {id id' : Int} {suffix suffix' : Option Nat}
    (hk : ':' ∉ kind) (hk' : ':' ∉ kind')
    (h : docId kind id suffix = docId kind' id' suffix') :
    kind = kind' ∧ id = id' ∧ suffix = suffix' := by
  rw [docId_eq, docId_eq, List.append_cancel_left_eq] at h
  obtain ⟨hkind, hrest⟩ := Numeral.split_at hk hk' h
  exact ⟨hkind, showInt_suffix_injective hrest⟩

variable {sort : BranchSort} {name kind : Text} {osm_id : Int} {all_admins : List (List Admin)}
  {coord : Coord}

theorem buildStreetsForAdmins_nodup (hk : ':' ∉ kind) :
    ((buildStreetsForAdmins sort name osm_id kind all_admins coord).map Street.id).Nodup := by
  have hlen : (sort.run all_admins).length = all_admins.length := (sort.perm all_admins).length_eq
  rw [List.nodup_iff_pairwise_ne, List.pairwise_map, List.pairwise_iff_getElem]
  intro i j hi hj hlt heq
  simp only [buildStreetsForAdmins, List.length_mapIdx] at hi hj
  simp only [buildStreetsForAdmins, List.getElem_mapIdx, buildStreet] at heq
  obtain ⟨_, _, hsuffix⟩ := docId_injective hk hk heq
  split at hsuffix
  · next hsingle =>
    have hone : all_admins.length ≤ 1 := of_decide_eq_true hsingle
    omega
  · have hij := Option.some.inj hsuffix
    omega

theorem buildStreetsForAdmins_ids (h : 1 < all_admins.length) :
    (buildStreetsForAdmins sort name osm_id kind all_admins coord).map Street.id =
      (List.range all_admins.length).map (fun i => docId kind osm_id (some i)) := by
  have hlen : (sort.run all_admins).length = all_admins.length := (sort.perm all_admins).length_eq
  refine List.ext_getElem (by simp [buildStreetsForAdmins, hlen]) (fun i hi hi' => ?_)
  simp only [buildStreetsForAdmins, List.getElem_map, List.getElem_mapIdx, buildStreet,
    List.getElem_range, Nat.not_le.mpr h, decide_false, Bool.false_eq_true, if_false]

theorem buildStreetsForAdmins_id {d : Street}
    (h : d ∈ buildStreetsForAdmins sort name osm_id kind all_admins coord) :
    ∃ suffix, d.id = docId kind osm_id suffix := by
  obtain ⟨_, _, suffix, rfl⟩ := mem_buildStreetsForAdmins h
  exact ⟨suffix, rfl⟩

end DocIds

variable {G E : Type} [Geometry G E] [Envelope E] {admins_geofinder : AdminGeoFinder G E}
  {objs_map : ObjWrapper} {sort : BranchSort} {fuel : Nat} {streets : List Street}

def relationStreets (sort : BranchSort) (objs_map : ObjWrapper)
    (admins : Way → Option (List (List Admin))) (rel : Relation) : List Street :=
  ((relStreet objs_map rel).bind (fun s => (admins s.1).map (fun all_admins =>
    buildStreetsForAdmins sort s.2 rel.id "relation".toList all_admins
      (getWayCoord objs_map s.1)))).getD []

section Relations

variable {admins : Way → Option (List (List Admin))} {pass pass' : RelationPass} {rel : Relation}
  {rels : List Relation}

theorem relationStep_list (h : relationStep sort objs_map admins pass rel = some pass') :
    pass'.street_list = pass.street_list ++ relationStreets sort objs_map admins rel := by
  simp only [relationStep] at h
  split at h
  · next way name hrel =>
    obtain ⟨all, hall, rfl⟩ := Option.map_eq_some_iff.mp h
    simp only [relationStreets, hrel, hall, Option.bind_some, Option.map_some, Option.getD_some]
  · next hrel =>
    obtain rfl := Option.some.inj h
    simp only [relationStreets, hrel, Option.bind_none, Option.getD_none, List.append_nil]

theorem relations_list (h : rels.foldlM (relationStep sort objs_map admins) pass = some pass') :
    pass'.street_list = pass.street_list ++ rels.flatMap (relationStreets sort objs_map admins) := by
  induction rels generalizing pass with
  | nil =>
      obtain rfl := Option.some.inj h
      simp
  | cons rel rels ih =>
      obtain ⟨next, hnext, hrest⟩ := Loop.cons_iff.mp h
      rw [ih hrest, relationStep_list hnext, List.flatMap_cons, List.append_assoc]

theorem relationStreets_nodup :
    ((relationStreets sort objs_map admins rel).map Street.id).Nodup := by
  rw [relationStreets]
  cases hb : (relStreet objs_map rel).bind _ with
  | none => exact List.nodup_nil
  | some docs =>
      obtain ⟨street, _, hdocs⟩ := Option.bind_eq_some_iff.mp hb
      obtain ⟨all, _, rfl⟩ := Option.map_eq_some_iff.mp hdocs
      exact buildStreetsForAdmins_nodup (by decide)

theorem relationStreets_id {d : Street} (h : d ∈ relationStreets sort objs_map admins rel) :
    ∃ suffix, d.id = docId "relation".toList rel.id suffix := by
  rw [relationStreets] at h
  cases hb : (relStreet objs_map rel).bind _ with
  | none =>
      rw [hb] at h
      cases h
  | some docs =>
      rw [hb] at h
      obtain ⟨street, _, hdocs⟩ := Option.bind_eq_some_iff.mp hb
      obtain ⟨all, _, rfl⟩ := Option.map_eq_some_iff.mp hdocs
      exact buildStreetsForAdmins_id h

end Relations

theorem wayStreet_some {id : OsmId} {all_admins : List (List Admin)} {docs : List Street}
    (h : wayStreet sort objs_map id all_admins = some docs) :
    ∃ way name, id = .way way.id ∧ docs = buildStreetsForAdmins sort name way.id "way".toList
      all_admins (getWayCoord objs_map way) := by
  simp only [wayStreet, Option.bind_eq_bind, Option.bind_eq_some_iff] at h
  obtain ⟨obj, hobj, way, hway, name, _, hdocs⟩ := h
  obtain rfl := Option.some.inj hdocs
  refine ⟨way, name, ?_, rfl⟩
  rw [← (ObjWrapper.get_eq_some.mp hobj).2, OsmObj.id_of_asWay hway]

theorem wayStreet_nodup (id : OsmId) (all_admins : List (List Admin)) :
    (((wayStreet sort objs_map id all_admins).getD []).map Street.id).Nodup := by
  cases hs : wayStreet sort objs_map id all_admins with
  | none => exact List.nodup_nil
  | some docs =>
      obtain ⟨way, name, _, rfl⟩ := wayStreet_some hs
      exact buildStreetsForAdmins_nodup (by decide)

theorem wayStreet_id {id : OsmId} {all_admins : List (List Admin)} {d : Street}
    (h : d ∈ (wayStreet sort objs_map id all_admins).getD []) :
    ∃ way_id suffix, id = .way way_id ∧ d.id = docId "way".toList way_id suffix := by
  cases hs : wayStreet sort objs_map id all_admins with
  | none =>
      rw [hs] at h
      cases h
  | some docs =>
      rw [hs] at h
      obtain ⟨way, name, rfl, rfl⟩ := wayStreet_some hs
      obtain ⟨suffix, hd⟩ := buildStreetsForAdmins_id h
      exact ⟨way.id, suffix, rfl, hd⟩

theorem relation_ids_nodup (m : ObjWrapper) : (m.relations.map Relation.id).Nodup := by
  have hrels : m.relations.Pairwise (fun r r' => r.id ≠ r'.id) := by
    have hobjs := List.pairwise_map.mp (List.nodup_iff_pairwise_ne.mp m.nodup)
    refine List.Pairwise.filterMap _ ?_ hobjs
    intro obj obj' hne r hr r' hr' heq
    apply hne
    rw [OsmObj.id_of_asRelation hr, OsmObj.id_of_asRelation hr', heq]
  exact List.nodup_iff_pairwise_ne.mpr (List.pairwise_map.mpr hrels)

theorem StreetRun.relation_list_nodup
    (run : StreetRun admins_geofinder fuel sort objs_map streets) :
    (run.pass.street_list.map Street.id).Nodup := by
  rw [relations_list run.relations_pass, List.nil_append]
  refine Grouping.nodup_blocks Relation.id ?_ (fun _ _ => relationStreets_nodup) ?_
  · rw [(run.rels_perm.map Relation.id).nodup_iff]
    exact relation_ids_nodup objs_map
  · intro rel _ rel' _ d hd d' hd' heq
    obtain ⟨suffix, hid⟩ := relationStreets_id hd
    obtain ⟨suffix', hid'⟩ := relationStreets_id hd'
    rw [hid, hid'] at heq
    exact (docId_injective (by decide) (by decide) heq).2.1

theorem StreetRun.way_list_nodup
    (run : StreetRun admins_geofinder fuel sort objs_map streets) :
    ((wayStreets sort objs_map run.groups).map Street.id).Nodup := by
  rw [wayStreets_flatMap]
  refine Grouping.nodup_blocks Prod.fst ?_ (fun e _ => wayStreet_nodup e.1 e.2) ?_
  · rw [(run.groups_perm.map Prod.fst).nodup_iff]
    exact Grouping.keys_group _
  · intro e _ e' _ d hd d' hd' heq
    obtain ⟨way_id, suffix, he, hid⟩ := wayStreet_id hd
    obtain ⟨way_id', suffix', he', hid'⟩ := wayStreet_id hd'
    rw [hid, hid'] at heq
    rw [he, he', (docId_injective (by decide) (by decide) heq).2.1]

theorem StreetRun.ids_nodup (run : StreetRun admins_geofinder fuel sort objs_map streets) :
    (streets.map Street.id).Nodup := by
  have hout : streets.map Street.id = run.pass.street_list.map Street.id ++
      (wayStreets sort objs_map run.groups).map Street.id :=
    (congrArg (List.map Street.id) run.output).trans List.map_append
  rw [hout, List.nodup_append]
  refine ⟨run.relation_list_nodup, run.way_list_nodup, ?_⟩
  intro id hid id' hid' heq
  obtain ⟨d, hd, rfl⟩ := List.mem_map.mp hid
  obtain ⟨d', hd', rfl⟩ := List.mem_map.mp hid'
  rw [relations_list run.relations_pass, List.nil_append] at hd
  obtain ⟨rel, _, hd⟩ := List.mem_flatMap.mp hd
  rw [wayStreets_flatMap] at hd'
  obtain ⟨e, _, hd'⟩ := List.mem_flatMap.mp hd'
  obtain ⟨suffix, hid⟩ := relationStreets_id hd
  obtain ⟨way_id, suffix', _, hid'⟩ := wayStreet_id hd'
  rw [hid, hid'] at heq
  exact absurd (docId_injective (by decide) (by decide) heq).1 (by decide)

theorem street_ids_unique (admins_geofinder : AdminGeoFinder G E) (sort : BranchSort)
    (exclusions : StreetExclusion) (getObjsAndDepsStore : (OsmObj → Bool) → Except Text ObjWrapper)
    (objs_map : ObjWrapper) (hread : getObjsAndDepsStore (isValidObj exclusions) = .ok objs_map) :
    ((∀ way ∈ objs_map.ways, ∃ all, Branches admins_geofinder objs_map way all) →
      ∃ fuel, ∀ schedule, ∃ streets, innerStreets admins_geofinder fuel schedule sort exclusions
        getObjsAndDepsStore = some (.ok streets)) ∧
    ∀ fuel schedule streets, innerStreets admins_geofinder fuel schedule sort exclusions
        getObjsAndDepsStore = some (.ok streets) → (streets.map Street.id).Nodup := by
  refine ⟨fun hall => innerStreets_returns hread (fun way hq => hall way hq.mem_ways),
    fun fuel schedule streets h => ?_⟩
  obtain ⟨run⟩ := innerStreets_run hread h
  exact run.ids_nodup

def twinFinder : AdminGeoFinder Rectangle Rectangle :=
  lilleFinder.insert { lille with id := "admin:osm:relation:58405".toList, name := "Lomme".toList }
    (some ⟨29000000, 32000000, 505000000, 507000000⟩)

def twinRelation : Relation :=
  ⟨9, .ofList [("type".toList, "associatedStreet".toList)], [⟨.way 7, "street".toList⟩]⟩

def twinStore : ObjWrapper :=
  ⟨[.node ⟨1, ∅, 506300000, 30600000⟩, .way (splitWay 7), .way (splitWay 5),
    .relation twinRelation], by simp [OsmObj.id, splitWay]⟩

def twinBranches : List (List Admin) :=
  [[{ lille with id := "admin:osm:relation:58405".toList, name := "Lomme".toList }], [lille]]

theorem twin_found : twinFinder.getAdminsIf 1 ⟨30600000, 506300000⟩ upToCity = some twinBranches := by
  have hcand : twinFinder.candidates ⟨30600000, 506300000⟩ upToCity = twinFinder.rtree :=
    List.mergeSort_of_pairwise (by decide)
  rw [AdminGeoFinder.getAdminsIf, hcand]
  rfl

theorem twin_admins (id : Int) :
    getStreetAdmin twinFinder 1 twinStore (splitWay id) = some twinBranches := by
  have hnode : streetNode twinStore (splitWay id) = some ⟨1, ∅, 506300000, 30600000⟩ := by
    simp only [streetNode, nodesRight, nodesLeft, splitWay]
    rfl
  rw [getStreetAdmin_of_node 1 hnode]
  exact twin_found

theorem twinStore_ways {way : Way} :
    way ∈ twinStore.ways ↔ way = splitWay 7 ∨ way = splitWay 5 := by
  simp [ObjWrapper.mem_ways, twinStore]

theorem twinStore_branches :
    ∀ way ∈ twinStore.ways, ∃ all_admins, Branches twinFinder twinStore way all_admins := by
  intro way hm
  rcases twinStore_ways.mp hm with rfl | rfl
  · exact ⟨_, 1, twin_admins 7⟩
  · exact ⟨_, 1, twin_admins 5⟩

theorem twin_relation_pass : ∃ docs,
    relationStep branchSort twinStore (getStreetAdmin twinFinder 1 twinStore) ⟨[], []⟩ twinRelation =
      some ⟨[.way 7], docs⟩ ∧
    docs.map Street.id = ["street:osm:relation:9-0".toList, "street:osm:relation:9-1".toList] := by
  have hstreet : relStreet twinStore twinRelation = some (splitWay 7, "Rue Basse".toList) := by
    refine relStreet_iff.mpr ⟨[], _, [], rfl, ⟨rfl, rfl, twinStore_ways.mpr (.inl rfl), ?_⟩, by simp⟩
    decide +kernel
  refine ⟨buildStreetsForAdmins branchSort "Rue Basse".toList 9 "relation".toList twinBranches
    (getWayCoord twinStore (splitWay 7)), ?_, ?_⟩
  · simp only [relationStep, hstreet, twin_admins]
    rfl
  · rw [buildStreetsForAdmins_ids (by decide)]
    decide

def twinMerged : NameAdminMap :=
  twinBranches.foldl (mergeBranch "Rue Basse".toList (.way 5)) ∅

theorem twin_way_pass :
    [splitWay 7, splitWay 5].foldlM (mergeWay [.way 7] (getStreetAdmin twinFinder 1 twinStore)) ∅ =
      some twinMerged := by
  have hmember : mergeWay [.way 7] (getStreetAdmin twinFinder 1 twinStore) ∅ (splitWay 7) = some ∅ :=
    if_pos List.mem_cons_self
  have houtside : mergeWay [.way 7] (getStreetAdmin twinFinder 1 twinStore) ∅ (splitWay 5) =
      some twinMerged := by
    have hout : OsmId.way (splitWay 5).id ∉ [.way 7] := by decide
    rw [mergeWay, if_neg hout, splitWay_name, twin_admins]
    rfl
  exact Loop.cons_iff.mpr ⟨_, hmember, Loop.cons_iff.mpr ⟨_, houtside, rfl⟩⟩

theorem twin_groups : ∃ branches, allAdminsForStreet twinMerged = [(.way 5, branches)] ∧
    branches.length = 2 := by
  have hshape : (allAdminsForStreet twinMerged).map (fun g => (g.1, g.2.length)) =
      [(.way 5, 2)] := by
    decide +kernel
  obtain ⟨⟨id, branches⟩, hgroups, hg⟩ := List.map_eq_singleton_iff.mp hshape
  obtain ⟨rfl, hlen⟩ := Prod.mk.inj hg
  exact ⟨branches, hgroups, hlen⟩

theorem twin_read : ∃ streets, innerStreets twinFinder 1 .stored branchSort ⟨none, none⟩
    (fun _ => .ok twinStore) = some (.ok streets) ∧
      streets.map Street.id = ["street:osm:relation:9-0".toList, "street:osm:relation:9-1".toList,
        "street:osm:way:5-0".toList, "street:osm:way:5-1".toList] := by
  obtain ⟨docs, hpass, hids⟩ := twin_relation_pass
  obtain ⟨branches, hgroups, hlen⟩ := twin_groups
  have hrels : twinStore.relations.foldlM (relationStep branchSort twinStore
      (getStreetAdmin twinFinder 1 twinStore)) ⟨[], []⟩ = some ⟨[.way 7], docs⟩ :=
    Loop.cons_iff.mpr ⟨_, hpass, rfl⟩
  have hways : twinStore.ways.foldlM (mergeWay [.way 7] (getStreetAdmin twinFinder 1 twinStore)) ∅ =
      some twinMerged := twin_way_pass
  have hstreet : wayStreet branchSort twinStore (.way 5) branches = some (buildStreetsForAdmins
      branchSort "Rue Basse".toList 5 "way".toList branches (getWayCoord twinStore (splitWay 5))) :=
    wayStreet_stored (twinStore_ways.mpr (.inr rfl)) (splitWay_name 5) branches
  refine ⟨docs ++ buildStreetsForAdmins branchSort "Rue Basse".toList 5 "way".toList branches
    (getWayCoord twinStore (splitWay 5)), ?_, ?_⟩
  · simp only [innerStreets, Schedule.stored, Reordering.refl, id_eq, hrels, hways, hgroups,
      Option.bind_eq_bind, Option.bind_some, List.filterMap_cons, List.filterMap_nil, hstreet,
      List.flatten_cons, List.flatten_nil, List.append_nil]
    rfl
  · rw [List.map_append, hids, buildStreetsForAdmins_ids (by omega), hlen]
    decide

theorem split_way_ids :
    (∃ fuel, ∀ schedule, ∃ streets, innerStreets twinFinder fuel schedule branchSort ⟨none, none⟩
      (fun _ => .ok twinStore) = some (.ok streets) ∧ (streets.map Street.id).Nodup) ∧
    ∃ streets, innerStreets twinFinder 1 .stored branchSort ⟨none, none⟩
      (fun _ => .ok twinStore) = some (.ok streets) ∧
      streets.map Street.id = ["street:osm:relation:9-0".toList, "street:osm:relation:9-1".toList,
        "street:osm:way:5-0".toList, "street:osm:way:5-1".toList] := by
  obtain ⟨hreturns, hunique⟩ := street_ids_unique twinFinder branchSort ⟨none, none⟩
    (fun _ => .ok twinStore) twinStore rfl
  refine ⟨?_, twin_read⟩
  obtain ⟨fuel, hfuel⟩ := hreturns twinStore_branches
  refine ⟨fuel, fun schedule => ?_⟩
  obtain ⟨streets, hrun⟩ := hfuel schedule
  exact ⟨streets, hrun, hunique fuel schedule streets hrun⟩

end Mimirsbrunn
