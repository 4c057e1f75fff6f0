import Mimirsbrunn.Osm.Merging

namespace Mimirsbrunn
open Regex Std

variable {G E : Type} [Geometry G E] [Envelope E] {admins_geofinder : AdminGeoFinder G E}
  {objs_map : ObjWrapper} {sort : BranchSort}

section Groups

variable {merged merged' : NameAdminMap} {groups : List (OsmId × List (List Admin))} {d : Street}
  {name city : Text} {way : Way} {branch : List Admin}

def wayStreets (sort : BranchSort) (objs_map : ObjWrapper)
    (all_admins_for_street : List (OsmId × List (List Admin))) : List Street :=
  (all_admins_for_street.filterMap (fun e => wayStreet sort objs_map e.1 e.2)).flatten

theorem wayStreets_flatMap : wayStreets sort objs_map groups =
    groups.flatMap (fun e => (wayStreet sort objs_map e.1 e.2).getD []) := by
  induction groups with
  | nil => rfl
  | cons e groups ih =>
      rw [List.flatMap_cons, ← ih, wayStreets, wayStreets]
      cases hs : wayStreet sort objs_map e.1 e.2 <;> simp [hs]

def wayName (objs_map : ObjWrapper) (id : OsmId) : Option Text :=
  ((objs_map.get id).bind OsmObj.asWay).bind (fun way => way.tags.name)

theorem wayStreet_stored (hw : way ∈ objs_map.ways) (hn : way.tags.name = some name)
    (all_admins : List (List Admin)) :
    wayStreet sort objs_map (.way way.id) all_admins = some (buildStreetsForAdmins sort name way.id
      "way".toList all_admins (getWayCoord objs_map way)) := by
  simp [wayStreet, ObjWrapper.get_way hw, OsmObj.asWay, hn]

theorem wayName_stored (hw : way ∈ objs_map.ways) (hn : way.tags.name = some name) :
    wayName objs_map (.way way.id) = some name := by
  simp [wayName, ObjWrapper.get_way hw, OsmObj.asWay, hn]

theorem wayStreet_branch {id : OsmId} {all_admins : List (List Admin)} {docs : List Street}
    (h : wayStreet sort objs_map id all_admins = some docs) (hd : d ∈ docs) :
    ∃ branch, branch ∈ all_admins := by
  simp only [wayStreet, Option.bind_eq_bind, Option.bind_eq_some_iff] at h
  obtain ⟨_, _, way, _, name, _, hdocs⟩ := h
  obtain rfl := Option.some.inj hdocs
  obtain ⟨branch, hb, _⟩ := mem_buildStreetsForAdmins hd
  exact ⟨branch, hb⟩

theorem chosen_of_mem_group (hm : Merged admins_geofinder objs_map merged)
    (hperm : groups.Perm (allAdminsForStreet merged)) {e : OsmId × List (List Admin)}
    (he : e ∈ groups) (hb : branch ∈ e.2) :
    ∃ name city way, e.1 = .way way.id ∧ Chosen admins_geofinder objs_map name city way branch := by
  have hmem := Grouping.mem_of_mem_group (hperm.mem_iff.mp he) hb
  obtain ⟨⟨⟨name, city⟩, stored⟩, hs, heq⟩ := List.mem_map.mp hmem
  obtain rfl : stored = (e.1, branch) := heq
  exact ⟨name, city, hm.sound (TreeMap.mem_toList_iff_getElem?_eq_some.mp hs)⟩

theorem wayStreets_sound (hm : Merged admins_geofinder objs_map merged)
    (hperm : groups.Perm (allAdminsForStreet merged)) (hd : d ∈ wayStreets sort objs_map groups) :
    ∃ name city way branch suffix, Chosen admins_geofinder objs_map name city way branch ∧
      d = buildStreet (docId "way".toList way.id suffix) name (getWayCoord objs_map way) branch := by
  obtain ⟨docs, hdocs, hd⟩ := List.mem_flatten.mp hd
  obtain ⟨⟨id, all_admins⟩, he, hstreet⟩ := List.mem_filterMap.mp hdocs
  obtain ⟨first, hfirst⟩ := wayStreet_branch hstreet hd
  obtain ⟨name, city, way, rfl, hc⟩ := chosen_of_mem_group hm hperm he hfirst
  rw [wayStreet_stored hc.stored hc.named] at hstreet
  obtain rfl := Option.some.inj hstreet
  obtain ⟨branch, hb, suffix, rfl⟩ := mem_buildStreetsForAdmins hd
  obtain ⟨name', city', way', hid, hc'⟩ := chosen_of_mem_group hm hperm he hb
  obtain rfl := ObjWrapper.ways_ext hc.stored hc'.stored (OsmId.way.inj hid)
  obtain rfl := Option.some.inj (hc.named.symm.trans hc'.named)
  exact ⟨name, city', way, branch, suffix, hc', rfl⟩

theorem wayStreets_complete (hm : Merged admins_geofinder objs_map merged)
    (hperm : groups.Perm (allAdminsForStreet merged))
    (hc : Chosen admins_geofinder objs_map name city way branch) :
    ∃ suffix, buildStreet (docId "way".toList way.id suffix) name (getWayCoord objs_map way) branch ∈
      wayStreets sort objs_map groups := by
  have hentry : (OsmId.way way.id, branch) ∈ merged.toList.map Prod.snd :=
    List.mem_map.mpr ⟨_, TreeMap.mem_toList_iff_getElem?_eq_some.mpr (hm.get hc), rfl⟩
  obtain ⟨all_admins, hgroup, hb⟩ := Grouping.exists_group hentry
  obtain ⟨suffix, hd⟩ := exists_mem_buildStreetsForAdmins hb
  exact ⟨suffix, List.mem_flatten.mpr ⟨_, List.mem_filterMap.mpr
    ⟨_, hperm.mem_iff.mpr hgroup, wayStreet_stored hc.stored hc.named _⟩, hd⟩⟩

theorem wayStreets_keys (hm : Merged admins_geofinder objs_map merged)
    (hperm : groups.Perm (allAdminsForStreet merged)) :
    ((wayStreets sort objs_map groups).map
      (fun d => (some d.name, firstCity d.administrative_regions))).Perm
      (merged.toList.map (fun e => (some e.1.1, some e.1.2))) := by
  let key := fun (id : OsmId) (branch : List Admin) => (wayName objs_map id, firstCity branch)
  have hgroup : ∀ e ∈ groups, (((wayStreet sort objs_map e.1 e.2).getD []).map
      (fun d => (some d.name, firstCity d.administrative_regions))).Perm (e.2.map (key e.1)) := by
    rintro ⟨id, all_admins⟩ he
    cases all_admins with
    | nil =>
        cases hs : wayStreet sort objs_map id [] with
        | none => exact .refl _
        | some docs =>
            have hdocs : docs = [] := by
              refine List.eq_nil_iff_forall_not_mem.mpr (fun d hd => ?_)
              obtain ⟨_, hb⟩ := wayStreet_branch hs hd
              cases hb
            rw [hdocs]
            exact .refl _
    | cons first rest =>
        obtain ⟨name, city, way, rfl, hc⟩ := chosen_of_mem_group hm hperm he List.mem_cons_self
        rw [wayStreet_stored hc.stored hc.named]
        have hk : key (.way way.id) = fun branch => (some name, firstCity branch) := by
          funext branch
          simp only [key, wayName_stored hc.stored hc.named]
        rw [hk]
        exact buildStreetsForAdmins_map (fun name branch => (some name, firstCity branch))
  have hentries : (merged.toList.map Prod.snd).map (fun e => key e.1 e.2) =
      merged.toList.map (fun e => (some e.1.1, some e.1.2)) := by
    rw [List.map_map]
    refine List.map_congr_left ?_
    rintro ⟨⟨name, city⟩, id, branch⟩ he
    obtain ⟨way, rfl, hc⟩ := hm.sound (TreeMap.mem_toList_iff_getElem?_eq_some.mp he)
    simp only [Function.comp, key, wayName_stored hc.stored hc.named, hc.firstCity_eq]
  rw [wayStreets_flatMap, List.map_flatMap, ← hentries]
  exact (List.Perm.flatMap_left _ hgroup).trans
    ((hperm.flatMap_right _).trans (Grouping.ungroup_group key _))

end Groups

section Documents

variable {fuel : Nat} {schedule : Schedule} {exclusions : StreetExclusion}
  {getObjsAndDepsStore : (OsmObj → Bool) → Except Text ObjWrapper} {streets : List Street}

def wayDocuments (streets : List Street) : List Street :=
  streets.filter (fun d => "street:osm:way:".toList.isPrefixOf d.id)

theorem way_docId (id : Int) (suffix : Option Nat) :
    "street:osm:way:".toList.isPrefixOf (docId "way".toList id suffix) = true := by
  cases suffix <;> rfl

theorem relation_docId (id : Int) (suffix : Option Nat) :
    "street:osm:way:".toList.isPrefixOf (docId "relation".toList id suffix) = false := by
  cases suffix <;> rfl

theorem showInt_eq (n : Int) : showInt n = (toString n).toList := by
  cases n with
  | ofNat n => exact String.toList_ofList.symm
  | negSucc n =>
      have htext : toString (Int.negSucc n) = "-" ++ Nat.repr (n + 1) := rfl
      have hdigits : (Nat.repr (n + 1)).toList = Nat.toDigits 10 (n + 1) := String.toList_ofList
      rw [htext, String.toList_append, hdigits]
      rfl

def WayId (id : Int) (text : Text) : Prop :=
  text = s!"street:osm:way:{id}".toList ∨ ∃ i : Nat, text = s!"street:osm:way:{id}-{i}".toList

theorem wayId_docId (id : Int) (suffix : Option Nat) : WayId id (docId "way".toList id suffix) := by
  cases suffix with
  | none =>
      have hdoc : docId "way".toList id none =
          "street:osm:".toList ++ "way".toList ++ ":".toList ++ showInt id := rfl
      have htext : s!"street:osm:way:{id}" = "street:osm:way:" ++ toString id := rfl
      refine .inl ?_
      rw [hdoc, htext, showInt_eq, String.toList_append]
      rfl
  | some i =>
      have hdoc : docId "way".toList id (some i) = "street:osm:".toList ++ "way".toList ++
          ":".toList ++ showInt id ++ "-".toList ++ showInt i := rfl
      have htext : s!"street:osm:way:{id}-{i}" =
          "street:osm:way:" ++ toString id ++ "-" ++ toString (i : Int) := rfl
      refine .inr ⟨i, ?_⟩
      rw [hdoc, htext, showInt_eq, showInt_eq, String.toList_append, String.toList_append,
        String.toList_append]
      rfl

theorem innerStreets_returns (hread : getObjsAndDepsStore (isValidObj exclusions) = .ok objs_map)
    (hanswers : Answers admins_geofinder objs_map) :
    ∃ fuel, ∀ schedule, ∃ streets, innerStreets admins_geofinder fuel schedule sort exclusions
      getObjsAndDepsStore = some (.ok streets) := by
  obtain ⟨fuel, hfuel⟩ := hanswers.exists_fuel
  refine ⟨fuel, fun schedule => ?_⟩
  have hrels := schedule.relations.perm objs_map.relations
  have hrelation : ∀ rel ∈ schedule.relations.run objs_map.relations, ∀ way name,
      relStreet objs_map rel = some (way, name) →
        ∃ all, getStreetAdmin admins_geofinder fuel objs_map way = some all :=
    fun rel hm way name hstreet => hfuel way
      (.relation rel name (hrels.mem_iff.mp hm) (relStreet_iff.mp hstreet))
  obtain ⟨pass, hpass⟩ := @relations_returns sort objs_map _ ⟨[], []⟩ _ hrelation
  have hway : ∀ way ∈ schedule.ways.run objs_map.ways, .way way.id ∉ pass.street_in_relation →
      ∀ name, way.tags.name = some name →
        ∃ all, getStreetAdmin admins_geofinder fuel objs_map way = some all :=
    fun way hm hs name hn => hfuel way (.outside name ((schedule.ways.perm _).mem_iff.mp hm)
      (fun hin => hs ((marks_iff_inRelation hrels hpass way).mpr hin)) hn)
  obtain ⟨merged, hmerged⟩ := @mergeWays_returns pass.street_in_relation _ ∅ _ hway
  simp only [innerStreets, hread, hpass, hmerged, Option.bind_eq_bind, Option.bind_some]
  exact ⟨_, rfl⟩

structure StreetRun (admins_geofinder : AdminGeoFinder G E) (fuel : Nat) (sort : BranchSort)
    (objs_map : ObjWrapper) (streets : List Street) where
  rels : List Relation
  rels_perm : rels.Perm objs_map.relations
  ways : List Way
  ways_perm : ways.Perm objs_map.ways
  pass : RelationPass
  relations_pass : rels.foldlM (relationStep sort objs_map
    (getStreetAdmin admins_geofinder fuel objs_map)) ⟨[], []⟩ = some pass
  merged : NameAdminMap
  ways_pass : ways.foldlM (mergeWay pass.street_in_relation
    (getStreetAdmin admins_geofinder fuel objs_map)) ∅ = some merged
  groups : List (OsmId × List (List Admin))
  groups_perm : groups.Perm (allAdminsForStreet merged)
  output : streets = pass.street_list ++ wayStreets sort objs_map groups

theorem innerStreets_run (hread : getObjsAndDepsStore (isValidObj exclusions) = .ok objs_map)
    (h : innerStreets admins_geofinder fuel schedule sort exclusions getObjsAndDepsStore =
      some (.ok streets)) :
    Nonempty (StreetRun admins_geofinder fuel sort objs_map streets) := by
  simp only [innerStreets, hread, Option.bind_eq_bind, Option.bind_eq_some_iff] at h
  obtain ⟨pass, hpass, merged, hmerged, hout⟩ := h
  exact ⟨⟨_, schedule.relations.perm _, _, schedule.ways.perm _, pass, hpass, merged, hmerged, _,
    schedule.hash.perm _, (Except.ok.inj (Option.some.inj hout)).symm⟩⟩

theorem StreetRun.merges
    (run : StreetRun admins_geofinder fuel sort objs_map streets) :
    Merged admins_geofinder objs_map run.merged :=
  mergeWays_merged run.ways_perm (marks_iff_inRelation run.rels_perm run.relations_pass)
    run.ways_pass

theorem StreetRun.answers (run : StreetRun admins_geofinder fuel sort objs_map streets) :
    Answers admins_geofinder objs_map := by
  intro way hq
  cases hq with
  | relation rel name stored represents =>
      obtain ⟨all, hall⟩ := relations_admins run.relations_pass (run.rels_perm.mem_iff.mpr stored)
        (relStreet_iff.mpr represents)
      exact ⟨all, fuel, hall⟩
  | outside name stored outside named =>
      have hmarks := marks_iff_inRelation run.rels_perm run.relations_pass way
      obtain ⟨all, hall⟩ := mergeWays_admins run.ways_pass (run.ways_perm.mem_iff.mpr stored)
        (fun hs => outside (hmarks.mp hs)) named
      exact ⟨all, fuel, hall⟩

structure Gives (admins_geofinder : AdminGeoFinder G E) (sort : BranchSort)
    (exclusions : StreetExclusion) (getObjsAndDepsStore : (OsmObj → Bool) → Except Text ObjWrapper)
    (P : List Street → Prop) : Prop where
  returns : ∃ fuel, ∀ schedule, ∃ streets, innerStreets admins_geofinder fuel schedule sort
    exclusions getObjsAndDepsStore = some (.ok streets)
  holds : ∀ fuel schedule streets, innerStreets admins_geofinder fuel schedule sort exclusions
    getObjsAndDepsStore = some (.ok streets) → P streets

theorem Gives.answers {P : List Street → Prop}
    (h : Gives admins_geofinder sort exclusions getObjsAndDepsStore P)
    (hread : getObjsAndDepsStore (isValidObj exclusions) = .ok objs_map) :
    Answers admins_geofinder objs_map := by
  obtain ⟨fuel, hfuel⟩ := h.returns
  obtain ⟨streets, hstreets⟩ := hfuel .stored
  obtain ⟨run⟩ := innerStreets_run hread hstreets
  exact run.answers

theorem StreetRun.wayDocuments_eq
    (run : StreetRun admins_geofinder fuel sort objs_map streets) :
    wayDocuments streets = wayStreets sort objs_map run.groups := by
  have hrel : run.pass.street_list.filter
      (fun d => "street:osm:way:".toList.isPrefixOf d.id) = [] := by
    refine List.filter_eq_nil_iff.mpr (fun d hd => ?_)
    rw [relations_streets run.relations_pass] at hd
    obtain ⟨rel, _, way, name, all, _, _, hd⟩ := hd.resolve_left List.not_mem_nil
    obtain ⟨_, _, suffix, rfl⟩ := mem_buildStreetsForAdmins hd
    simp only [buildStreet, relation_docId, Bool.false_eq_true, not_false_eq_true]
  have hway : (wayStreets sort objs_map run.groups).filter
      (fun d => "street:osm:way:".toList.isPrefixOf d.id) = wayStreets sort objs_map run.groups := by
    refine List.filter_eq_self.mpr (fun d hd => ?_)
    obtain ⟨_, _, _, _, suffix, _, rfl⟩ := wayStreets_sound run.merges run.groups_perm hd
    exact way_docId _ suffix
  calc wayDocuments streets
      = wayDocuments (run.pass.street_list ++ wayStreets sort objs_map run.groups) :=
        congrArg wayDocuments run.output
    _ = wayStreets sort objs_map run.groups := by
        rw [wayDocuments, List.filter_append, hrel, hway, List.nil_append]

structure MergedExactly (admins_geofinder : AdminGeoFinder G E) (objs_map : ObjWrapper)
    (docs : List Street) : Prop where
  one : ∀ name city, (∃ way admins, Candidate admins_geofinder objs_map name city way admins) →
    ∃ way branch id, Chosen admins_geofinder objs_map name city way branch ∧ WayId way.id id ∧
      docs.filter (fun d => d.name = name ∧ firstCity d.administrative_regions = some city) =
        [buildStreet id name (getWayCoord objs_map way) branch]
  only : ∀ d ∈ docs, ∃ city way admins,
    Candidate admins_geofinder objs_map d.name city way admins ∧
      firstCity d.administrative_regions = some city

theorem StreetRun.wayStreets_nodup
    (run : StreetRun admins_geofinder fuel sort objs_map streets) :
    ((wayStreets sort objs_map run.groups).map
      (fun d => (some d.name, firstCity d.administrative_regions))).Nodup := by
  rw [(wayStreets_keys run.merges run.groups_perm).nodup_iff, List.nodup_iff_pairwise_ne,
    List.pairwise_map]
  refine TreeMap.distinct_keys_toList.imp (fun hne heq => hne ?_)
  obtain ⟨hname, hcity⟩ := Prod.mk.inj heq
  rw [Std.compare_eq_iff_eq]
  exact Prod.ext (Option.some.inj hname) (Option.some.inj hcity)

theorem StreetRun.exact
    (run : StreetRun admins_geofinder fuel sort objs_map streets) :
    MergedExactly admins_geofinder objs_map (wayDocuments streets) := by
  rw [run.wayDocuments_eq]
  constructor
  · rintro name city ⟨way, admins, hc⟩
    obtain ⟨stored, hget⟩ := run.merges.complete hc
    obtain ⟨chosen, _, hchosen⟩ := run.merges.sound hget
    obtain ⟨suffix, hd⟩ := wayStreets_complete run.merges run.groups_perm hchosen
    have hone := Grouping.filter_key run.wayStreets_nodup hd
    simp only [buildStreet, hchosen.firstCity_eq, Prod.mk.injEq, Option.some.injEq] at hone
    exact ⟨chosen, stored.2, _, hchosen, wayId_docId _ suffix, hone⟩
  · intro d hd
    obtain ⟨name, city, way, branch, _, hc, rfl⟩ :=
      wayStreets_sound run.merges run.groups_perm hd
    exact ⟨city, way, branch, hc.toCandidate, hc.firstCity_eq⟩

theorem StreetRun.order_free {fuel' : Nat} {streets' : List Street}
    (run : StreetRun admins_geofinder fuel sort objs_map streets)
    (run' : StreetRun admins_geofinder fuel' sort objs_map streets') :
    (wayDocuments streets').Perm (wayDocuments streets) := by
  have hgroups : run'.groups.Perm run.groups := by
    have hentries := run.merges.equiv run'.merges
    refine run'.groups_perm.trans ?_
    rw [allAdminsForStreet, ← hentries]
    exact run.groups_perm.symm
  rw [run.wayDocuments_eq, run'.wayDocuments_eq]
  exact (hgroups.filterMap _).flatten

theorem ways_merged_exactly_iff (admins_geofinder : AdminGeoFinder G E) (sort : BranchSort)
    (exclusions : StreetExclusion) (getObjsAndDepsStore : (OsmObj → Bool) → Except Text ObjWrapper)
    (objs_map : ObjWrapper) (hread : getObjsAndDepsStore (isValidObj exclusions) = .ok objs_map) :
    Gives admins_geofinder sort exclusions getObjsAndDepsStore (fun streets =>
      MergedExactly admins_geofinder objs_map (wayDocuments streets) ∧
      ∀ fuel' schedule' streets', innerStreets admins_geofinder fuel' schedule' sort exclusions
          getObjsAndDepsStore = some (.ok streets') →
        (wayDocuments streets').Perm (wayDocuments streets)) ↔
      ∀ way, Queried objs_map way →
        ∃ all_admins, Branches admins_geofinder objs_map way all_admins := by
  constructor
  · exact fun h => h.answers hread
  · intro hanswers
    refine ⟨innerStreets_returns hread hanswers, fun fuel schedule streets h => ?_⟩
    obtain ⟨run⟩ := innerStreets_run hread h
    refine ⟨run.exact, fun fuel' schedule' streets' h' => ?_⟩
    obtain ⟨run'⟩ := innerStreets_run hread h'
    exact run.order_free run'

def splitWay (id : Int) : Way :=
  ⟨id, .ofList [("highway".toList, "residential".toList), ("name".toList, "Rue Basse".toList)], [1]⟩

def splitStore : ObjWrapper :=
  ⟨[.node ⟨1, ∅, 506300000, 30600000⟩, .way (splitWay 7), .way (splitWay 5)], by decide⟩

theorem splitStore_ways {way : Way} :
    way ∈ splitStore.ways ↔ way = splitWay 7 ∨ way = splitWay 5 := by
  simp [ObjWrapper.mem_ways, splitStore]

theorem splitStore_outside (way : Way) : ¬ InRelation splitStore way := by
  rintro ⟨rel, hrel, _⟩
  simp [ObjWrapper.mem_relations, splitStore] at hrel

theorem splitWay_name (id : Int) : (splitWay id).tags.name = some "Rue Basse".toList := by
  change (splitWay 5).tags.name = _
  decide +kernel

theorem splitWay_branches (id : Int) : ∃ all_admins admins,
    Branches lilleFinder splitStore (splitWay id) all_admins ∧
      firstBranch lille.id all_admins = some admins := by
  have hbranch : (getStreetAdmin lilleFinder 1 splitStore (splitWay 5)).any
      (fun all_admins => (firstBranch lille.id all_admins).isSome) = true := by
    decide +kernel
  obtain ⟨all_admins, hall, hfirst⟩ := (Option.any_eq_true _ _).mp hbranch
  obtain ⟨admins, hfirst⟩ := Option.isSome_iff_exists.mp hfirst
  have hsame : getStreetAdmin lilleFinder 1 splitStore (splitWay id) =
      getStreetAdmin lilleFinder 1 splitStore (splitWay 5) := by
    simp only [getStreetAdmin, splitWay]
  exact ⟨all_admins, admins, ⟨1, hsame.trans hall⟩, hfirst⟩

theorem splitStore_answers : Answers lilleFinder splitStore := by
  intro way hq
  rcases splitStore_ways.mp hq.mem_ways with rfl | rfl
  · obtain ⟨all_admins, _, hall, _⟩ := splitWay_branches 7
    exact ⟨all_admins, hall⟩
  · obtain ⟨all_admins, _, hall, _⟩ := splitWay_branches 5
    exact ⟨all_admins, hall⟩

theorem split_way_merged :
    ∃ fuel, ∀ schedule, ∃ streets, innerStreets lilleFinder fuel schedule branchSort ⟨none, none⟩
      (fun _ => .ok splitStore) = some (.ok streets) ∧
      ∃ branch id, WayId 5 id ∧ (wayDocuments streets).filter (fun d => d.name = "Rue Basse".toList ∧
        firstCity d.administrative_regions = some lille.id) =
          [buildStreet id "Rue Basse".toList (getWayCoord splitStore (splitWay 5)) branch] := by
  obtain ⟨hreturns, hexact⟩ := (ways_merged_exactly_iff lilleFinder branchSort ⟨none, none⟩
    (fun _ => .ok splitStore) splitStore rfl).mpr splitStore_answers
  obtain ⟨fuel, hfuel⟩ := hreturns
  refine ⟨fuel, fun schedule => ?_⟩
  obtain ⟨streets, hrun⟩ := hfuel schedule
  obtain ⟨all, admins, hall, hfirst⟩ := splitWay_branches 5
  have hcandidate : Candidate lilleFinder splitStore "Rue Basse".toList lille.id (splitWay 5)
      admins :=
    ⟨splitStore_ways.mpr (.inr rfl), splitStore_outside _, splitWay_name _, all, hall, hfirst⟩
  obtain ⟨way, branch, id, hc, hid, hone⟩ :=
    (hexact fuel schedule streets hrun).1.one _ _ ⟨_, _, hcandidate⟩
  rcases splitStore_ways.mp hc.stored with rfl | rfl
  · have hle := hc.smallest _ _ hcandidate
    simp [splitWay] at hle
  · exact ⟨streets, hrun, branch, id, hid, hone⟩

-- A commune that its INSEE code also names as the parent.
def lommeLoop : Admin :=
  { lille with id := "admin:fr:59350".toList, parent_id := some "admin:fr:59350".toList }

def loopBounds : Rectangle := ⟨29000000, 32000000, 505000000, 507000000⟩

def loopFinder : AdminGeoFinder Rectangle Rectangle :=
  AdminGeoFinder.empty.insert lommeLoop (some loopBounds)

theorem lommeLoop_head :
    ⟨loopBounds, loopBounds, lommeLoop⟩ ∈ loopFinder.heads ⟨30600000, 506300000⟩ upToCity := by
  have hinside : Rectangle.contains loopBounds ⟨30600000, 506300000⟩ = true := by decide
  exact AdminGeoFinder.lone_head rfl
    (AdminGeoFinder.mem_candidates.mpr ⟨List.mem_cons_self, hinside, by decide⟩) hinside

theorem loopFinder_unanswered : ¬ Answers loopFinder splitStore := by
  intro hanswers
  have hqueried : Queried splitStore (splitWay 5) :=
    .outside _ (splitStore_ways.mpr (.inr rfl)) (splitStore_outside _) (splitWay_name 5)
  have hnode : streetNode splitStore (splitWay 5) = some ⟨1, ∅, 506300000, 30600000⟩ := rfl
  obtain ⟨up, hup⟩ := branches_iff_chains.mp (hanswers _ hqueried) _ hnode _ lommeLoop_head
  exact AdminGeoFinder.not_chain_of_own_parent rfl hup

theorem looped_way_unmerged :
    (∀ fuel schedule streets, innerStreets loopFinder fuel schedule branchSort ⟨none, none⟩
      (fun _ => .ok splitStore) ≠ some (.ok streets)) ∧
    ¬ Gives loopFinder branchSort ⟨none, none⟩ (fun _ => .ok splitStore) (fun streets =>
      MergedExactly loopFinder splitStore (wayDocuments streets) ∧
      ∀ fuel' schedule' streets', innerStreets loopFinder fuel' schedule' branchSort ⟨none, none⟩
          (fun _ => .ok splitStore) = some (.ok streets') →
        (wayDocuments streets').Perm (wayDocuments streets)) := by
  refine ⟨fun fuel schedule streets h => ?_, fun h => loopFinder_unanswered (h.answers rfl)⟩
  obtain ⟨run⟩ := innerStreets_run rfl h
  exact loopFinder_unanswered run.answers

end Documents

end Mimirsbrunn
