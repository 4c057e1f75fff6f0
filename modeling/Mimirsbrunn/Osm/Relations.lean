import Mimirsbrunn.Library.Loop
import Mimirsbrunn.Osm.WayNodes
import Mimirsbrunn.Places.Branches

namespace Mimirsbrunn
open Regex Std

section Branches

variable {G E : Type} [Geometry G E] [Envelope E]

def Branches (admins_geofinder : AdminGeoFinder G E) (objs_map : ObjWrapper) (way : Way)
    (all_admins : List (List Admin)) : Prop :=
  ∃ fuel, getStreetAdmin admins_geofinder fuel objs_map way = some all_admins

def MemberOf (rel : Relation) (way : Way) : Prop :=
  ∃ ref_obj ∈ rel.refs, ref_obj.member = .way way.id

def InRelation (objs_map : ObjWrapper) (way : Way) : Prop :=
  ∃ rel ∈ objs_map.relations, MemberOf rel way

variable {admins_geofinder : AdminGeoFinder G E} {objs_map : ObjWrapper} {way : Way}
  {all all' : List (List Admin)} {fuel fuel' : Nat}

theorem getStreetAdmin_mono (hf : fuel ≤ fuel')
    (h : getStreetAdmin admins_geofinder fuel objs_map way = some all) :
    getStreetAdmin admins_geofinder fuel' objs_map way = some all := by
  simp only [getStreetAdmin] at h ⊢
  split at h
  · exact AdminGeoFinder.branches_mono hf h
  · exact h

theorem getStreetAdmin_unique
    (h : getStreetAdmin admins_geofinder fuel objs_map way = some all)
    (h' : getStreetAdmin admins_geofinder fuel' objs_map way = some all') : all = all' := by
  have hmax := getStreetAdmin_mono (Nat.le_max_left fuel fuel') h
  have hmax' := getStreetAdmin_mono (Nat.le_max_right fuel fuel') h'
  exact Option.some.inj (hmax.symm.trans hmax')

theorem Branches.unique (h : Branches admins_geofinder objs_map way all)
    (h' : Branches admins_geofinder objs_map way all') : all = all' := by
  obtain ⟨fuel, h⟩ := h
  obtain ⟨fuel', h'⟩ := h'
  exact getStreetAdmin_unique h h'

end Branches

section Documents

variable {sort : BranchSort} {name kind : Text} {osm_id : Int} {all_admins : List (List Admin)}
  {coord : Coord} {d : Street}

theorem mem_buildStreetsForAdmins
    (h : d ∈ buildStreetsForAdmins sort name osm_id kind all_admins coord) :
    ∃ admins ∈ all_admins, ∃ suffix,
      d = buildStreet (docId kind osm_id suffix) name coord admins := by
  obtain ⟨i, hi, rfl⟩ := List.mem_mapIdx.mp h
  exact ⟨_, (sort.perm all_admins).mem_iff.mp (List.getElem_mem hi), _, rfl⟩

theorem exists_mem_buildStreetsForAdmins {admins : List Admin} (h : admins ∈ all_admins) :
    ∃ suffix, buildStreet (docId kind osm_id suffix) name coord admins ∈
      buildStreetsForAdmins sort name osm_id kind all_admins coord := by
  obtain ⟨i, hi, rfl⟩ := List.mem_iff_getElem.mp ((sort.perm all_admins).mem_iff.mpr h)
  exact ⟨_, List.mem_mapIdx.mpr ⟨i, hi, rfl⟩⟩

theorem buildStreetsForAdmins_map {β : Type} (f : Text → List Admin → β) :
    ((buildStreetsForAdmins sort name osm_id kind all_admins coord).map
      (fun d => f d.name d.administrative_regions)).Perm (all_admins.map (f name)) := by
  have hmap : (buildStreetsForAdmins sort name osm_id kind all_admins coord).map
      (fun d => f d.name d.administrative_regions) = (sort.run all_admins).map (f name) := by
    rw [buildStreetsForAdmins]
    refine List.ext_getElem (by simp) (fun i hi hi' => ?_)
    simp only [List.getElem_map, List.getElem_mapIdx, buildStreet]
  rw [hmap]
  exact (sort.perm all_admins).map _

end Documents

section RelationPass

variable {sort : BranchSort} {objs_map : ObjWrapper}
  {admins : Way → Option (List (List Admin))} {pass pass' : RelationPass} {rel : Relation}
  {rels : List Relation} {d : Street}

def RelationBuilds (sort : BranchSort) (objs_map : ObjWrapper)
    (admins : Way → Option (List (List Admin))) (rel : Relation) (d : Street) : Prop :=
  ∃ way name all_admins, relStreet objs_map rel = some (way, name) ∧
    admins way = some all_admins ∧ d ∈ buildStreetsForAdmins sort name rel.id
      "relation".toList all_admins (getWayCoord objs_map way)

structure Usable (objs_map : ObjWrapper) (rel : Relation) (ref_obj : Ref) (way : Way)
    (name : Text) : Prop where
  member : ref_obj.member = .way way.id
  role : ref_obj.role = "street".toList
  stored : way ∈ objs_map.ways
  named : (rel.tags.name <|> way.tags.name) = some name

def Represents (objs_map : ObjWrapper) (rel : Relation) (way : Way) (name : Text) : Prop :=
  ∃ before ref_obj after, rel.refs = before ++ ref_obj :: after ∧
    Usable objs_map rel ref_obj way name ∧
    ∀ other ∈ before, ∀ way' name', ¬ Usable objs_map rel other way' name'

def refStreet (objs_map : ObjWrapper) (rel : Relation) (ref_obj : Ref) : Option (Way × Text) := do
  let obj ← objs_map.get ref_obj.member
  let way ← obj.asWay
  let name ← rel.tags.name <|> way.tags.name
  return (way, name)

theorem usable_iff {ref_obj : Ref} {way : Way} {name : Text} :
    (if ref_obj.member.isWay && ref_obj.role == "street".toList then refStreet objs_map rel ref_obj
      else none) = some (way, name) ↔ Usable objs_map rel ref_obj way name := by
  constructor
  · intro h
    split at h
    · next hrole =>
      simp only [Bool.and_eq_true, beq_iff_eq] at hrole
      simp only [refStreet, Option.bind_eq_bind, Option.bind_eq_some_iff] at h
      obtain ⟨obj, hobj, way', hway, name', hname, hpair⟩ := h
      obtain ⟨rfl, rfl⟩ := Prod.mk.inj (Option.some.inj hpair)
      refine ⟨?_, hrole.2, ObjWrapper.way_mem_of_get hobj hway, hname⟩
      rw [← (ObjWrapper.get_eq_some.mp hobj).2, OsmObj.id_of_asWay hway]
    · cases h
  · rintro ⟨hmem, hrole, hstored, hname⟩
    rw [if_pos (by simp [hmem, hrole, OsmId.isWay])]
    simp only [refStreet, hmem, ObjWrapper.get_way hstored, OsmObj.asWay, hname,
      Option.bind_eq_bind, Option.bind_some]
    rfl

theorem relStreet_iff {way : Way} {name : Text} :
    relStreet objs_map rel = some (way, name) ↔ Represents objs_map rel way name := by
  have hfind : relStreet objs_map rel = rel.refs.findSome? (fun ref_obj =>
      if ref_obj.member.isWay && ref_obj.role == "street".toList then
        refStreet objs_map rel ref_obj else none) := by
    rw [relStreet, ← List.head?_filterMap, List.filterMap_filter, List.head?_filterMap]
    rfl
  rw [hfind, List.findSome?_eq_some_iff]
  constructor
  · rintro ⟨before, ref_obj, after, hrefs, hu, hnone⟩
    refine ⟨before, ref_obj, after, hrefs, usable_iff.mp hu, fun other ho way' name' hu' => ?_⟩
    have hsome := (hnone other ho).symm.trans (usable_iff.mpr hu')
    cases hsome
  · rintro ⟨before, ref_obj, after, hrefs, hu, hnone⟩
    refine ⟨before, ref_obj, after, hrefs, usable_iff.mpr hu, fun other ho => ?_⟩
    refine Option.eq_none_iff_forall_ne_some.mpr ?_
    rintro ⟨way', name'⟩ hsome
    exact hnone other ho way' name' (usable_iff.mp hsome)

theorem relStreet_stored {way : Way} {name : Text}
    (h : relStreet objs_map rel = some (way, name)) : way ∈ objs_map.ways := by
  obtain ⟨_, _, _, _, hu, _⟩ := relStreet_iff.mp h
  exact hu.stored

inductive Queried (objs_map : ObjWrapper) (way : Way) : Prop where
  | relation (rel : Relation) (name : Text) (stored : rel ∈ objs_map.relations)
      (represents : Represents objs_map rel way name)
  | outside (name : Text) (stored : way ∈ objs_map.ways) (outside : ¬ InRelation objs_map way)
      (named : way.tags.name = some name)

theorem Queried.mem_ways {way : Way} (h : Queried objs_map way) : way ∈ objs_map.ways := by
  cases h with
  | relation rel name stored represents => exact relStreet_stored (relStreet_iff.mpr represents)
  | outside name stored outside named => exact stored

theorem relationStep_marks (h : relationStep sort objs_map admins pass rel = some pass')
    (member : OsmId) : member ∈ pass'.street_in_relation ↔
      member ∈ pass.street_in_relation ∨
        member.isWay ∧ ∃ ref_obj ∈ rel.refs, ref_obj.member = member := by
  have hmarks : pass'.street_in_relation =
      pass.street_in_relation ++ (rel.refs.map Ref.member).filter OsmId.isWay := by
    simp only [relationStep] at h
    split at h
    · obtain ⟨all, _, rfl⟩ := Option.map_eq_some_iff.mp h
      rfl
    · obtain rfl := Option.some.inj h
      rfl
  rw [hmarks, List.mem_append, List.mem_filter, List.mem_map, and_comm]

theorem relationStep_streets (h : relationStep sort objs_map admins pass rel = some pass') :
    d ∈ pass'.street_list ↔ d ∈ pass.street_list ∨ RelationBuilds sort objs_map admins rel d := by
  simp only [relationStep] at h
  split at h
  · next way name hrel =>
    obtain ⟨all, hall, rfl⟩ := Option.map_eq_some_iff.mp h
    rw [List.mem_append, RelationBuilds]
    refine or_congr Iff.rfl ⟨fun hd => ⟨way, name, all, hrel, hall, hd⟩, ?_⟩
    rintro ⟨way', name', all', hrel', hall', hd⟩
    obtain ⟨rfl, rfl⟩ := Prod.mk.inj (Option.some.inj (hrel.symm.trans hrel'))
    obtain rfl := Option.some.inj (hall.symm.trans hall')
    exact hd
  · next hrel =>
    obtain rfl := Option.some.inj h
    refine ⟨.inl, fun hd => hd.resolve_right ?_⟩
    rintro ⟨way, name, all, hrel', _⟩
    cases hrel.symm.trans hrel'

theorem relations_marks (h : rels.foldlM (relationStep sort objs_map admins) pass = some pass')
    (member : OsmId) : member ∈ pass'.street_in_relation ↔
      member ∈ pass.street_in_relation ∨
        ∃ rel ∈ rels, member.isWay ∧ ∃ ref_obj ∈ rel.refs, ref_obj.member = member :=
  Loop.gathers (P := fun pass => member ∈ pass.street_in_relation)
    (fun _ _ _ hstep => relationStep_marks hstep member) h

theorem relations_streets (h : rels.foldlM (relationStep sort objs_map admins) pass = some pass') :
    d ∈ pass'.street_list ↔ d ∈ pass.street_list ∨
      ∃ rel ∈ rels, RelationBuilds sort objs_map admins rel d :=
  Loop.gathers (P := fun pass => d ∈ pass.street_list)
    (fun _ _ _ hstep => relationStep_streets hstep) h

theorem relations_returns (hdef : ∀ rel ∈ rels, ∀ way name,
      relStreet objs_map rel = some (way, name) → ∃ all, admins way = some all) :
    ∃ pass', rels.foldlM (relationStep sort objs_map admins) pass = some pass' := by
  refine Loop.returns (fun pass rel hm => ?_)
  simp only [relationStep]
  split
  · next way name hrel =>
    obtain ⟨all, hall⟩ := hdef rel hm way name hrel
    rw [hall]
    exact ⟨_, rfl⟩
  · exact ⟨_, rfl⟩

theorem relations_admins (h : rels.foldlM (relationStep sort objs_map admins) pass = some pass')
    (hrel : rel ∈ rels) {way : Way} {name : Text}
    (hstreet : relStreet objs_map rel = some (way, name)) : ∃ all, admins way = some all := by
  obtain ⟨_, _, hstep⟩ := Loop.step_of_mem h hrel
  simp only [relationStep, hstreet, Option.map_eq_some_iff] at hstep
  obtain ⟨all, hall, _⟩ := hstep
  exact ⟨all, hall⟩

theorem marks_iff_inRelation (hperm : rels.Perm objs_map.relations)
    (h : rels.foldlM (relationStep sort objs_map admins) ⟨[], []⟩ = some pass) (way : Way) :
    .way way.id ∈ pass.street_in_relation ↔ InRelation objs_map way := by
  rw [relations_marks h]
  simp [OsmId.isWay, InRelation, MemberOf, hperm.mem_iff]

end RelationPass

section Answers

variable {G E : Type} [Geometry G E] [Envelope E] {admins_geofinder : AdminGeoFinder G E}
  {objs_map : ObjWrapper}

def Answers (admins_geofinder : AdminGeoFinder G E) (objs_map : ObjWrapper) : Prop :=
  ∀ way, Queried objs_map way → ∃ all_admins, Branches admins_geofinder objs_map way all_admins

theorem Answers.exists_fuel (h : Answers admins_geofinder objs_map) :
    ∃ fuel, ∀ way, Queried objs_map way →
      ∃ all_admins, getStreetAdmin admins_geofinder fuel objs_map way = some all_admins := by
  have hmono (way : Way) (m n : Nat) (hle : m ≤ n) (hm : Queried objs_map way →
      ∃ all_admins, getStreetAdmin admins_geofinder m objs_map way = some all_admins) :
      Queried objs_map way →
        ∃ all_admins, getStreetAdmin admins_geofinder n objs_map way = some all_admins := by
    intro hq
    obtain ⟨all, hall⟩ := hm hq
    exact ⟨all, getStreetAdmin_mono hle hall⟩
  have hends : ∀ way ∈ objs_map.ways, ∃ fuel, Queried objs_map way →
      ∃ all_admins, getStreetAdmin admins_geofinder fuel objs_map way = some all_admins := by
    intro way _
    by_cases hq : Queried objs_map way
    · obtain ⟨all, fuel, hall⟩ := h way hq
      exact ⟨fuel, fun _ => ⟨all, hall⟩⟩
    · exact ⟨0, fun hq' => absurd hq' hq⟩
  obtain ⟨fuel, hfuel⟩ := Loop.exists_bound hmono hends
  exact ⟨fuel, fun way hq => hfuel way hq.mem_ways hq⟩

end Answers

section Chains

variable {G E : Type} [Areal G E] [Envelope E] {admins_geofinder : AdminGeoFinder G E}
  {objs_map : ObjWrapper} {way : Way} {node : Node}

def streetNode (objs_map : ObjWrapper) (way : Way) : Option Node :=
  (firstStored objs_map (nodesRight way)).or (firstStored objs_map (nodesLeft way))

theorem getStreetAdmin_of_node (fuel : Nat) (hnode : streetNode objs_map way = some node) :
    getStreetAdmin admins_geofinder fuel objs_map way =
      admins_geofinder.getAdminsIf fuel node.coord upToCity := by
  rw [streetNode] at hnode
  rw [getStreetAdmin_eq, hnode, Option.elim_some]

theorem branches_iff_chains : (∃ all_admins, Branches admins_geofinder objs_map way all_admins) ↔
    ∀ node, streetNode objs_map way = some node →
      ∀ head ∈ admins_geofinder.heads node.coord upToCity,
        ∃ up, Ancestry.Chain admins_geofinder.parentOf head.admin up := by
  constructor
  · rintro ⟨all, fuel, hall⟩ node hnode head hh
    rw [getStreetAdmin_of_node fuel hnode] at hall
    have hreturns : admins_geofinder.ReturnsBranches node.coord upToCity all :=
      ⟨fuel, fun fuel' hf => AdminGeoFinder.branches_mono hf hall⟩
    exact AdminGeoFinder.chains_of_returns hreturns hh
  · intro hends
    cases hnode : streetNode objs_map way with
    | none =>
        rw [streetNode] at hnode
        exact ⟨[], 0, by rw [getStreetAdmin_eq, hnode, Option.elim_none]⟩
    | some node =>
        obtain ⟨all, n, hn⟩ := AdminGeoFinder.returns_of_chains (hends node hnode)
        exact ⟨all, n, (getStreetAdmin_of_node n hnode).trans (hn n (Nat.le_refl n))⟩

end Chains

end Mimirsbrunn
