import Mathlib.Data.Finset.Card
import Mathlib.Data.Finset.Dedup
import Mimirsbrunn.Library.Ancestry
import Mimirsbrunn.Library.Loop
import Mimirsbrunn.Places.FinderEntries

namespace Mimirsbrunn
open Regex Std Ancestry

theorem zoneOrder_trans {a b c : Option ZoneType} (hab : zoneOrder a b = true)
    (hbc : zoneOrder b c = true) : zoneOrder a c = true := by
  cases a with
  | none => rfl
  | some a =>
      cases b with
      | none => cases hab
      | some b =>
          cases c with
          | none => cases hbc
          | some c =>
              simp only [zoneOrder, decide_eq_true_eq] at hab hbc ⊢
              exact Nat.le_trans hab hbc

theorem zoneOrder_total (a b : Option ZoneType) : (zoneOrder a b || zoneOrder b a) = true := by
  cases a with
  | none => rfl
  | some a =>
      cases b with
      | none => rfl
      | some b =>
          simp only [zoneOrder, Bool.or_eq_true, decide_eq_true_eq]
          exact Nat.le_total a.rank b.rank

namespace AdminGeoFinder

variable {G E : Type} {finder : AdminGeoFinder G E} {coord : Coord} {fuel fuel' : Nat}

section Climb

def link (finder : AdminGeoFinder G E) (id : Text) : Option Text :=
  finder.admin_by_id[id]?.bind Admin.parent_id

def typeOf (finder : AdminGeoFinder G E) (id : Text) : Option ZoneType :=
  finder.admin_by_id[id]?.bind Admin.zone_type

def links (finder : AdminGeoFinder G E) : Finset Text :=
  (finder.admin_by_id.toList.filterMap (fun entry => entry.2.parent_id) ++
    finder.rtree.filterMap (fun split => split.admin.parent_id)).toFinset

theorem link_mem_links {id next : Text} (h : finder.link id = some next) :
    next ∈ finder.links := by
  obtain ⟨admin, hadmin, hnext⟩ := Option.bind_eq_some_iff.mp h
  rw [links, List.mem_toFinset, List.mem_append]
  exact .inl (List.mem_filterMap.mpr
    ⟨(id, admin), TreeMap.mem_toList_iff_getElem?_eq_some.mpr hadmin, hnext⟩)

theorem parent_mem_links {candidate : SplitAdmin G E} (hc : candidate ∈ finder.rtree) {id : Text}
    (h : candidate.admin.parent_id = some id) : id ∈ finder.links := by
  rw [links, List.mem_toFinset, List.mem_append]
  exact .inr (List.mem_filterMap.mpr ⟨candidate, hc, h⟩)

variable {start : Option Text} {tested tested' : List Text} {added added' : List ZoneType}

theorem climb_some {id : Text} : finder.climb (fuel + 1) (some id) tested added =
    if tested.contains id then some (tested, (finder.typeOf id).toList ++ added)
    else finder.climb fuel (finder.link id) (id :: tested)
      ((finder.typeOf id).toList ++ added) := rfl

theorem climb_mono (hf : fuel ≤ fuel')
    (h : finder.climb fuel start tested added = some (tested', added')) :
    finder.climb fuel' start tested added = some (tested', added') := by
  induction fuel generalizing fuel' start tested added with
  | zero =>
      cases start with
      | none => simpa [climb] using h
      | some id => cases h
  | succ fuel ih =>
      obtain ⟨fuel', rfl⟩ := Nat.exists_eq_add_of_le' hf
      rw [← Nat.add_assoc]
      cases start with
      | none => simpa [climb] using h
      | some id =>
          rw [climb_some] at h ⊢
          split
          · next hc => rwa [if_pos hc] at h
          · next hc =>
            rw [if_neg hc] at h
            exact ih (by omega) h

theorem climb_nodup (h : finder.climb fuel start tested added = some (tested', added'))
    (hn : tested.Nodup) : tested'.Nodup := by
  induction fuel generalizing start tested added with
  | zero =>
      cases start with
      | none =>
          cases h
          exact hn
      | some id => cases h
  | succ fuel ih =>
      cases start with
      | none =>
          cases h
          exact hn
      | some id =>
          rw [climb_some] at h
          split at h
          · cases h
            exact hn
          · next hc => exact ih h (List.nodup_cons.mpr ⟨by simpa using hc, hn⟩)

-- Each turn takes one more of the ids that a parent link can name.
theorem climb_returns {links : Finset Text}
    (hclosed : ∀ id next, finder.link id = some next → next ∈ links)
    (hstart : ∀ id, start = some id → id ∈ links) (hfuel : (links \ tested.toFinset).card < fuel) :
    ∃ sets, finder.climb fuel start tested added = some sets := by
  induction fuel generalizing start tested added with
  | zero => exact absurd hfuel (Nat.not_lt_zero _)
  | succ fuel ih =>
      cases start with
      | none => exact ⟨_, rfl⟩
      | some id =>
          rw [climb_some]
          split
          · exact ⟨_, rfl⟩
          · next hc =>
            refine ih (fun next hnext => hclosed id next hnext) ?_
            refine Nat.lt_of_lt_of_le (Finset.card_lt_card ?_) (Nat.lt_succ_iff.mp hfuel)
            have hid : id ∉ tested := by simpa using hc
            refine Finset.ssubset_iff_of_subset ?_ |>.mpr ⟨id, ?_, ?_⟩
            · exact Finset.sdiff_subset_sdiff (Finset.Subset.refl _) (by simp)
            · simp [hstart id rfl, hid]
            · simp

-- The marks hold all that the tested ids reach, but for the id that comes next.
structure Pending (finder : AdminGeoFinder G E) (start : Option Text) (tested : List Text)
    (added : List ZoneType) : Prop where
  closed : ∀ id ∈ tested, ∀ next, finder.link id = some next → next ∈ tested ∨ start = some next
  marked : ∀ id ∈ tested, ∀ zt, finder.typeOf id = some zt → zt ∈ added

theorem Pending.step {id : Text} (h : Pending finder (some id) tested added) :
    Pending finder (finder.link id) (id :: tested) ((finder.typeOf id).toList ++ added) := by
  constructor
  · rintro a ha next hnext
    rcases List.mem_cons.mp ha with rfl | ha
    · exact .inr hnext
    · rcases h.closed a ha next hnext with hn | hn
      · exact .inl (List.mem_cons_of_mem id hn)
      · cases hn
        exact .inl List.mem_cons_self
  · rintro a ha zt hzt
    rcases List.mem_cons.mp ha with rfl | ha
    · exact List.mem_append_left added (by simp [hzt])
    · exact List.mem_append_right _ (h.marked a ha zt hzt)

theorem Pending.reached {id a : Text} (h : Pending finder (some id) tested added)
    (hid : id ∈ tested) (ha : Reached finder.link (some id) a) : a ∈ tested := by
  refine ha.subset (fun b hb => Option.some.inj hb ▸ hid) fun b next hb hnext => ?_
  rcases h.closed b hb next hnext with hn | hn
  · exact hn
  · exact Option.some.inj hn ▸ hid

theorem climb_spec (h : finder.climb fuel start tested added = some (tested', added'))
    (hp : Pending finder start tested added) :
    (∀ id, id ∈ tested' ↔ id ∈ tested ∨ Reached finder.link start id) ∧
    ∀ zt, zt ∈ added' ↔ zt ∈ added ∨
      ∃ id, Reached finder.link start id ∧ finder.typeOf id = some zt := by
  induction fuel generalizing start tested added with
  | zero =>
      cases start with
      | none =>
          cases h
          simp
      | some id => cases h
  | succ fuel ih =>
      cases start with
      | none =>
          cases h
          simp
      | some id =>
          rw [climb_some] at h
          split at h
          · next hc =>
            have hid : id ∈ tested := by simpa using hc
            cases h
            refine ⟨fun a => ⟨.inl, fun ha => ha.elim (fun h => h) (hp.reached hid)⟩, fun zt => ?_⟩
            rw [List.mem_append, Option.mem_toList]
            constructor
            · rintro (hzt | hzt)
              · exact .inr ⟨id, .here, hzt⟩
              · exact .inl hzt
            · rintro (hzt | ⟨a, ha, hzt⟩)
              · exact .inr hzt
              · exact .inr (hp.marked a (hp.reached hid ha) zt hzt)
          · obtain ⟨htested, hadded⟩ := ih h hp.step
            constructor
            · intro a
              rw [htested, reached_some, List.mem_cons, or_comm (a := a = id), or_assoc]
            · intro zt
              rw [hadded, List.mem_append, Option.mem_toList]
              constructor
              · rintro ((hzt | hzt) | ⟨a, ha, hzt⟩)
                · exact .inr ⟨id, .here, hzt⟩
                · exact .inl hzt
                · exact .inr ⟨a, .up ha, hzt⟩
              · rintro (hzt | ⟨a, ha, hzt⟩)
                · exact .inl (.inr hzt)
                · rcases reached_some.mp ha with rfl | ha
                  · exact .inl (.inl hzt)
                  · exact .inr ⟨a, ha, hzt⟩

end Climb

section Located

variable [Envelope E] {candidate : SplitAdmin G E}

def located (finder : AdminGeoFinder G E) (coord : Coord) : List (SplitAdmin G E) :=
  (finder.rtree.filter (fun cand => Envelope.containsPoint cand.envelope coord)).mergeSort
    (fun a b => zoneOrder a.admin.zone_type b.admin.zone_type)

theorem mem_located : candidate ∈ finder.located coord ↔
    candidate ∈ finder.rtree ∧ Envelope.containsPoint candidate.envelope coord := by
  rw [located, List.mem_mergeSort, List.mem_filter]

theorem located_sorted : (finder.located coord).Pairwise
    (fun a b => zoneOrder a.admin.zone_type b.admin.zone_type = true) := by
  refine List.pairwise_mergeSort ?_ ?_ _
  · exact fun a b c => zoneOrder_trans
  · exact fun a b => zoneOrder_total a.admin.zone_type b.admin.zone_type

end Located

section Pass

structure Lookup where
  tested_hierarchy : List Text
  added_zone_types : List ZoneType
  res : List Admin

variable [Areal G E]

def lookupStep (finder : AdminGeoFinder G E) (fuel : Nat) (coord : Coord) (found : Lookup)
    (candidate : SplitAdmin G E) : Option Lookup :=
  let admin := candidate.admin
  if found.tested_hierarchy.contains admin.id then some { found with res := found.res ++ [admin] }
  else if admin.zone_type.elim false found.added_zone_types.contains then some found
  else if Areal.contains candidate.boundary coord then
    (finder.climb fuel admin.parent_id found.tested_hierarchy
      (admin.zone_type.toList ++ found.added_zone_types)).map (fun sets =>
        ⟨sets.1, sets.2, found.res ++ [admin]⟩)
  else some found

variable {found found' : Lookup} {candidate : SplitAdmin G E} {candidates : List (SplitAdmin G E)}

theorem visit_eq_foldlM : (candidates.foldlM (finder.lookupStep fuel coord) found).map Lookup.res =
    (finder.visit fuel coord found.tested_hierarchy found.added_zone_types candidates).map
      (found.res ++ ·) := by
  induction candidates generalizing found with
  | nil => simp [visit]
  | cons candidate candidates ih =>
      rw [List.foldlM_cons, Option.bind_eq_bind, lookupStep, visit]
      split
      · rw [Option.bind_some, ih, Option.map_map]
        simp [Function.comp_def]
      · split
        · rw [Option.bind_some, ih]
        · split
          · cases finder.climb fuel candidate.admin.parent_id found.tested_hierarchy
              (candidate.admin.zone_type.toList ++ found.added_zone_types) with
            | none => rfl
            | some sets =>
                rw [Option.map_some, Option.bind_some, Option.bind_some, ih, Option.map_map]
                simp [Function.comp_def]
          · rw [Option.bind_some, ih]

theorem lookupStep_mono (hf : fuel ≤ fuel')
    (h : finder.lookupStep fuel coord found candidate = some found') :
    finder.lookupStep fuel' coord found candidate = some found' := by
  simp only [lookupStep] at h ⊢
  split
  · next hc => rwa [if_pos hc] at h
  · next hc =>
    rw [if_neg hc] at h
    split
    · next ht => rwa [if_pos ht] at h
    · next ht =>
      rw [if_neg ht] at h
      split
      · next hb =>
        rw [if_pos hb] at h
        obtain ⟨sets, hsets, rfl⟩ := Option.map_eq_some_iff.mp h
        rw [climb_mono hf hsets, Option.map_some]
      · next hb => rwa [if_neg hb] at h

theorem lookupStep_nodup (hn : found.tested_hierarchy.Nodup)
    (h : finder.lookupStep fuel coord found candidate = some found') :
    found'.tested_hierarchy.Nodup := by
  simp only [lookupStep] at h
  split at h
  · cases h
    exact hn
  · split at h
    · cases h
      exact hn
    · split at h
      · obtain ⟨sets, hsets, rfl⟩ := Option.map_eq_some_iff.mp h
        exact climb_nodup hsets hn
      · cases h
        exact hn

variable [Envelope E]

def lookup (finder : AdminGeoFinder G E) (fuel : Nat) (coord : Coord) : Option Lookup :=
  (finder.located coord).foldlM (finder.lookupStep fuel coord) ⟨[], [], []⟩

theorem get_eq_lookup : finder.get fuel coord = (finder.lookup fuel coord).map Lookup.res := by
  rw [lookup, visit_eq_foldlM]
  exact (Option.map_id' ..).symm

theorem lookup_mono (hf : fuel ≤ fuel') (h : finder.lookup fuel coord = some found) :
    finder.lookup fuel' coord = some found :=
  Loop.mono (fun _ _ _ => lookupStep_mono hf) h

theorem lookup_nodup (h : finder.lookup fuel coord = some found) :
    found.tested_hierarchy.Nodup :=
  Loop.preserves (P := fun found => found.tested_hierarchy.Nodup)
    (fun _ _ _ hn => lookupStep_nodup hn) h List.nodup_nil

theorem lookup_returns (finder : AdminGeoFinder G E) (coord : Coord) :
    ∃ found, finder.lookup (finder.links.card + 1) coord = some found := by
  refine Loop.returns fun found candidate hc => ?_
  obtain ⟨sets, hsets⟩ : ∃ sets, finder.climb (finder.links.card + 1) candidate.admin.parent_id
      found.tested_hierarchy (candidate.admin.zone_type.toList ++ found.added_zone_types) =
        some sets :=
    climb_returns (fun id next => link_mem_links) (fun id => parent_mem_links (mem_located.mp hc).1)
      (Nat.lt_succ_of_le (Finset.card_le_card Finset.sdiff_subset))
  simp only [lookupStep, hsets, Option.map_some]
  split
  · exact ⟨_, rfl⟩
  · split
    · exact ⟨_, rfl⟩
    · split
      · exact ⟨_, rfl⟩
      · exact ⟨_, rfl⟩

theorem get_terminates (finder : AdminGeoFinder G E) (coord : Coord) :
    ∃ n found, (∀ fuel, n ≤ fuel → finder.lookup fuel coord = some found ∧
      finder.get fuel coord = some found.res) ∧ found.tested_hierarchy.Nodup := by
  obtain ⟨found, hfound⟩ := lookup_returns finder coord
  refine ⟨finder.links.card + 1, found, fun fuel hf => ?_, lookup_nodup hfound⟩
  have hmono := lookup_mono hf hfound
  exact ⟨hmono, by rw [get_eq_lookup, hmono, Option.map_some]⟩

end Pass

end AdminGeoFinder

end Mimirsbrunn
