import Mimirsbrunn.Library.Greedy
import Mimirsbrunn.Places.Lookup

namespace Mimirsbrunn
open Regex Std Ancestry Greedy

namespace AdminGeoFinder

variable {G E : Type} [Areal G E] {finder : AdminGeoFinder G E} {coord : Coord} {fuel : Nat}

structure DistinctIds (finder : AdminGeoFinder G E) : Prop where
  filled : ∃ calls : List (Call G), Rearranged (run calls) finder
  nodup : (finder.rtree.map entryId).Nodup

section Stored

variable {split split' : SplitAdmin G E} {admin above : Admin} {id : Text}

theorem accept_envelope {boundary : Option G} (h : accept admin boundary = some split) :
    Geometry.boundingRect split.boundary = some split.envelope := by
  obtain ⟨shape, _, hshape⟩ := Option.bind_eq_some_iff.mp h
  obtain ⟨bb, hbb, rfl⟩ := Option.map_eq_some_iff.mp hshape
  exact hbb

theorem acceptedBy_envelope {calls : List (Call G)} (h : split ∈ acceptedBy calls) :
    Geometry.boundingRect split.boundary = some split.envelope := by
  induction calls using List.reverseRecOn with
  | nil => cases h
  | append_singleton calls c ih =>
      rw [acceptedBy, List.foldl_append] at h
      cases c with
      | insert admin boundary =>
          rcases List.mem_append.mp h with h | h
          · exact accept_envelope (Option.mem_toList.mp h)
          · exact ih h
      | extend admins =>
          rcases List.mem_append.mp h with h | h
          · obtain ⟨a, _, ha⟩ := List.mem_filterMap.mp (List.mem_reverse.mp h)
            exact accept_envelope ha
          · exact ih h
      | fromIter admins =>
          obtain ⟨a, _, ha⟩ := List.mem_filterMap.mp (List.mem_reverse.mp h)
          exact accept_envelope ha

theorem DistinctIds.envelope (h : DistinctIds finder) (hs : split ∈ finder.rtree) :
    Geometry.boundingRect split.boundary = some split.envelope := by
  obtain ⟨calls, harr⟩ := h.filled
  exact acceptedBy_envelope ((run_holds calls).rtree ▸ harr.rtree.mem_iff.mp hs)

theorem DistinctIds.stored_iff (h : DistinctIds finder) :
    finder.admin_by_id[id]? = some admin ↔
      admin.id = id ∧ ∃ split ∈ finder.rtree, split.admin = admin := by
  obtain ⟨calls, harr⟩ := h.filled
  have hrun := run_holds (E := E) calls
  have hsame := hrun.same ((harr.rtree.map entryId).nodup_iff.mp h.nodup) admin
  rw [harr.admin_by_id]
  simp only [harr.rtree.mem_iff]
  constructor
  · intro hid
    have heq : admin.id = id := by
      rw [hrun.admin_by_id, Option.map_eq_some_iff] at hid
      obtain ⟨split, hfind, rfl⟩ := hid
      simpa using List.find?_some hfind
    exact ⟨heq, hsame.mp (heq ▸ hid)⟩
  · rintro ⟨rfl, hstored⟩
    exact hsame.mpr hstored

theorem DistinctIds.stored (h : DistinctIds finder) (hs : split ∈ finder.rtree) :
    finder.admin_by_id[split.admin.id]? = some split.admin := h.stored_iff.mpr ⟨rfl, split, hs, rfl⟩

theorem DistinctIds.split_ext (h : DistinctIds finder) (hs : split ∈ finder.rtree)
    (hs' : split' ∈ finder.rtree) (heq : split.admin = split'.admin) : split = split' :=
  List.inj_on_of_nodup_map h.nodup hs hs' (congrArg Admin.id heq)

theorem DistinctIds.parentOf_iff (h : DistinctIds finder) : finder.parentOf admin = some above ↔
    admin.parent_id = some above.id ∧ ∃ split ∈ finder.rtree, split.admin = above := by
  rw [parentOf, Option.bind_eq_some_iff]
  constructor
  · rintro ⟨id, hid, habove⟩
    obtain ⟨rfl, hstored⟩ := h.stored_iff.mp habove
    exact ⟨hid, hstored⟩
  · rintro ⟨hid, hstored⟩
    exact ⟨above.id, hid, h.stored_iff.mpr ⟨rfl, hstored⟩⟩

omit [Areal G E] in
theorem above_of_reached (hr : Reached finder.link admin.parent_id id)
    (hid : finder.admin_by_id[id]? = some above) : Above finder.parentOf above admin := by
  generalize hstart : admin.parent_id = start at hr
  induction hr generalizing admin with
  | here => exact .single (Option.bind_eq_some_iff.mpr ⟨_, hstart, hid⟩)
  | @up next _ hr ih =>
      cases hnext : finder.admin_by_id[next]? with
      | none => simp [link, hnext] at hr
      | some parent =>
          refine .head (Option.bind_eq_some_iff.mpr ⟨next, hstart, hnext⟩) (ih hid ?_)
          rw [link, hnext, Option.bind_some]

theorem DistinctIds.reached_of_above (h : DistinctIds finder)
    (ha : Above finder.parentOf above admin) : Reached finder.link admin.parent_id above.id ∧
      finder.admin_by_id[above.id]? = some above := by
  induction ha using Relation.TransGen.head_induction_on with
  | single hp =>
      obtain ⟨hid, split, hs, rfl⟩ := h.parentOf_iff.mp hp
      rw [hid]
      exact ⟨.here, h.stored hs⟩
  | head hp _ ih =>
      obtain ⟨hid, split, hs, rfl⟩ := h.parentOf_iff.mp hp
      rw [hid]
      refine ⟨.up ?_, ih.2⟩
      rw [link, h.stored hs, Option.bind_some]
      exact ih.1

theorem DistinctIds.reached_iff (h : DistinctIds finder) (hs : split ∈ finder.rtree) :
    Reached finder.link admin.parent_id split.admin.id ↔
      Above finder.parentOf split.admin admin :=
  ⟨fun hr => above_of_reached hr (h.stored hs), fun ha => (h.reached_of_above ha).1⟩

theorem DistinctIds.typeOf_iff (h : DistinctIds finder) {zt : ZoneType} :
    (∃ id, Reached finder.link admin.parent_id id ∧ finder.typeOf id = some zt) ↔
      ∃ above, Above finder.parentOf above admin ∧ above.zone_type = some zt := by
  constructor
  · rintro ⟨id, hr, hzt⟩
    obtain ⟨above, hid, hzt⟩ := Option.bind_eq_some_iff.mp hzt
    exact ⟨above, above_of_reached hr hid, hzt⟩
  · rintro ⟨above, ha, hzt⟩
    obtain ⟨hr, hid⟩ := h.reached_of_above ha
    exact ⟨above.id, hr, Option.bind_eq_some_iff.mpr ⟨above, hid, hzt⟩⟩

end Stored

variable [Envelope E]

theorem DistinctIds.located_ids (h : DistinctIds finder) :
    ((finder.located coord).map entryId).Nodup := by
  rw [located, ((List.mergeSort_perm _ _).map entryId).nodup_iff]
  exact h.nodup.sublist (List.filter_sublist.map entryId)

theorem DistinctIds.located_nodup (h : DistinctIds finder) : (finder.located coord).Nodup :=
  h.located_ids.of_map entryId

def Found (coord : Coord) (split : SplitAdmin G E) : Prop :=
  Areal.contains split.boundary coord = true

def Marks (finder : AdminGeoFinder G E) (admin : Admin) (zt : ZoneType) : Prop :=
  admin.zone_type = some zt ∨ ∃ above, Above finder.parentOf above admin ∧ above.zone_type = some zt

def Brings (finder : AdminGeoFinder G E) (founder split : SplitAdmin G E) : Prop :=
  Above finder.parentOf split.admin founder.admin

def Claims (finder : AdminGeoFinder G E) (founder split : SplitAdmin G E) : Prop :=
  finder.Brings founder split ∨ ∃ zt, split.admin.zone_type = some zt ∧ finder.Marks founder.admin zt

noncomputable def foundersOf (finder : AdminGeoFinder G E) (coord : Coord)
    (seen : List (SplitAdmin G E)) : List (SplitAdmin G E) :=
  select (Found coord) finder.Claims seen

def Settled (finder : AdminGeoFinder G E) (coord : Coord) (seen : List (SplitAdmin G E))
    (split : SplitAdmin G E) : Prop := Kept (Found coord) finder.Claims finder.Brings seen split

structure Represents (finder : AdminGeoFinder G E) (coord : Coord) (seen : List (SplitAdmin G E))
    (found : Lookup) : Prop where
  tested : ∀ id, id ∈ found.tested_hierarchy ↔
    ∃ founder ∈ finder.foundersOf coord seen, Reached finder.link founder.admin.parent_id id
  added : ∀ zt, zt ∈ found.added_zone_types ↔
    ∃ founder ∈ finder.foundersOf coord seen, finder.Marks founder.admin zt
  res : ∀ admin, admin ∈ found.res ↔ ∃ split, finder.Settled coord seen split ∧ split.admin = admin

section Pass

variable {seen : List (SplitAdmin G E)} {split : SplitAdmin G E} {found found' : Lookup}

omit [Envelope E]

theorem represents_nil : Represents finder coord [] ⟨[], [], []⟩ := by
  have hnone : finder.foundersOf coord [] = [] := rfl
  refine ⟨fun id => by simp [hnone], fun zt => by simp [hnone], fun admin => ?_⟩
  refine iff_of_false List.not_mem_nil ?_
  rintro ⟨split, hs, _⟩
  exact List.not_mem_nil hs.mem

theorem Represents.tested_iff (hrep : Represents finder coord seen found) (h : DistinctIds finder)
    (hs : split ∈ finder.rtree) : split.admin.id ∈ found.tested_hierarchy ↔
      ∃ founder ∈ finder.foundersOf coord seen, finder.Brings founder split := by
  rw [hrep.tested]
  exact exists_congr fun founder => and_congr_right fun _ => h.reached_iff hs

theorem Represents.pending (hrep : Represents finder coord seen found) (h : DistinctIds finder)
    {start : Option Text} {more : List ZoneType} :
    Pending finder start found.tested_hierarchy (more ++ found.added_zone_types) := by
  constructor
  · intro id hid next hnext
    obtain ⟨founder, hf, hr⟩ := (hrep.tested id).mp hid
    refine .inl ((hrep.tested next).mpr ⟨founder, hf, hr.trans ?_⟩)
    rw [hnext]
    exact .here
  · intro id hid zt hzt
    obtain ⟨founder, hf, hr⟩ := (hrep.tested id).mp hid
    exact List.mem_append_right more ((hrep.added zt).mpr
      ⟨founder, hf, .inr (h.typeOf_iff.mp ⟨id, hr, hzt⟩)⟩)

theorem Represents.keep (hrep : Represents finder coord seen found)
    (hn : (seen ++ [split]).Nodup)
    (hs : split ∈ finder.foundersOf coord (seen ++ [split]) ∨
      ∃ founder ∈ finder.foundersOf coord seen, finder.Brings founder split) (admin : Admin) :
    admin ∈ found.res ++ [split.admin] ↔
      ∃ other, finder.Settled coord (seen ++ [split]) other ∧ other.admin = admin := by
  rw [List.mem_append, hrep.res, List.mem_singleton]
  constructor
  · rintro (⟨other, hother, rfl⟩ | rfl)
    · exact ⟨other, (kept_concat hn).mpr (.inl hother), rfl⟩
    · exact ⟨split, (kept_concat hn).mpr (.inr ⟨rfl, hs⟩), rfl⟩
  · rintro ⟨other, hother, rfl⟩
    rcases (kept_concat hn).mp hother with hother | ⟨rfl, _⟩
    · exact .inl ⟨other, hother, rfl⟩
    · exact .inr rfl

theorem Represents.skip (hrep : Represents finder coord seen found)
    (hn : (seen ++ [split]).Nodup) (hs : Found coord split →
      ∃ founder ∈ finder.foundersOf coord seen, finder.Claims founder split)
    (hb : ¬∃ founder ∈ finder.foundersOf coord seen, finder.Brings founder split) :
    Represents finder coord (seen ++ [split]) found := by
  have hsame : finder.foundersOf coord (seen ++ [split]) = finder.foundersOf coord seen :=
    select_skip hs
  refine ⟨by rw [hsame]; exact hrep.tested, by rw [hsame]; exact hrep.added, fun admin => ?_⟩
  rw [hrep.res]
  refine exists_congr fun other => and_congr_left fun _ => ?_
  refine ⟨fun hother => (kept_concat hn).mpr (.inl hother), fun hother => ?_⟩
  rcases (kept_concat hn).mp hother with hother | ⟨rfl, hf | hb'⟩
  · exact hother
  · have hfounder : other ∈ finder.foundersOf coord seen := by rwa [← hsame]
    have hseen : other ∈ seen := select_sublist.subset hfounder
    exact absurd hseen (last_fresh hn)
  · exact absurd hb' hb

theorem Represents.step (hrep : Represents finder coord seen found) (h : DistinctIds finder)
    (hn : (seen ++ [split]).Nodup) (hs : split ∈ finder.rtree)
    (hstep : finder.lookupStep fuel coord found split = some found') :
    Represents finder coord (seen ++ [split]) found' := by
  simp only [lookupStep, List.contains_iff_mem] at hstep
  split at hstep
  · next htested =>
    cases hstep
    have hb := (hrep.tested_iff h hs).mp htested
    have hsame : finder.foundersOf coord (seen ++ [split]) = finder.foundersOf coord seen :=
      select_skip fun _ => hb.imp fun _ hf => ⟨hf.1, .inl hf.2⟩
    exact ⟨by rw [hsame]; exact hrep.tested, by rw [hsame]; exact hrep.added,
      hrep.keep hn (.inr hb)⟩
  · next htested =>
    have hb := (hrep.tested_iff h hs).not.mp htested
    split at hstep
    · next htype =>
      cases hstep
      refine hrep.skip hn (fun _ => ?_) hb
      cases hzt : split.admin.zone_type with
      | none => simp [hzt] at htype
      | some zt =>
          have hadded : zt ∈ found.added_zone_types := by simpa [hzt] using htype
          obtain ⟨founder, hf, hmarks⟩ := (hrep.added zt).mp hadded
          exact ⟨founder, hf, .inr ⟨zt, hzt, hmarks⟩⟩
    · next htype =>
      split at hstep
      · next hfound =>
        obtain ⟨sets, hsets, rfl⟩ := Option.map_eq_some_iff.mp hstep
        obtain ⟨htests, hadds⟩ := climb_spec hsets (hrep.pending h)
        have hfree : ∀ founder ∈ finder.foundersOf coord seen, ¬finder.Claims founder split := by
          rintro founder hf (hbrings | ⟨zt, hzt, hmarks⟩)
          · exact hb ⟨founder, hf, hbrings⟩
          · refine htype ?_
            simpa [hzt] using (hrep.added zt).mpr ⟨founder, hf, hmarks⟩
        have htake : finder.foundersOf coord (seen ++ [split]) =
            finder.foundersOf coord seen ++ [split] := select_take hfound hfree
        refine ⟨fun id => ?_, fun zt => ?_, hrep.keep hn (.inl ?_)⟩
        · rw [htests, hrep.tested, htake]
          simp [or_and_right, exists_or]
        · rw [hadds, List.mem_append, hrep.added, h.typeOf_iff, htake, Option.mem_toList,
            or_right_comm]
          simp only [List.mem_append, List.mem_singleton, or_and_right, exists_or, exists_eq_left]
          exact or_comm
        · rw [htake]
          exact List.mem_append_right _ List.mem_cons_self
      · next hfound =>
        cases hstep
        exact hrep.skip hn (fun hf => absurd hf hfound) hb

theorem represents_foldlM (h : DistinctIds finder) (hn : seen.Nodup)
    (hs : ∀ split ∈ seen, split ∈ finder.rtree)
    (hrun : seen.foldlM (finder.lookupStep fuel coord) ⟨[], [], []⟩ = some found) :
    Represents finder coord seen found := by
  induction seen using List.reverseRecOn generalizing found with
  | nil =>
      cases hrun
      exact represents_nil
  | append_singleton seen split ih =>
      obtain ⟨before, hbefore, hstep⟩ := Loop.concat_iff.mp hrun
      have hrep := ih (List.nodup_append.mp hn).1
        (fun other ho => hs other (List.mem_append_left [split] ho)) hbefore
      exact hrep.step h hn (hs split (List.mem_append_right seen List.mem_cons_self)) hstep

end Pass

noncomputable def founders (finder : AdminGeoFinder G E) (coord : Coord) : List (SplitAdmin G E) :=
  finder.foundersOf coord (finder.located coord)

def Sooner (finder : AdminGeoFinder G E) (coord : Coord) (a b : SplitAdmin G E) : Prop :=
  Before (finder.located coord) a b

theorem mem_get_iff (h : DistinctIds finder) {result : List Admin}
    (hget : finder.get fuel coord = some result) {admin : Admin} :
    admin ∈ result ↔ ∃ split, split.admin = admin ∧ (split ∈ finder.founders coord ∨
      ∃ founder ∈ finder.founders coord, finder.Sooner coord founder split ∧
        Above finder.parentOf admin founder.admin) := by
  rw [get_eq_lookup, Option.map_eq_some_iff] at hget
  obtain ⟨found, hfound, rfl⟩ := hget
  have hrep := represents_foldlM h h.located_nodup (fun split hs => (mem_located.mp hs).1) hfound
  rw [hrep.res]
  constructor
  · rintro ⟨split, hs, rfl⟩
    exact ⟨split, rfl, hs⟩
  · rintro ⟨split, rfl, hs⟩
    exact ⟨split, hs, rfl⟩

def Returns (finder : AdminGeoFinder G E) (coord : Coord) (result : List Admin) : Prop :=
  ∃ n, ∀ fuel, n ≤ fuel → finder.get fuel coord = some result

theorem exists_returns (finder : AdminGeoFinder G E) (coord : Coord) :
    ∃ result, finder.Returns coord result := by
  obtain ⟨found, hfound⟩ := lookup_returns finder coord
  refine ⟨found.res, finder.links.card + 1, fun fuel hf => ?_⟩
  rw [get_eq_lookup, lookup_mono hf hfound, Option.map_some]

def BringsLater (finder : AdminGeoFinder G E) (coord : Coord) (founder split : SplitAdmin G E) :
    Prop := finder.Sooner coord founder split ∧ Above finder.parentOf split.admin founder.admin

section Returned

variable {split founder : SplitAdmin G E} {admin : Admin} {result : List Admin}

theorem Returns.eq_of_get (hr : finder.Returns coord result) {other : List Admin}
    (hget : finder.get fuel coord = some other) : result = other := by
  obtain ⟨n, hn⟩ := hr
  rw [get_eq_lookup, Option.map_eq_some_iff] at hget
  obtain ⟨found, hfound, rfl⟩ := hget
  have hmax := hn (max n fuel) (Nat.le_max_left n fuel)
  rw [get_eq_lookup, lookup_mono (Nat.le_max_right n fuel) hfound] at hmax
  exact (Option.some.inj hmax).symm

theorem Returns.mem_iff (hr : finder.Returns coord result) (h : DistinctIds finder) :
    admin ∈ result ↔ ∃ split, split.admin = admin ∧ (split ∈ finder.founders coord ∨
      ∃ founder ∈ finder.founders coord, finder.BringsLater coord founder split) := by
  obtain ⟨n, hn⟩ := hr
  rw [mem_get_iff h (hn n (Nat.le_refl n))]
  refine exists_congr fun split => and_congr_right ?_
  rintro rfl
  rfl

theorem Returns.nodup (hr : finder.Returns coord result) (h : DistinctIds finder) :
    result.Nodup := by
  obtain ⟨n, hn⟩ := hr
  exact (get_nodup h.nodup (hn n (Nat.le_refl n))).of_map Admin.id

theorem founder_located (h : founder ∈ finder.founders coord) :
    founder ∈ finder.located coord := select_sublist.subset h

theorem founder_found (h : founder ∈ finder.founders coord) : Found coord founder :=
  eligible_of_mem_select h

theorem founder_or_claimed (hs : split ∈ finder.located coord)
    (hfound : Areal.contains split.boundary coord = true) :
    split ∈ finder.founders coord ∨ ∃ founder ∈ finder.founders coord,
      finder.Sooner coord founder split ∧ finder.Claims founder split :=
  selected_or_claimed hs hfound

theorem Returns.mem_founder (hr : finder.Returns coord result) (h : DistinctIds finder)
    (hf : founder ∈ finder.founders coord) : founder.admin ∈ result :=
  (hr.mem_iff h).mpr ⟨founder, rfl, .inl hf⟩

theorem Returns.mem_brought (hr : finder.Returns coord result) (h : DistinctIds finder)
    (hf : founder ∈ finder.founders coord) (hb : finder.BringsLater coord founder split) :
    split.admin ∈ result :=
  (hr.mem_iff h).mpr ⟨split, rfl, .inr ⟨founder, hf, hb⟩⟩

omit [Areal G E] in
theorem sooner_of_lt {a b : SplitAdmin G E} (ha : a ∈ finder.located coord)
    (hb : b ∈ finder.located coord)
    (hlt : zoneOrder b.admin.zone_type a.admin.zone_type = false) : finder.Sooner coord a b := by
  rcases before_or ha hb with rfl | hab | hba
  · have hself := zoneOrder_total a.admin.zone_type a.admin.zone_type
    rw [Bool.or_self, hlt] at hself
    cases hself
  · exact hab
  · have hle := List.pairwise_iff_forall_sublist.mp located_sorted hba
    rw [hlt] at hle
    cases hle

end Returned

structure Sound (finder : AdminGeoFinder G E) (coord : Coord) (result : List Admin) : Prop where
  enclosed : ∀ admin ∈ result, ∃ split ∈ finder.rtree, split.admin = admin ∧
    Envelope.containsPoint split.envelope coord = true
  found : ∀ admin ∈ result, ∃ split ∈ finder.rtree, split.admin ∈ result ∧
    Areal.contains split.boundary coord = true ∧
      (admin = split.admin ∨ Above finder.parentOf admin split.admin)
  upward : ∀ admin ∈ result, ∀ split ∈ finder.rtree,
    Above finder.parentOf split.admin admin →
    zoneOrder split.admin.zone_type admin.zone_type = false →
    Envelope.containsPoint split.envelope coord = true → split.admin ∈ result

theorem get_sound (h : DistinctIds finder) (coord : Coord) :
    ∃ result, finder.Returns coord result ∧ finder.Sound coord result := by
  obtain ⟨result, hr⟩ := exists_returns finder coord
  refine ⟨result, hr, ?_, ?_, ?_⟩
  · intro admin ha
    obtain ⟨split, rfl, hs⟩ := (hr.mem_iff h).mp ha
    have hloc : split ∈ finder.located coord := by
      rcases hs with hf | ⟨founder, _, hsooner, _⟩
      · exact founder_located hf
      · exact hsooner.mem_right
    obtain ⟨hmem, hpoint⟩ := mem_located.mp hloc
    exact ⟨split, hmem, rfl, hpoint⟩
  · intro admin ha
    obtain ⟨split, rfl, hf | ⟨founder, hf, _, habove⟩⟩ := (hr.mem_iff h).mp ha
    · exact ⟨split, (mem_located.mp (founder_located hf)).1, ha, founder_found hf, .inl rfl⟩
    · exact ⟨founder, (mem_located.mp (founder_located hf)).1, hr.mem_founder h hf, founder_found hf,
        .inr habove⟩
  · intro admin ha above hmem habove hlt hpoint
    have hloc : above ∈ finder.located coord := mem_located.mpr ⟨hmem, hpoint⟩
    obtain ⟨split, rfl, hf | ⟨founder, hf, hsooner, hup⟩⟩ := (hr.mem_iff h).mp ha
    · exact hr.mem_brought h hf ⟨sooner_of_lt (founder_located hf) hloc hlt, habove⟩
    · have hlater := sooner_of_lt hsooner.mem_right hloc hlt
      exact hr.mem_brought h hf ⟨hsooner.trans h.located_nodup hlater, hup.trans habove⟩

end AdminGeoFinder

def district (id : Text) (zone_type : Option ZoneType) (parent_id : Option Text) : Admin :=
  { id := id
    level := 0
    name := id
    zip_codes := []
    zone_type := zone_type
    parent_id := parent_id
    codes := ∅ }

def square : Rectangle := ⟨0, 10, 0, 10⟩

def entangled : List (Admin × Option Rectangle) :=
  [(district "a".toList (some .State) (some "b".toList), some square),
    (district "b".toList (some .State) (some "a".toList), some square)]

theorem entangled_sound : ∃ result,
    (AdminGeoFinder.fromIter entangled).Returns ⟨5, 5⟩ result ∧
      (AdminGeoFinder.fromIter entangled).Sound ⟨5, 5⟩ result :=
  AdminGeoFinder.get_sound ⟨⟨[.fromIter entangled], .refl _, rfl⟩, by decide⟩ ⟨5, 5⟩

end Mimirsbrunn
