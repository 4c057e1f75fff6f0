import Mimirsbrunn.Library.Entries
import Mimirsbrunn.Places.AdminGeoFinder

namespace Mimirsbrunn
open Regex Std

namespace AdminGeoFinder

variable {G E : Type} {finder : AdminGeoFinder G E} {entries : List (SplitAdmin G E)}

def entryId (split : SplitAdmin G E) : Text := split.admin.id

theorem nodup_of_candidates {located : List (SplitAdmin G E)} {result : List Admin}
    {le : SplitAdmin G E → SplitAdmin G E → Bool} (hn : (finder.rtree.map entryId).Nodup)
    (hl : located.Sublist finder.rtree)
    (hr : result.Sublist ((located.mergeSort le).map SplitAdmin.admin)) :
    (result.map Admin.id).Nodup := by
  have hids : ((located.mergeSort le).map SplitAdmin.admin).map Admin.id =
      (located.mergeSort le).map entryId := List.map_map
  refine List.Nodup.sublist (hr.map Admin.id) ?_
  rw [hids, ((List.mergeSort_perm located le).map entryId).nodup_iff]
  exact hn.sublist (hl.map entryId)

-- The order in which a tree gives its elements is its own.
structure Rearranged (finder finder' : AdminGeoFinder G E) : Prop where
  rtree : finder'.rtree.Perm finder.rtree
  admin_by_id : finder'.admin_by_id = finder.admin_by_id

theorem Rearranged.nodup {finder' : AdminGeoFinder G E} (h : Rearranged finder finder')
    (hn : (finder.rtree.map entryId).Nodup) : (finder'.rtree.map entryId).Nodup :=
  (h.rtree.map entryId).nodup_iff.mpr hn

structure Holds (finder : AdminGeoFinder G E) (entries : List (SplitAdmin G E)) : Prop where
  rtree : finder.rtree = entries
  admin_by_id : ∀ id, finder.admin_by_id[id]? =
    (entries.find? (fun split => split.admin.id = id)).map SplitAdmin.admin

theorem Holds.same (h : Holds finder entries) (hn : (finder.rtree.map entryId).Nodup)
    (admin : Admin) : finder.admin_by_id[admin.id]? = some admin ↔
      ∃ split ∈ finder.rtree, split.admin = admin := by
  rw [h.admin_by_id, Option.map_eq_some_iff, h.rtree]
  rw [h.rtree] at hn
  constructor
  · rintro ⟨split, hfind, rfl⟩
    exact ⟨split, List.mem_of_find?_eq_some hfind, rfl⟩
  · rintro ⟨split, hs, rfl⟩
    have hfind : entries.find? (fun other => entryId other = entryId split) = some split :=
      Entries.find?_of_nodup hn hs
    exact ⟨split, hfind, rfl⟩

inductive Call (G : Type) where
  | insert (admin : Admin) (boundary : Option G)
  | extend (admins : List (Admin × Option G))
  | fromIter (admins : List (Admin × Option G))

variable [Areal G E]

def call (finder : AdminGeoFinder G E) : Call G → AdminGeoFinder G E
  | .insert admin boundary => finder.insert admin boundary
  | .extend admins => finder.extend admins
  | .fromIter admins => fromIter admins

def run (calls : List (Call G)) : AdminGeoFinder G E := calls.foldl call empty

def accept (admin : Admin) (boundary : Option G) : Option (SplitAdmin G E) :=
  boundary.bind (fun boundary => (Geometry.boundingRect boundary).map (fun bb =>
    ⟨bb, boundary, admin⟩))

def accepted : List (SplitAdmin G E) → Call G → List (SplitAdmin G E)
  | entries, .insert admin boundary => (accept admin boundary).toList ++ entries
  | entries, .extend admins => (admins.filterMap (fun a => accept a.1 a.2)).reverse ++ entries
  | _, .fromIter admins => (admins.filterMap (fun a => accept a.1 a.2)).reverse

def acceptedBy (calls : List (Call G)) : List (SplitAdmin G E) := calls.foldl accepted []

theorem Holds.insert (h : Holds finder entries) (admin : Admin) (boundary : Option G) :
    Holds (finder.insert admin boundary) ((accept admin boundary).toList ++ entries) := by
  rw [accept, AdminGeoFinder.insert.eq_def]
  cases boundary with
  | none => exact h
  | some boundary =>
      simp only [Option.bind_some]
      cases hbb : Geometry.boundingRect boundary with
      | none => exact h
      | some bb =>
          refine ⟨congrArg (_ :: ·) h.rtree, fun id => ?_⟩
          simp only [TreeMap.getElem?_insert, Std.compare_eq_iff_eq, Option.map_some,
            Option.toList_some, List.cons_append, List.nil_append, List.find?_cons]
          by_cases hid : admin.id = id
          · simp [hid]
          · simpa [hid] using h.admin_by_id id

theorem Holds.extend (h : Holds finder entries) (admins : List (Admin × Option G)) :
    Holds (finder.extend admins)
      ((admins.filterMap (fun a => accept a.1 a.2)).reverse ++ entries) := by
  rw [AdminGeoFinder.extend]
  induction admins generalizing finder entries with
  | nil => exact h
  | cons a admins ih =>
      have hstep := ih (h.insert a.1 a.2)
      rw [List.foldl_cons, List.filterMap_cons]
      cases ha : accept (E := E) a.1 a.2 with
      | none => simpa [ha] using hstep
      | some split => simpa [ha] using hstep

theorem Holds.call (h : Holds finder entries) (c : Call G) :
    Holds (finder.call c) (accepted entries c) := by
  cases c with
  | insert admin boundary => exact h.insert admin boundary
  | extend admins => exact h.extend admins
  | fromIter admins =>
      have hempty : Holds (empty : AdminGeoFinder G E) [] := ⟨rfl, fun id => by simp [empty]⟩
      have hnew := hempty.extend admins
      rw [List.append_nil] at hnew
      exact hnew

theorem run_holds (calls : List (Call G)) : Holds (run calls) (acceptedBy (E := E) calls) := by
  have hfold : ∀ (finder : AdminGeoFinder G E) entries, Holds finder entries →
      Holds (calls.foldl AdminGeoFinder.call finder) (calls.foldl accepted entries) := by
    induction calls with
    | nil => exact fun _ _ h => h
    | cons c calls ih => exact fun _ _ h => ih _ _ (h.call c)
  exact hfold _ _ ⟨rfl, fun id => by simp [empty]⟩

section Lookups

variable {fuel : Nat} {coord : Coord} {condition : Admin → Bool}
  {candidates : List (SplitAdmin G E)}

theorem visit_sublist {tested_hierarchy : List Text} {added_zone_types : List ZoneType}
    {result : List Admin}
    (h : finder.visit fuel coord tested_hierarchy added_zone_types candidates = some result) :
    result.Sublist (candidates.map SplitAdmin.admin) := by
  induction candidates generalizing tested_hierarchy added_zone_types result with
  | nil =>
      obtain rfl := Option.some.inj h
      exact .slnil
  | cons candidate candidates ih =>
      simp only [visit] at h
      split at h
      · obtain ⟨rest, hrest, rfl⟩ := Option.map_eq_some_iff.mp h
        exact (ih hrest).cons_cons _
      · split at h
        · exact (ih h).cons _
        · split at h
          · obtain ⟨sets, _, hsets⟩ := Option.bind_eq_some_iff.mp h
            obtain ⟨rest, hrest, rfl⟩ := Option.map_eq_some_iff.mp hsets
            exact (ih hrest).cons_cons _
          · exact (ih h).cons _

theorem heads_sublist {visited_ids : List Text} {branches : List (List Admin)}
    (h : finder.branches fuel coord visited_ids candidates = some branches) :
    (branches.filterMap List.head?).Sublist (candidates.map SplitAdmin.admin) := by
  induction candidates generalizing visited_ids branches with
  | nil =>
      obtain rfl := Option.some.inj h
      exact .slnil
  | cons cand candidates ih =>
      simp only [AdminGeoFinder.branches] at h
      split at h
      · obtain ⟨up, _, hup⟩ := Option.bind_eq_some_iff.mp h
        obtain ⟨rest, hrest, rfl⟩ := Option.map_eq_some_iff.mp hup
        exact (ih hrest).cons_cons _
      · exact (ih h).cons _

variable [Envelope E]

theorem get_nodup (hn : (finder.rtree.map entryId).Nodup) {result : List Admin}
    (h : finder.get fuel coord = some result) : (result.map Admin.id).Nodup :=
  nodup_of_candidates hn List.filter_sublist (visit_sublist h)

theorem getAdminsIf_heads_nodup (hn : (finder.rtree.map entryId).Nodup)
    {branches : List (List Admin)} (h : finder.getAdminsIf fuel coord condition = some branches) :
    ((branches.filterMap List.head?).map Admin.id).Nodup :=
  nodup_of_candidates hn (List.filter_sublist.trans List.filter_sublist) (heads_sublist h)

end Lookups

structure OneEntryPerId [Envelope E] (finder : AdminGeoFinder G E)
    (entries : List (SplitAdmin G E)) : Prop where
  same : ∀ admin, finder.admin_by_id[admin.id]? = some admin ↔
    ∃ split ∈ finder.rtree, split.admin = admin
  one : (finder.rtree.map entryId).Nodup
  last : ∀ id, finder.admin_by_id[id]? =
    (entries.find? (fun split => split.admin.id = id)).map SplitAdmin.admin
  get : ∀ finder', Rearranged finder finder' → ∀ fuel coord result,
    finder'.get fuel coord = some result → (result.map Admin.id).Nodup
  heads : ∀ finder', Rearranged finder finder' → ∀ fuel coord condition branches,
    finder'.getAdminsIf fuel coord condition = some branches →
      ((branches.filterMap List.head?).map Admin.id).Nodup
  admins : ∀ finder', Rearranged finder finder' →
    (finder'.admins.map (fun a => a.1.id)).Nodup

theorem one_entry_per_id_iff [Envelope E] (calls : List (Call G)) :
    OneEntryPerId (run calls) (acceptedBy (E := E) calls) ↔
      ((acceptedBy (E := E) calls).map (fun split => split.admin.id)).Nodup := by
  have hrun := run_holds (E := E) calls
  constructor
  · intro h
    rw [← hrun.rtree]
    exact h.one
  · intro hn
    rw [← hrun.rtree] at hn
    refine ⟨hrun.same hn, hn, hrun.admin_by_id, ?_, ?_, ?_⟩
    · exact fun finder' harr _ _ _ h => get_nodup (harr.nodup hn) h
    · exact fun finder' harr _ _ _ _ h => getAdminsIf_heads_nodup (harr.nodup hn) h
    · intro finder' harr
      rw [AdminGeoFinder.admins, List.map_map]
      exact harr.nodup hn

end AdminGeoFinder

def lilleTwice : AdminGeoFinder.Call Rectangle :=
  .fromIter [(lille, some ⟨29000000, 32000000, 505000000, 507000000⟩),
    (lille, some ⟨29000000, 31000000, 505000000, 507000000⟩)]

theorem lille_returned_twice : ¬ AdminGeoFinder.OneEntryPerId (E := Rectangle)
    (AdminGeoFinder.run [lilleTwice]) (AdminGeoFinder.acceptedBy [lilleTwice]) := by
  intro h
  have hids : (AdminGeoFinder.run (E := Rectangle) [lilleTwice]).admins.map (fun a => a.1.id) =
      [lille.id, lille.id] := rfl
  have hnodup := h.admins _ ⟨.refl _, rfl⟩
  rw [hids] at hnodup
  exact (List.nodup_cons.mp hnodup).1 List.mem_cons_self

end Mimirsbrunn
