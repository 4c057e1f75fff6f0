import Mathlib.Data.List.Sort
import Mimirsbrunn.Places.Admin

namespace Mimirsbrunn
open Regex Std

class Envelope (E : Type) where
  containsPoint : E → Coord → Bool

class Geometry (G : Type) (E : outParam Type) where
  boundingRect : G → Option E
  intersects : G → Coord → Bool

class Areal (G : Type) (E : outParam Type) extends Geometry G E where
  contains : G → Coord → Bool

-- A bounding rectangle covers what its shape contains or touches.
class Covering (G : Type) (E : outParam Type) [Areal G E] [Envelope E] : Prop where
  contains : ∀ {boundary : G} {bb : E} {coord : Coord},
    Geometry.boundingRect boundary = some bb → Areal.contains boundary coord = true →
      Envelope.containsPoint bb coord = true
  intersects : ∀ {boundary : G} {bb : E} {coord : Coord},
    Geometry.boundingRect boundary = some bb → Geometry.intersects boundary coord = true →
      Envelope.containsPoint bb coord = true

structure SplitAdmin (G E : Type) where
  envelope : E
  boundary : G
  admin : Admin

structure AdminGeoFinder (G E : Type) where
  rtree : List (SplitAdmin G E)
  admin_by_id : TreeMap Text Admin

namespace AdminGeoFinder

variable {G E : Type}

def empty : AdminGeoFinder G E := ⟨[], ∅⟩

def parentOf (finder : AdminGeoFinder G E) (admin : Admin) : Option Admin :=
  admin.parent_id.bind (fun parent_id => finder.admin_by_id[parent_id]?)

-- The loop over the parents, which ends only when an admin without a stored parent comes.
def parents (finder : AdminGeoFinder G E) : Nat → Admin → Option (List Admin)
  | 0, _ => none
  | fuel + 1, last =>
      match finder.parentOf last with
      | some parent => (finder.parents fuel parent).map (parent :: ·)
      | none => some []

variable {finder : AdminGeoFinder G E} {coord : Coord} {fuel fuel' : Nat}

theorem parents_mono (hf : fuel ≤ fuel') {admin : Admin} {up : List Admin}
    (h : finder.parents fuel admin = some up) : finder.parents fuel' admin = some up := by
  induction fuel generalizing fuel' admin up with
  | zero => cases h
  | succ fuel ih =>
      obtain ⟨fuel', rfl⟩ := Nat.exists_eq_add_of_le' hf
      rw [← Nat.add_assoc, parents]
      simp only [parents] at h
      cases hp : finder.parentOf admin with
      | none => simpa [hp] using h
      | some parent =>
          simp only [hp, Option.map_eq_some_iff] at h ⊢
          obtain ⟨rest, hrest, rfl⟩ := h
          exact ⟨rest, ih (by omega) hrest, rfl⟩

variable [Geometry G E]

def insert (finder : AdminGeoFinder G E) (admin : Admin) : Option G → AdminGeoFinder G E
  | some boundary =>
      match Geometry.boundingRect boundary with
      | some bb =>
          { rtree := ⟨bb, boundary, admin⟩ :: finder.rtree,
            admin_by_id := finder.admin_by_id.insert admin.id admin }
      | none => finder
  | none => finder

def branches (finder : AdminGeoFinder G E) (fuel : Nat) (coord : Coord) :
    List Text → List (SplitAdmin G E) → Option (List (List Admin))
  | _, [] => some []
  | visited_ids, cand :: candidates =>
      if !visited_ids.contains cand.admin.id && Geometry.intersects cand.boundary coord then
        (finder.parents fuel cand.admin).bind (fun up =>
          (finder.branches fuel coord (visited_ids ++ up.map Admin.id) candidates).map
            ((cand.admin :: up) :: ·))
      else finder.branches fuel coord visited_ids candidates

theorem branches_mono (hf : fuel ≤ fuel') {visited_ids : List Text}
    {candidates : List (SplitAdmin G E)} {result : List (List Admin)}
    (h : finder.branches fuel coord visited_ids candidates = some result) :
    finder.branches fuel' coord visited_ids candidates = some result := by
  induction candidates generalizing visited_ids result with
  | nil => exact h
  | cons cand candidates ih =>
      simp only [branches] at h ⊢
      split
      · next hc =>
        rw [if_pos hc] at h
        obtain ⟨up, hup, hrest⟩ := Option.bind_eq_some_iff.mp h
        obtain ⟨rest, hr, rfl⟩ := Option.map_eq_some_iff.mp hrest
        rw [parents_mono hf hup, Option.bind_some, ih hr, Option.map_some]
      · next hc =>
        rw [if_neg hc] at h
        exact ih h

variable [Envelope E]

def candidates (finder : AdminGeoFinder G E) (coord : Coord) (condition : Admin → Bool) :
    List (SplitAdmin G E) :=
  ((finder.rtree.filter (fun cand => Envelope.containsPoint cand.envelope coord)).filter
    (fun cand => condition cand.admin)).mergeSort
      (fun a b => zoneOrder a.admin.zone_type b.admin.zone_type)

def getAdminsIf (finder : AdminGeoFinder G E) (fuel : Nat) (coord : Coord)
    (condition : Admin → Bool) : Option (List (List Admin)) :=
  finder.branches fuel coord [] (finder.candidates coord condition)

end AdminGeoFinder

namespace AdminGeoFinder

variable {G E : Type}

def climb (finder : AdminGeoFinder G E) :
    Nat → Option Text → List Text → List ZoneType → Option (List Text × List ZoneType)
  | _, none, tested_hierarchy, added_zone_types => some (tested_hierarchy, added_zone_types)
  | 0, some _, _, _ => none
  | fuel + 1, some id, tested_hierarchy, added_zone_types =>
      let admin_parent := finder.admin_by_id[id]?
      let added_zone_types := (admin_parent.bind Admin.zone_type).toList ++ added_zone_types
      if tested_hierarchy.contains id then some (tested_hierarchy, added_zone_types)
      else finder.climb fuel (admin_parent.bind Admin.parent_id) (id :: tested_hierarchy)
        added_zone_types

variable [Areal G E]

def visit (finder : AdminGeoFinder G E) (fuel : Nat) (coord : Coord) :
    List Text → List ZoneType → List (SplitAdmin G E) → Option (List Admin)
  | _, _, [] => some []
  | tested_hierarchy, added_zone_types, candidate :: candidates =>
      let admin := candidate.admin
      if tested_hierarchy.contains admin.id then
        (finder.visit fuel coord tested_hierarchy added_zone_types candidates).map (admin :: ·)
      else if admin.zone_type.elim false added_zone_types.contains then
        finder.visit fuel coord tested_hierarchy added_zone_types candidates
      else if Areal.contains candidate.boundary coord then
        (finder.climb fuel admin.parent_id tested_hierarchy
          (admin.zone_type.toList ++ added_zone_types)).bind (fun sets =>
            (finder.visit fuel coord sets.1 sets.2 candidates).map (admin :: ·))
      else finder.visit fuel coord tested_hierarchy added_zone_types candidates

def get [Envelope E] (finder : AdminGeoFinder G E) (fuel : Nat) (coord : Coord) :
    Option (List Admin) :=
  finder.visit fuel coord [] [] ((finder.rtree.filter (fun cand =>
    Envelope.containsPoint cand.envelope coord)).mergeSort
      (fun a b => zoneOrder a.admin.zone_type b.admin.zone_type))

def admins (finder : AdminGeoFinder G E) : List (Admin × G) :=
  finder.rtree.map (fun split => (split.admin, split.boundary))

def extend (finder : AdminGeoFinder G E) (admins : List (Admin × Option G)) :
    AdminGeoFinder G E :=
  admins.foldl (fun finder a => finder.insert a.1 a.2) finder

def fromIter (admins : List (Admin × Option G)) : AdminGeoFinder G E := empty.extend admins

end AdminGeoFinder

structure Rectangle where
  west : Int
  east : Int
  south : Int
  north : Int

def Rectangle.contains (r : Rectangle) (coord : Coord) : Bool :=
  r.west ≤ coord.lon ∧ coord.lon ≤ r.east ∧ r.south ≤ coord.lat ∧ coord.lat ≤ r.north

instance : Envelope Rectangle := ⟨Rectangle.contains⟩

instance : Geometry Rectangle Rectangle := ⟨some, Rectangle.contains⟩

instance : Areal Rectangle Rectangle := ⟨Rectangle.contains⟩

instance : Covering Rectangle Rectangle where
  contains := by
    rintro boundary bb coord ⟨⟩ h
    exact h
  intersects := by
    rintro boundary bb coord ⟨⟩ h
    exact h

def lille : Admin :=
  { id := "admin:osm:relation:58404".toList
    level := 8
    name := "Lille".toList
    zip_codes := ["59000".toList]
    zone_type := some .City
    parent_id := none
    codes := ∅ }

def lilleFinder : AdminGeoFinder Rectangle Rectangle :=
  AdminGeoFinder.empty.insert lille (some ⟨29000000, 32000000, 505000000, 507000000⟩)

end Mimirsbrunn
