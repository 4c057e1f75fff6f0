import Mimirsbrunn.Cosmogony.IntoAdmin
import Mimirsbrunn.Places.DecodesBack
import Mimirsbrunn.Library.Ancestry
import Mimirsbrunn.Library.Entries
import Mimirsbrunn.Library.Loop

namespace Mimirsbrunn.Places
open Regex Std Ancestry

variable {Shape Geometry Color : Type} {crates : Crates Shape Geometry Color}
variable {decimal : Text → Option Float} {langs : List Text} {flag : Bool}

def parentZone (zones : List (Zone Shape)) (zone : Zone Shape) : Option (Zone Shape) :=
  zone.parent.bind (fun id => zones.find? (fun z => z.id = id))

structure Forest (zones : List (Zone Shape)) : Prop where
  ids : (zones.map Zone.id).Nodup
  osm_ids : (zones.map Zone.osm_id).Nodup
  acyclic : ∀ z ∈ zones, ¬Above (parentZone zones) z z

structure Hung (crates : Crates Shape Geometry Color) (decimal : Text → Option Float)
    (langs : List Text) (flag : Bool) (zones : List (Zone Shape))
    (admins : List (Admin Shape Geometry)) (zone : Zone Shape) (admin : Admin Shape Geometry) :
    Prop where
  root : parentZone zones zone = none → admin.parent_id = none
  parent : ∀ above parent, parentZone zones zone = some above →
    (above, parent) ∈ zones.zip admins → admin.parent_id = some parent.id
  regions : ∃ ancestors, Chain (parentZone zones) zone ancestors ∧
    ancestors.mapM (firstAdmin crates decimal langs flag zones) = some admin.administrative_regions

def HierarchyKept (crates : Crates Shape Geometry Color) (decimal : Text → Option Float)
    (langs : List Text) (flag : Bool) (zones : List (Zone Shape)) : Prop :=
  ∃ fuel admins, indexCosmogony crates decimal langs flag fuel zones = some admins ∧
    (admins.map Admin.id).Nodup ∧
    ∀ zone admin, (zone, admin) ∈ zones.zip admins →
      Hung crates decimal langs flag zones admins zone admin

def adminId (flag : Bool) (zone : Zone Shape) : Text :=
  formatId flag zone.osm_id zone.cityInsee

theorem french_ne_osm (insee id : Text) :
    "admin:fr:".toList ++ insee ≠ "admin:osm:".toList ++ id := by
  intro h
  have := congrArg (List.take 7) h
  simp at this

theorem adminId_ne_iff {a b : Zone Shape} (hosm : a.osm_id ≠ b.osm_id) :
    adminId flag a ≠ adminId flag b ↔
      (flag = true → ∀ insee, a.cityInsee = some insee → ∀ insee', b.cityInsee = some insee' →
        insee ≠ insee') := by
  have osm : "admin:osm:".toList ++ a.osm_id ≠ "admin:osm:".toList ++ b.osm_id :=
    fun h => hosm (List.append_cancel_left h)
  rw [adminId, adminId]
  cases flag with
  | false =>
    refine iff_of_true ?_ Bool.noConfusion
    cases a.cityInsee <;> cases b.cityInsee <;> exact osm
  | true =>
    cases a.cityInsee with
    | none =>
      refine iff_of_true ?_ fun _ insee h => by cases h
      cases b.cityInsee with
      | none => exact osm
      | some insee' => exact (french_ne_osm insee' a.osm_id).symm
    | some insee =>
      cases b.cityInsee with
      | none => exact iff_of_true (french_ne_osm insee b.osm_id) fun _ _ _ insee' h => by cases h
      | some insee' =>
        constructor
        · intro h _ code hcode code' hcode' heq
          cases hcode
          cases hcode'
          exact h (by rw [heq]; rfl)
        · intro h heq
          exact h rfl insee rfl insee' rfl (List.append_cancel_left heq)

theorem adminId_nodup_iff {zones : List (Zone Shape)} (osm_ids : (zones.map Zone.osm_id).Nodup) :
    (zones.map (adminId flag)).Nodup ↔
      (flag = true → (zones.filterMap Zone.cityInsee).Nodup) := by
  rw [List.nodup_iff_pairwise_ne, List.pairwise_map] at osm_ids ⊢
  rw [List.nodup_iff_pairwise_ne, List.pairwise_filterMap]
  constructor
  · intro h hflag
    exact (osm_ids.and h).imp fun ⟨hosm, hid⟩ => (adminId_ne_iff hosm).mp hid hflag
  · intro h
    cases flag with
    | false => exact osm_ids.imp fun hosm => (adminId_ne_iff hosm).mpr Bool.noConfusion
    | true =>
      exact (osm_ids.and (h rfl)).imp fun ⟨hosm, hinsee⟩ => (adminId_ne_iff hosm).mpr fun _ => hinsee

theorem cosmogonyIdToOsmId_get {zones : List (Zone Shape)} (ids : (zones.map Zone.id).Nodup)
    (id : Nat) : (cosmogonyIdToOsmId zones)[id]? =
      (zones.find? (fun z => z.id = id)).map (fun z => (z.osm_id, z.cityInsee)) :=
  Entries.getElem?_ofList_map ids id

theorem asAdmin_spec (crates : Crates Shape Geometry Color) (decimal : Text → Option Float)
    (langs : List Text) (flag : Bool) {zones : List (Zone Shape)} (ids : (zones.map Zone.id).Nodup)
    (zone : Zone Shape) {owner : Zone Shape} (howner : owner ∈ zones) (hid : zone.id = owner.id) :
    ∃ admin, zone.asAdmin crates decimal (cosmogonyIdToOsmId zones) langs ADMIN_MAX_WEIGHT flag =
        some admin ∧
      admin.id = adminId flag owner ∧ admin.administrative_regions = [] ∧
      admin.parent_id = (parentZone zones zone).map (adminId flag) := by
  have found := cosmogonyIdToOsmId_get ids zone.id
  rw [hid, Entries.find?_key ids howner, ← hid] at found
  refine ⟨_, by rw [Zone.asAdmin, found]; rfl, rfl, rfl, ?_⟩
  simp only [parentZone]
  cases zone.parent with
  | none => rfl
  | some id =>
    rw [Option.bind_some, Option.bind_some, cosmogonyIdToOsmId_get ids, Option.map_map]
    rfl

theorem parentZone_mem {zones : List (Zone Shape)} {zone above : Zone Shape}
    (h : parentZone zones zone = some above) : above ∈ zones := by
  obtain ⟨id, _, hfind⟩ := Option.bind_eq_some_iff.mp h
  exact List.mem_of_find?_eq_some hfind

theorem firstAdmin_spec (crates : Crates Shape Geometry Color) (decimal : Text → Option Float)
    (langs : List Text) (flag : Bool) {zones : List (Zone Shape)} (ids : (zones.map Zone.id).Nodup)
    {zone : Zone Shape} (hzone : zone ∈ zones) :
    ∃ admin, firstAdmin crates decimal langs flag zones zone = some admin ∧
      admin.id = adminId flag zone ∧
      admin.parent_id = (parentZone zones zone).map (adminId flag) := by
  obtain ⟨admin, hadmin, hid, _, hparent⟩ :=
    asAdmin_spec crates decimal langs flag ids { zone with boundary := none } hzone rfl
  refine ⟨admin, ?_, hid, hparent⟩
  rw [firstAdmin, Zone.intoAdmin, hadmin]
  rfl

theorem adminsWithoutBoundaries_get (crates : Crates Shape Geometry Color)
    (decimal : Text → Option Float)
    (langs : List Text) (flag : Bool) {zones : List (Zone Shape)} (ids : (zones.map Zone.id).Nodup) :
    ∃ admins, adminsWithoutBoundaries crates decimal langs flag zones = some admins ∧
      ((zones.map (adminId flag)).Nodup → ∀ zone ∈ zones,
        admins[adminId flag zone]? = firstAdmin crates decimal langs flag zones zone) := by
  have returns : ∀ zone ∈ zones,
      ∃ admin, firstAdmin crates decimal langs flag zones zone = some admin := by
    intro zone hzone
    obtain ⟨admin, hadmin, _⟩ := firstAdmin_spec crates decimal langs flag ids hzone
    exact ⟨admin, hadmin⟩
  obtain ⟨firsts, hfirsts⟩ := Loop.mapM_returns returns
  refine ⟨_, by rw [adminsWithoutBoundaries, hfirsts, Option.map_some], fun hnodup zone hzone => ?_⟩
  have same : firsts.map Admin.id = zones.map (adminId flag) := by
    refine Loop.map_eq_of_mapM hfirsts fun z hz admin hadmin => ?_
    obtain ⟨admin', hadmin', hid, _⟩ := firstAdmin_spec crates decimal langs flag ids hz
    rw [hadmin] at hadmin'
    cases hadmin'
    exact hid
  obtain ⟨admin, hmem, hadmin⟩ := Loop.mem_of_mapM hfirsts hzone
  obtain ⟨_, hadmin', hid, _⟩ := firstAdmin_spec crates decimal langs flag ids hzone
  rw [hadmin] at hadmin'
  cases hadmin'
  rw [← same] at hnodup
  have get : (ExtTreeMap.ofList (firsts.map (fun a => (a.id, a))) : ExtTreeMap Text _)[admin.id]? =
      (firsts.find? (fun a => a.id = admin.id)).map (fun a => a) :=
    Entries.getElem?_ofList_map hnodup admin.id
  rw [Entries.find?_key hnodup hmem] at get
  rw [hadmin, ← hid]
  exact get

theorem parentIds_chain {zones : List (Zone Shape)} (ids : (zones.map Zone.id).Nodup)
    {admins : ExtTreeMap Text (Admin Shape Geometry)}
    (get : ∀ zone ∈ zones,
      admins[adminId flag zone]? = firstAdmin crates decimal langs flag zones zone)
    {zone : Zone Shape} {ancestors : List (Zone Shape)}
    (chain : Chain (parentZone zones) zone ancestors) {fuel : Nat}
    (hfuel : ancestors.length ≤ fuel) :
    Zone.parentIds admins fuel ((parentZone zones zone).map (adminId flag)) =
      some (ancestors.map (adminId flag)) := by
  induction chain generalizing fuel with
  | root h => rw [h, Option.map_none, Zone.parentIds, List.map_nil]
  | @step zone above rest h _ ih =>
    obtain ⟨fuel, rfl⟩ := Nat.exists_eq_add_one_of_ne_zero
      (Nat.ne_of_gt (Nat.lt_of_lt_of_le (Nat.succ_pos _) hfuel))
    have hmem := parentZone_mem h
    obtain ⟨admin, hadmin, _, hparent⟩ := firstAdmin_spec crates decimal langs flag ids hmem
    rw [h, Option.map_some, Zone.parentIds, get above hmem, hadmin]
    dsimp only
    rw [hparent, ih (Nat.le_of_succ_le_succ hfuel)]
    rfl

theorem intoAdmin_chain {zones : List (Zone Shape)} (ids : (zones.map Zone.id).Nodup)
    {admins : ExtTreeMap Text (Admin Shape Geometry)}
    (get : ∀ zone ∈ zones,
      admins[adminId flag zone]? = firstAdmin crates decimal langs flag zones zone)
    {zone : Zone Shape} (hzone : zone ∈ zones) {ancestors : List (Zone Shape)}
    (chain : Chain (parentZone zones) zone ancestors) {fuel : Nat}
    (hfuel : ancestors.length ≤ fuel) :
    ∃ admin, zone.intoAdmin crates decimal (cosmogonyIdToOsmId zones) langs ADMIN_MAX_WEIGHT flag
        (some admins) fuel = some admin ∧
      admin.id = adminId flag zone ∧
      admin.parent_id = (parentZone zones zone).map (adminId flag) ∧
      ancestors.mapM (firstAdmin crates decimal langs flag zones) =
        some admin.administrative_regions := by
  obtain ⟨admin, hadmin, hid, _, hparent⟩ := asAdmin_spec crates decimal langs flag ids zone hzone rfl
  have regions : (ancestors.map (adminId flag)).filterMap (admins[·]?) =
      ancestors.filterMap (firstAdmin crates decimal langs flag zones) := by
    rw [List.filterMap_map]
    exact List.filterMap_congr fun above habove =>
      get above (parentZone_mem (chain.mem habove).choose_spec)
  have climb : Zone.parentIds admins fuel admin.parent_id = some (ancestors.map (adminId flag)) := by
    rw [hparent]
    exact parentIds_chain ids get chain hfuel
  refine ⟨{ admin with
    administrative_regions := (ancestors.map (adminId flag)).filterMap (admins[·]?) }, ?_, hid,
    hparent, ?_⟩
  · simp only [Zone.intoAdmin, hadmin, Option.bind_eq_bind, Option.bind_some, climb]
    rfl
  dsimp only
  rw [regions]
  refine Loop.mapM_filterMap fun above habove => ?_
  obtain ⟨first, hfirst, _⟩ :=
    firstAdmin_spec crates decimal langs flag ids (parentZone_mem (chain.mem habove).choose_spec)
  exact ⟨first, hfirst⟩

theorem indexCosmogony_ids {zones : List (Zone Shape)} (ids : (zones.map Zone.id).Nodup)
    {fuel : Nat} {admins : List (Admin Shape Geometry)}
    (h : indexCosmogony crates decimal langs flag fuel zones = some admins) :
    admins.map Admin.id = zones.map (adminId flag) := by
  rw [indexCosmogony, Option.bind_eq_bind, Option.bind_eq_some_iff] at h
  obtain ⟨firsts, _, h⟩ := h
  refine Loop.map_eq_of_mapM h fun zone hzone admin hadmin => ?_
  obtain ⟨admin', hadmin', hid, _⟩ :=
    asAdmin_spec crates decimal langs flag ids zone hzone rfl
  simp only [Zone.intoAdmin, hadmin', Option.bind_eq_bind, Option.bind_some] at hadmin
  obtain ⟨parents, _, heq⟩ := Option.bind_eq_some_iff.mp hadmin
  cases heq
  exact hid

theorem hierarchyKept_of_nodup {zones : List (Zone Shape)} (h : Forest zones)
    (hnodup : (zones.map (adminId flag)).Nodup) :
    HierarchyKept crates decimal langs flag zones := by
  obtain ⟨firsts, hfirsts, get⟩ := adminsWithoutBoundaries_get crates decimal langs flag h.ids
  have get := get hnodup
  have closed : ∀ a b, parentZone zones a = some b → b ∈ zones := fun _ _ => parentZone_mem
  obtain ⟨fuel, hfuel⟩ : ∃ fuel, ∀ zone ∈ zones, ∃ ancestors,
      Chain (parentZone zones) zone ancestors ∧ ancestors.length ≤ fuel := by
    refine Loop.exists_bound ?_ fun zone _ => ?_
    · rintro zone m n hmn ⟨ancestors, chain, hlength⟩
      exact ⟨ancestors, chain, hlength.trans hmn⟩
    · obtain ⟨ancestors, chain⟩ := exists_chain h.acyclic closed zone
      exact ⟨ancestors.length, ancestors, chain, Nat.le_refl _⟩
  have returns : ∀ zone ∈ zones, ∃ admin, zone.intoAdmin crates decimal (cosmogonyIdToOsmId zones)
      langs ADMIN_MAX_WEIGHT flag (some firsts) fuel = some admin := by
    intro zone hzone
    obtain ⟨ancestors, chain, hlength⟩ := hfuel zone hzone
    obtain ⟨admin, hadmin, _⟩ := intoAdmin_chain h.ids get hzone chain hlength
    exact ⟨admin, hadmin⟩
  obtain ⟨admins, hadmins⟩ := Loop.mapM_returns returns
  have hindex : indexCosmogony crates decimal langs flag fuel zones = some admins := by
    rw [indexCosmogony, hfirsts]
    exact hadmins
  have same := indexCosmogony_ids h.ids hindex
  refine ⟨fuel, admins, hindex, same ▸ hnodup, fun zone admin hpair => ?_⟩
  have hzone := (List.of_mem_zip hpair).1
  obtain ⟨ancestors, chain, hlength⟩ := hfuel zone hzone
  obtain ⟨admin', hadmin', hid, hparent, hregions⟩ :=
    intoAdmin_chain h.ids get hzone chain hlength
  rw [Loop.mem_zip_of_mapM hadmins hpair] at hadmin'
  cases hadmin'
  refine ⟨fun hroot => by rw [hparent, hroot]; rfl, fun above parent habove hzip => ?_,
    ancestors, chain, hregions⟩
  have habove_mem := (List.of_mem_zip hzip).1
  obtain ⟨above_ancestors, above_chain, above_length⟩ := hfuel above habove_mem
  obtain ⟨parent', hparent', above_id, _⟩ :=
    intoAdmin_chain h.ids get habove_mem above_chain above_length
  rw [Loop.mem_zip_of_mapM hadmins hzip] at hparent'
  cases hparent'
  rw [hparent, habove, above_id]
  rfl

theorem hierarchy_kept_iff (crates : Crates Shape Geometry Color)
    (decimal : Text → Option Float) (langs : List Text) (flag : Bool) (zones : List (Zone Shape))
    (h : Forest zones) :
    HierarchyKept crates decimal langs flag zones ↔
      (flag = true → (zones.filterMap Zone.cityInsee).Nodup) := by
  rw [← adminId_nodup_iff h.osm_ids]
  constructor
  · rintro ⟨fuel, admins, hindex, hnodup, _⟩
    rwa [indexCosmogony_ids h.ids hindex] at hnodup
  · exact hierarchyKept_of_nodup h

def nord : Zone Shape where
  id := 0
  osm_id := "relation:7400".toList
  admin_level := some 6
  zone_type := some .StateDistrict
  name := "Nord".toList
  label := "Nord, France".toList
  center := none
  boundary := none
  bbox := none
  tags := ∅
  center_tags := ∅
  parent := none
  international_labels := ∅

def lille : Zone Shape :=
  { nord with
    id := 1
    osm_id := "relation:58404".toList
    admin_level := some 8
    zone_type := some .City
    name := "Lille".toList
    label := "Lille (59000), Nord, France".toList
    tags := ExtTreeMap.ofList [("ref:INSEE".toList, "59350".toList)]
    parent := some 0 }

-- A part of the city that is itself a city, with the INSEE code of the first.
def lomme : Zone Shape :=
  { lille with
    id := 2
    osm_id := "relation:58405".toList
    name := "Lomme".toList
    label := "Lomme (59160), Nord, France".toList
    parent := some 1 }

theorem sampleForest : Forest ([nord, lille] : List (Zone Unit)) where
  ids := by decide
  osm_ids := by decide
  acyclic := by
    refine acyclic_of_rank Zone.id (fun _ _ => parentZone_mem) fun z hz above h => ?_
    rcases List.mem_pair.mp hz with rfl | rfl
    · cases h
    · cases h
      decide

theorem lille_hangs_under_nord :
    HierarchyKept plainCrates (fun _ => none) [] true [nord, lille] :=
  (hierarchy_kept_iff plainCrates (fun _ => none) [] true [nord, lille] sampleForest).mpr
    (fun _ => by decide)

theorem parentIds_loop {admins : ExtTreeMap Text (Admin Shape Geometry)} {id : Text}
    {admin : Admin Shape Geometry} (h : admins[id]? = some admin)
    (own : admin.parent_id = some id) (fuel : Nat) :
    Zone.parentIds admins fuel (some id) = none := by
  induction fuel with
  | zero => rfl
  | succ fuel ih => simp only [Zone.parentIds, h, own, ih, Option.map_none]

-- The admin of the part takes the place of the city's in the map and is its own parent there.
theorem lomme_climbs_for_ever :
    Forest ([nord, lille, lomme] : List (Zone Unit)) ∧
      (∀ fuel, indexCosmogony plainCrates (fun _ => none) [] true fuel [nord, lille, lomme] =
        none) ∧
      ¬HierarchyKept plainCrates (fun _ => none) [] true [nord, lille, lomme] := by
  have never (fuel : Nat) :
      indexCosmogony plainCrates (fun _ => none) [] true fuel [nord, lille, lomme] = none := by
    have own : (adminsWithoutBoundaries plainCrates (fun _ => none) [] true
        [nord, lille, lomme]).bind (fun admins => (admins["admin:fr:59350".toList]?).map
          (fun admin => admin.parent_id)) = some (some "admin:fr:59350".toList) := by
      decide +kernel
    obtain ⟨firsts, hfirsts, hown⟩ := Option.bind_eq_some_iff.mp own
    obtain ⟨first, hget, hparent⟩ := Option.map_eq_some_iff.mp hown
    rw [indexCosmogony, hfirsts, Option.bind_eq_bind, Option.bind_some,
      Option.eq_none_iff_forall_not_mem]
    intro admins hadmins
    obtain ⟨admin, _, hadmin⟩ := Loop.mem_of_mapM hadmins
      (show lomme ∈ [nord, lille, lomme] by simp)
    obtain ⟨part, hpart, _, _, hid⟩ := asAdmin_spec plainCrates (fun _ => none) [] true
      (show ([nord, lille, lomme].map Zone.id).Nodup by decide) lomme
      (show lomme ∈ [nord, lille, lomme] by simp) rfl
    have hid : part.parent_id = some "admin:fr:59350".toList := hid
    simp only [Zone.intoAdmin, hpart, hid, parentIds_loop hget hparent, Option.bind_eq_bind,
      Option.bind_some, Option.bind_none] at hadmin
    cases hadmin
  refine ⟨⟨by decide, by decide, ?_⟩, never, ?_⟩
  · refine acyclic_of_rank Zone.id (fun _ _ => parentZone_mem) fun z hz above h => ?_
    simp only [List.mem_cons, List.not_mem_nil, or_false] at hz
    rcases hz with rfl | rfl | rfl <;> cases h <;> decide
  · rintro ⟨fuel, admins, hindex, _⟩
    rw [never fuel] at hindex
    cases hindex

end Mimirsbrunn.Places
