import Mimirsbrunn.Library.Entries
import Mimirsbrunn.Places.Codec

namespace Mimirsbrunn.Places
open Regex Std Json

variable {Shape Geometry Color : Type}

def Rect.stored (bbox : Rect) : Rect := Rect.new bbox.min bbox.max

def I18nProperties.stored (properties : I18nProperties) : I18nProperties :=
  .ofMap (ExtTreeMap.ofList properties.toEntries)

namespace Admin

mutual

def stored : Admin Shape Geometry → Admin Shape Geometry
  | admin@{ administrative_regions, .. } => { admin with
      approx_coord := none
      administrative_regions := storedAll administrative_regions
      bbox := admin.bbox.map Rect.stored
      names := admin.names.stored
      labels := admin.labels.stored
      distance := none }

def storedAll : List (Admin Shape Geometry) → List (Admin Shape Geometry)
  | [] => []
  | admin :: admins => admin.stored :: storedAll admins

end

end Admin

def Street.stored (street : Street Shape Geometry) : Street Shape Geometry :=
  { street with
    administrative_regions := street.administrative_regions.map Admin.stored
    approx_coord := none
    distance := none }

def Addr.stored (addr : Addr Shape Geometry) : Addr Shape Geometry :=
  { addr with
    street := addr.street.stored
    approx_coord := none
    distance := none }

def Address.stored : Address Shape Geometry → Address Shape Geometry
  | .Street street => .Street street.stored
  | .Addr addr => .Addr addr.stored

def Poi.stored (poi : Poi Shape Geometry) : Poi Shape Geometry :=
  { poi with
    approx_coord := none
    administrative_regions := poi.administrative_regions.map Admin.stored
    address := poi.address.map Address.stored
    names := poi.names.stored
    labels := poi.labels.stored
    distance := none }

def Line.stored (line : Line Color) : Line Color := { line with sort_order := none }

def Stop.stored (stop : Stop Shape Geometry Color) : Stop Shape Geometry Color :=
  { stop with
    approx_coord := none
    administrative_regions := stop.administrative_regions.map Admin.stored
    distance := none
    lines := stop.lines.map Line.stored }

def Place.stored : Place Shape Geometry Color → Place Shape Geometry Color
  | .Admin admin => .Admin admin.stored
  | .Street street => .Street street.stored
  | .Addr addr => .Addr addr.stored
  | .Poi poi => .Poi poi.stored
  | .Stop stop => .Stop stop.stored

def Coord.Finite (coord : Coord) : Prop := coord.lon.isFinite = true ∧ coord.lat.isFinite = true

structure Rect.Finite (bbox : Rect) : Prop where
  min_x : bbox.min.x.isFinite = true
  min_y : bbox.min.y.isFinite = true
  max_x : bbox.max.x.isFinite = true
  max_y : bbox.max.y.isFinite = true

namespace Explanation

mutual

def Finite : Explanation → Prop
  | explanation@{ details, .. } => explanation.value.isFinite = true ∧ AllFinite details

def AllFinite : List Explanation → Prop
  | [] => True
  | detail :: details => detail.Finite ∧ AllFinite details

end

end Explanation

def Context.Finite (context : Context) : Prop :=
  ∀ explanation ∈ context.explanation, explanation.Finite

variable (crates : Crates Shape Geometry Color)

def Crates.Finite (shape : Shape) : Prop := ∀ x ∈ crates.numbers shape, x.isFinite = true

namespace Admin

mutual

def Finite : Admin Shape Geometry → Prop
  | admin@{ administrative_regions, .. } =>
      admin.weight.isFinite = true ∧ admin.coord.Finite ∧
      (∀ boundary ∈ admin.boundary, crates.Finite boundary) ∧
      AllFinite administrative_regions ∧
      (∀ bbox ∈ admin.bbox, bbox.Finite) ∧ ∀ context ∈ admin.context, context.Finite

def AllFinite : List (Admin Shape Geometry) → Prop
  | [] => True
  | admin :: admins => admin.Finite ∧ AllFinite admins

end

theorem allFinite_iff (admins : List (Admin Shape Geometry)) :
    AllFinite crates admins ↔ ∀ admin ∈ admins, admin.Finite crates := by
  induction admins with
  | nil => simp [AllFinite]
  | cons admin admins ih => rw [AllFinite, ih, List.forall_mem_cons]

end Admin

structure Street.Finite (street : Street Shape Geometry) : Prop where
  administrative_regions : ∀ admin ∈ street.administrative_regions, admin.Finite crates
  weight : street.weight.isFinite = true
  coord : street.coord.Finite
  context : ∀ context ∈ street.context, context.Finite

structure Addr.Finite (addr : Addr Shape Geometry) : Prop where
  street : addr.street.Finite crates
  coord : addr.coord.Finite
  weight : addr.weight.isFinite = true
  context : ∀ context ∈ addr.context, context.Finite

def Address.Finite : Address Shape Geometry → Prop
  | .Street street => street.Finite crates
  | .Addr addr => addr.Finite crates

structure Poi.Finite (poi : Poi Shape Geometry) : Prop where
  coord : poi.coord.Finite
  administrative_regions : ∀ admin ∈ poi.administrative_regions, admin.Finite crates
  weight : poi.weight.isFinite = true
  address : ∀ address ∈ poi.address, address.Finite crates
  context : ∀ context ∈ poi.context, context.Finite

structure Stop.Finite (stop : Stop Shape Geometry Color) : Prop where
  coord : stop.coord.Finite
  administrative_regions : ∀ admin ∈ stop.administrative_regions, admin.Finite crates
  weight : stop.weight.isFinite = true
  context : ∀ context ∈ stop.context, context.Finite

def Place.Finite : Place Shape Geometry Color → Prop
  | .Admin admin => admin.Finite crates
  | .Street street => street.Finite crates
  | .Addr addr => addr.Finite crates
  | .Poi poi => poi.Finite crates
  | .Stop stop => stop.Finite crates

def Crates.Survives (value : Json Float) : Prop :=
  ∀ x ∈ value.numbers, crates.readNumber (crates.writeNumber x) = some x

variable {crates} in
theorem Crates.received_of_survives {value : Json Float} (h : crates.Survives value) :
    crates.received value = some value :=
  traverse_self value h

variable {crates} in
theorem Place.received_of_survives {place : Place Shape Geometry Color}
    (h : crates.Survives (place.encode crates)) : place.received crates = place.encode crates := by
  rw [received, Crates.received_of_survives h, Option.getD_some]

structure Crates.ReadBack : Prop where
  geometry : ∀ shape, crates.Finite shape →
    crates.readGeoJson (crates.writeGeometry (crates.fromShape shape)) =
      some (some (crates.fromShape shape))
  shape : ∀ shape, crates.Finite shape → crates.toShape (crates.fromShape shape) = some shape
  geometry_ne_null : ∀ geometry, crates.writeGeometry geometry ≠ .null
  color : ∀ color, crates.readColor (crates.writeColor color) = some color
  color_ne_null : ∀ color, crates.writeColor color ≠ .null

-- The corners of a rectangle keep their values, be they zeros of another sign.
structure Rect.Same (a b : Rect) : Prop where
  min_x : (a.min.x == b.min.x) = true
  min_y : (a.min.y == b.min.y) = true
  max_x : (a.max.x == b.max.x) = true
  max_y : (a.max.y == b.max.y) = true

theorem Rect.stored_same {bbox : Rect} (h : bbox.Finite) : bbox.stored.Same bbox := by
  have sorted {a b : Float} (ha : a.isFinite = true) (hb : b.isFinite = true) (hab : ¬b < a) :
      ((if a < b then a else b) == a) = true ∧ ((if a < b then b else a) == b) = true := by
    have ha := Floats.isNaN_of_isFinite ha
    have hb := Floats.isNaN_of_isFinite hb
    split
    case isTrue => exact ⟨Floats.beq_self ha, Floats.beq_self hb⟩
    case isFalse hlt => exact ⟨Floats.beq_of_not_lt hb ha hab hlt, Floats.beq_of_not_lt ha hb hlt hab⟩
  have x := sorted h.min_x h.max_x bbox.ordered.1
  have y := sorted h.min_y h.max_y bbox.ordered.2
  exact ⟨x.1, y.1, x.2, y.2⟩

namespace I18nProperties

theorem toEntries_keys (properties : I18nProperties) :
    properties.toEntries.map Prod.fst = properties.map Property.key := by
  rw [toEntries, List.map_map]
  rfl

theorem stored_perm {properties : I18nProperties}
    (h : (properties.map Property.key).Nodup) : properties.stored.Perm properties := by
  rw [← toEntries_keys] at h
  have entries : (ExtTreeMap.ofList properties.toEntries : StringMap).toList.Perm _ :=
    Entries.toList_ofList_perm h
  have read := entries.map (fun entry => (⟨entry.1, entry.2⟩ : Property))
  rw [toEntries, List.map_map] at read
  exact read.trans (List.Perm.of_eq (List.map_id properties))

theorem get_eq_some_iff {properties : I18nProperties}
    (h : (properties.map Property.key).Nodup) (lang value : Text) :
    properties.get lang = some value ↔ ⟨lang, value⟩ ∈ properties := by
  induction properties with
  | nil => simp [get]
  | cons p properties ih =>
    obtain ⟨key, text⟩ := p
    rw [List.map_cons, List.nodup_cons] at h
    rw [get, List.find?_cons]
    by_cases hkey : key = lang
    · have absent : (⟨lang, value⟩ : Property) ∉ properties :=
        fun hmem => h.1 (List.mem_map.mpr ⟨_, hmem, hkey.symm⟩)
      simp [hkey, absent, eq_comm]
    · have rest := ih h.2
      rw [get] at rest
      simp [hkey, rest, Ne.symm hkey]

theorem get_stored {properties : I18nProperties}
    (h : (properties.map Property.key).Nodup) (lang : Text) :
    properties.stored.get lang = properties.get lang := by
  have perm := stored_perm h
  refine Option.ext fun value => ?_
  rw [get_eq_some_iff h, get_eq_some_iff ((perm.map Property.key).nodup_iff.mpr h), perm.mem_iff]

end I18nProperties

end Mimirsbrunn.Places
