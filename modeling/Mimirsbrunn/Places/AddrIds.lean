import Mimirsbrunn.Places.OpenAddresses

namespace Mimirsbrunn.Places
open Regex Std

def kept (c : Char) : Bool := c != ' ' && c != '\t' && c != '\r' && c != '\n'

def dashed (c : Char) : Char := if c = '/' ∨ c = '.' ∨ c = ':' ∨ c = ';' then '-' else c

def writtenNumber (number : Text) : Text := (number.filter kept).map dashed

-- The dash that one replacement leaves is not met by the next one.
theorem dashed_eq (c : Char) : dashed c =
    let slash := if c = '/' then '-' else c
    let dot := if slash = '.' then '-' else slash
    let colon := if dot = ':' then '-' else dot
    if colon = ';' then '-' else colon := by
  rw [dashed]
  by_cases hslash : c = '/'
  · simp [hslash]
  · by_cases hdot : c = '.'
    · simp [hdot]
    · by_cases hcolon : c = ':'
      · simp [hcolon]
      · simp [hslash, hdot, hcolon]

theorem replaceSeparators_eq (number : Text) : replaceSeparators number = writtenNumber number := by
  simp only [replaceSeparators, replaceChar_nil, replaceChar_one, List.filter_filter, List.map_map,
    writtenNumber]
  refine congrArg₂ List.map (funext fun c => (dashed_eq c).symm) ?_
  refine congrArg (List.filter · number) (funext fun c => ?_)
  rw [kept]
  cases c != ' ' <;> cases c != '\t' <;> cases c != '\r' <;> cases c != '\n' <;> rfl

theorem houseNumberId_eq (b : Bano) : b.houseNumberId = writtenNumber b.house_number := by
  rw [← replaceSeparators_eq, replaceSeparators, Bano.houseNumberId]

def addrId (lon lat number : Text) : Text :=
  "addr:".toList ++ (lon ++ (";".toList ++ (lat ++ (":".toList ++ number))))

theorem append_parts (head lon mid lat stop number : Text) :
    head ++ lon ++ mid ++ lat ++ stop ++ number =
      head ++ (lon ++ (mid ++ (lat ++ (stop ++ number)))) := by
  simp only [List.append_assoc]

theorem append_suffix (head lon mid lat suffix : Text) :
    head ++ lon ++ mid ++ lat ++ suffix = head ++ (lon ++ (mid ++ (lat ++ suffix))) := by
  simp only [List.append_assoc]

theorem addrId_inj {lon lat number lon' lat' number' : Text} (hlon : ';' ∉ lon) (hlon' : ';' ∉ lon')
    (hlat : ':' ∉ lat) (hlat' : ':' ∉ lat') :
    addrId lon lat number = addrId lon' lat' number' ↔
      lon = lon' ∧ lat = lat' ∧ number = number' := by
  refine ⟨fun h => ?_, fun ⟨hlon, hlat, hnumber⟩ => by rw [hlon, hlat, hnumber]⟩
  obtain ⟨rfl, hrest⟩ := Numeral.split_at hlon hlon' (List.append_cancel_left h)
  obtain ⟨rfl, rfl⟩ := Numeral.split_at hlat hlat' hrest
  exact ⟨rfl, rfl, rfl⟩

def SameCoordinate (id_precision : Nat) (x y : Float) : Prop :=
  if 0 < id_precision then F64.roundTo id_precision x = F64.roundTo id_precision y else x = y

theorem display_separators (x : Float) : ';' ∉ F64.display x ∧ ':' ∉ F64.display x :=
  ⟨F64.notMem_display (by decide) (by decide) x, F64.notMem_display (by decide) (by decide) x⟩

theorem displayPrecision_separators (precision : Nat) (x : Float) :
    ';' ∉ F64.displayPrecision precision x ∧ ':' ∉ F64.displayPrecision precision x :=
  ⟨F64.notMem_displayPrecision (by decide) (by decide) precision x,
    F64.notMem_displayPrecision (by decide) (by decide) precision x⟩

theorem display_eq_iff {x y : Float} : F64.display x = F64.display y ↔ x = y :=
  ⟨F64.display_inj, fun h => h ▸ rfl⟩

theorem displayPrecision_eq_iff {precision : Nat} {x y : Float} :
    F64.displayPrecision precision x = F64.displayPrecision precision y ↔
      F64.roundTo precision x = F64.roundTo precision y := by
  refine ⟨F64.displayPrecision_inj, fun h => ?_⟩
  rw [F64.displayPrecision, h, ← F64.displayPrecision]

variable {Shape Geometry : Type} {formatter : Labels.Formatter} {point : Float → Float → Geometry}

theorem Bano.buildAddr_id (b : Bano) (formatter : Labels.Formatter) (display : Float → Text)
    (point : Float → Float → Geometry) (fantoir : Text) (admins : List (Admin Shape Geometry)) :
    (b.buildAddr formatter display point fantoir admins).id =
      addrId (display b.lon) (display b.lat) (writtenNumber b.house_number) := by
  rw [← houseNumberId_eq]
  exact append_parts _ _ _ _ _ _

theorem Bano.id_eq_iff {admins_from_insee : AdminFromInsee Shape Geometry}
    {admins_geofinder : Coordinate → List (Admin Shape Geometry)} {b b' : Bano}
    {addr addr' : Addr Shape Geometry}
    (h : b.intoAddr formatter F64.display point admins_from_insee admins_geofinder =
      some (.ok addr))
    (h' : b'.intoAddr formatter F64.display point admins_from_insee admins_geofinder =
      some (.ok addr')) :
    addr.id = addr'.id ↔ SameCoordinate 0 b.lon b'.lon ∧ SameCoordinate 0 b.lat b'.lat ∧
      writtenNumber b.house_number = writtenNumber b'.house_number := by
  obtain ⟨_, _, _, _, rfl⟩ := Bano.intoAddr_ok.mp h
  obtain ⟨_, _, _, _, rfl⟩ := Bano.intoAddr_ok.mp h'
  rw [Bano.buildAddr_id, Bano.buildAddr_id, SameCoordinate, SameCoordinate,
    if_neg (Nat.lt_irrefl 0), if_neg (Nat.lt_irrefl 0), ← display_eq_iff, ← display_eq_iff]
  exact addrId_inj (display_separators _).1 (display_separators _).1 (display_separators _).2
    (display_separators _).2

theorem OpenAddress.addrId_eq (o : OpenAddress) (id_precision : Nat) :
    o.addrId id_precision =
      if 0 < id_precision then
        Places.addrId (F64.displayPrecision id_precision o.lon)
          (F64.displayPrecision id_precision o.lat) (writtenNumber o.number)
      else Places.addrId (F64.display o.lon) (F64.display o.lat) (writtenNumber o.number) := by
  rw [OpenAddress.addrId, replaceSeparators_eq]
  split
  · exact append_suffix _ _ _ _ _
  · exact append_suffix _ _ _ _ _

theorem OpenAddress.id_eq_iff {admins_geofinder : Coordinate → List (Admin Shape Geometry)}
    {id_precision : Nat} {o o' : OpenAddress} {addr addr' : Addr Shape Geometry}
    (h : o.intoAddr formatter point admins_geofinder id_precision = .ok addr)
    (h' : o'.intoAddr formatter point admins_geofinder id_precision = .ok addr') :
    addr.id = addr'.id ↔ SameCoordinate id_precision o.lon o'.lon ∧
      SameCoordinate id_precision o.lat o'.lat ∧
      writtenNumber o.number = writtenNumber o'.number := by
  obtain rfl := Except.ok.inj h
  obtain rfl := Except.ok.inj h'
  rw [OpenAddress.addrId_eq, OpenAddress.addrId_eq]
  by_cases hp : 0 < id_precision
  · rw [SameCoordinate, SameCoordinate, if_pos hp, if_pos hp, if_pos hp, if_pos hp,
      ← displayPrecision_eq_iff, ← displayPrecision_eq_iff]
    exact addrId_inj (displayPrecision_separators _ _).1 (displayPrecision_separators _ _).1
      (displayPrecision_separators _ _).2 (displayPrecision_separators _ _).2
  · rw [SameCoordinate, SameCoordinate, if_neg hp, if_neg hp, if_neg hp, if_neg hp,
      ← display_eq_iff, ← display_eq_iff]
    exact addrId_inj (display_separators _).1 (display_separators _).1 (display_separators _).2
      (display_separators _).2

structure IdsTell (formatter : Labels.Formatter) (point : Float → Float → Geometry)
    (admins_from_insee : AdminFromInsee Shape Geometry)
    (admins_geofinder : Coordinate → List (Admin Shape Geometry)) : Prop where
  bano : ∀ (b b' : Bano) (addr addr' : Addr Shape Geometry),
    b.intoAddr formatter F64.display point admins_from_insee admins_geofinder = some (.ok addr) →
    b'.intoAddr formatter F64.display point admins_from_insee admins_geofinder = some (.ok addr') →
    (addr.id = addr'.id ↔ SameCoordinate 0 b.lon b'.lon ∧ SameCoordinate 0 b.lat b'.lat ∧
      writtenNumber b.house_number = writtenNumber b'.house_number)
  openaddresses : ∀ (id_precision : Nat) (o o' : OpenAddress) (addr addr' : Addr Shape Geometry),
    o.intoAddr formatter point admins_geofinder id_precision = .ok addr →
    o'.intoAddr formatter point admins_geofinder id_precision = .ok addr' →
    (addr.id = addr'.id ↔ SameCoordinate id_precision o.lon o'.lon ∧
      SameCoordinate id_precision o.lat o'.lat ∧
      writtenNumber o.number = writtenNumber o'.number)

theorem ids_tell (formatter : Labels.Formatter) (point : Float → Float → Geometry)
    (admins_from_insee : AdminFromInsee Shape Geometry)
    (admins_geofinder : Coordinate → List (Admin Shape Geometry)) :
    IdsTell formatter point admins_from_insee admins_geofinder :=
  ⟨fun _ _ _ _ h h' => Bano.id_eq_iff h h', fun _ _ _ _ _ h h' => OpenAddress.id_eq_iff h h'⟩

def bareNumber : Labels.Formatter := fun place _ => place .HouseNumber

def cornerOf (fantoir street : String) : Bano where
  id := fantoir.toList
  house_number := "1".toList
  street := street.toList
  zip := "75012".toList
  city := "Paris".toList
  src := "C+O".toList
  lat := 48
  lon := 2

def cornerAddr (fantoir street : String) : Addr Unit Coordinate :=
  (cornerOf fantoir street).buildAddr bareNumber F64.display Coordinate.mk
    ((fantoir.toList).take 10) []

theorem corner_accepted (street : String) : (cornerOf "751124535J-1" street).intoAddr bareNumber
    F64.display Coordinate.mk ∅ (fun _ => []) = some (.ok (cornerAddr "751124535J-1" street)) :=
  rfl

theorem one_id_for_two_streets : ∃ b b' : Bano, ∃ addr addr' : Addr Unit Coordinate,
    b.intoAddr bareNumber F64.display Coordinate.mk ∅ (fun _ => []) = some (.ok addr) ∧
    b'.intoAddr bareNumber F64.display Coordinate.mk ∅ (fun _ => []) = some (.ok addr') ∧
    b.street ≠ b'.street ∧ addr.id = addr'.id :=
  ⟨cornerOf "751124535J-1" "Rue Hector Malot", cornerOf "751124535J-1" "Rue de Charenton", _, _,
    corner_accepted _, corner_accepted _, by decide, by
      rw [cornerAddr, cornerAddr, Bano.buildAddr_id, Bano.buildAddr_id, cornerOf, cornerOf]⟩

end Mimirsbrunn.Places
