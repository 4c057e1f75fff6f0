import Mimirsbrunn.Places.Bano
import Mimirsbrunn.Places.FiledAdmins

namespace Mimirsbrunn.Places
open Regex Std

variable {Shape Geometry : Type} {formatter : Labels.Formatter} {display : Float → Text}
  {point : Float → Float → Geometry} {b : Bano} {admins found : List (Admin Shape Geometry)}
  {admins_from_insee : AdminFromInsee Shape Geometry} {admin : Admin Shape Geometry} {code : Text}
  {admins_geofinder : Coordinate → List (Admin Shape Geometry)}

theorem Bano.insee_of_ascii (hascii : Utf8.Ascii b.id) (hlen : 10 ≤ b.id.length) :
    b.insee = some (.ok (trimZeros (b.id.take 5))) := by
  rw [Bano.insee, Utf8.size_of_ascii hascii, if_pos (by omega),
    Utf8.sliceTo_of_ascii hascii (by omega), Option.map_some]

theorem Bano.fantoir_of_ascii (hascii : Utf8.Ascii b.id) (hlen : 10 ≤ b.id.length) :
    b.fantoir = some (.ok (b.id.take 10)) := by
  rw [Bano.fantoir, Utf8.size_of_ascii hascii, if_pos hlen, Utf8.sliceTo_of_ascii hascii hlen,
    Option.map_some]

def SameCommune (insee : Text) (b : Bano) : Prop := trimZeros insee = trimZeros (b.id.take 5)

-- `PartialEq` of the admins looks at their ids.
def Admin.eq (self other : Admin Shape Geometry) : Prop := self.id = other.id

structure OnlyOfLevel (admins : List (Admin Shape Geometry)) (admin : Admin Shape Geometry) :
    Prop where
  there : ∃ own ∈ admins, own.eq admin ∧ own.level = admin.level
  alone : ∀ other ∈ admins, other.level = admin.level → other.eq admin

def InseeWins (formatter : Labels.Formatter) (display : Float → Text)
    (point : Float → Float → Geometry) (b : Bano)
    (admins_from_insee : AdminFromInsee Shape Geometry)
    (admins_geofinder : Coordinate → List (Admin Shape Geometry)) (admin : Admin Shape Geometry) :
    Prop :=
  ∃ addr, b.intoAddr formatter display point admins_from_insee admins_geofinder = some (.ok addr) ∧
    OnlyOfLevel addr.street.administrative_regions admin

theorem inseeWins_of_ascii (hascii : Utf8.Ascii b.id) (hlen : 10 ≤ b.id.length) :
    InseeWins formatter display point b admins_from_insee admins_geofinder admin ↔
      OnlyOfLevel (replaceByInsee admins_from_insee (trimZeros (b.id.take 5))
        (admins_geofinder ⟨b.lon, b.lat⟩)) admin := by
  have hinsee := Bano.insee_of_ascii hascii hlen
  have hfantoir := Bano.fantoir_of_ascii hascii hlen
  constructor
  · rintro ⟨addr, haddr, honly⟩
    obtain ⟨_, insee, _, hinsee', rfl⟩ := Bano.intoAddr_ok.mp haddr
    rw [hinsee] at hinsee'
    cases hinsee'
    exact honly
  · exact fun honly => ⟨_, Bano.intoAddr_ok.mpr ⟨_, _, hfantoir, hinsee, rfl⟩, honly⟩

theorem replaceByInsee_none (h : admins_from_insee[code]? = none) :
    replaceByInsee admins_from_insee code found = found := by
  rw [replaceByInsee, h]

theorem mem_replaceByInsee {winner : Admin Shape Geometry}
    (h : admins_from_insee[code]? = some winner) :
    admin ∈ replaceByInsee admins_from_insee code found ↔
      (admin ∈ found ∧ admin.level ≠ winner.level) ∨ admin = winner := by
  rw [replaceByInsee, h, List.mem_append, List.mem_filter, bne_iff_ne, List.mem_singleton]

theorem winner_only_of_level {winner : Admin Shape Geometry}
    (h : admins_from_insee[code]? = some winner) (heq : winner.eq admin)
    (hlevel : winner.level = admin.level) :
    OnlyOfLevel (replaceByInsee admins_from_insee code found) admin where
  there := ⟨winner, (mem_replaceByInsee h).mpr (.inr rfl), heq, hlevel⟩
  alone := by
    intro other ho hsame
    rcases (mem_replaceByInsee h).mp ho with ⟨_, hne⟩ | rfl
    · exact absurd (hsame.trans hlevel.symm) hne
    · exact heq

structure FoundAlone (admins_from_insee : AdminFromInsee Shape Geometry) (code : Text)
    (found : List (Admin Shape Geometry)) (admin : Admin Shape Geometry) : Prop where
  only : OnlyOfLevel found admin
  spared : ∀ winner, admins_from_insee[code]? = some winner → winner.level ≠ admin.level

def Keyed (admins_from_insee : AdminFromInsee Shape Geometry) (code : Text)
    (admin : Admin Shape Geometry) : Prop :=
  ∃ winner, admins_from_insee[code]? = some winner ∧ winner.eq admin ∧
    winner.level = admin.level

theorem other_only_of_level {winner : Admin Shape Geometry}
    (h : admins_from_insee[code]? = some winner)
    (hne : ¬(winner.eq admin ∧ winner.level = admin.level)) :
    OnlyOfLevel (replaceByInsee admins_from_insee code found) admin ↔
      OnlyOfLevel found admin ∧ winner.level ≠ admin.level := by
  constructor
  · rintro ⟨⟨own, hown, heq, hlevel⟩, halone⟩
    rcases (mem_replaceByInsee h).mp hown with ⟨hfound, hspared⟩ | rfl
    · refine ⟨⟨⟨own, hfound, heq, hlevel⟩, fun other ho hsame => halone other ?_ hsame⟩,
        fun hw => hspared (hlevel.trans hw.symm)⟩
      exact (mem_replaceByInsee h).mpr (.inl ⟨ho, hsame.trans hlevel.symm ▸ hspared⟩)
    · exact absurd ⟨heq, hlevel⟩ hne
  · rintro ⟨⟨⟨own, hfound, heq, hlevel⟩, halone⟩, hw⟩
    refine ⟨⟨own, (mem_replaceByInsee h).mpr (.inl ⟨hfound, hlevel ▸ hw.symm⟩), heq, hlevel⟩,
      fun other ho hsame => ?_⟩
    rcases (mem_replaceByInsee h).mp ho with ⟨hother, _⟩ | rfl
    · exact halone other hother hsame
    · exact absurd hsame hw

theorem insee_wins_iff (hascii : Utf8.Ascii b.id) (hlen : 10 ≤ b.id.length)
    (hcode : SameCommune admin.insee b) :
    InseeWins formatter display point b (adminsByInsee admins) admins_geofinder admin ↔
      Keyed (adminsByInsee admins) (trimZeros admin.insee) admin ∨
      FoundAlone (adminsByInsee admins) (trimZeros admin.insee)
        (admins_geofinder ⟨b.lon, b.lat⟩) admin := by
  rw [inseeWins_of_ascii hascii hlen, ← hcode]
  cases hget : (adminsByInsee admins)[trimZeros admin.insee]? with
  | none =>
      rw [replaceByInsee_none hget]
      constructor
      · exact fun honly => .inr ⟨honly, fun _ h => by rw [hget] at h; cases h⟩
      · rintro (⟨winner, h, _⟩ | h)
        · rw [hget] at h
          cases h
        · exact h.only
  | some winner =>
      by_cases hsame : winner.eq admin ∧ winner.level = admin.level
      · exact iff_of_true (winner_only_of_level hget hsame.1 hsame.2)
          (.inl ⟨winner, hget, hsame⟩)
      · rw [other_only_of_level hget hsame]
        constructor
        · rintro ⟨honly, hlevel⟩
          exact .inr ⟨honly, fun _ h => Option.some.inj (hget.symm.trans h) ▸ hlevel⟩
        · rintro (⟨keyed, hkeyed, hmatch⟩ | h)
          · obtain rfl := Option.some.inj (hget.symm.trans hkeyed)
            exact absurd hmatch hsame
          · exact ⟨h.only, h.spared winner hget⟩

def ain : Admin Unit Coordinate :=
  { (Admin.default : Admin Unit Coordinate) with
    id := "admin:fr:01".toList
    level := 6
    name := "Ain".toList
    zone_type := some .StateDistrict }

def ambleon : Admin Unit Coordinate :=
  { (Admin.default : Admin Unit Coordinate) with
    id := "admin:fr:01006".toList
    insee := "01006".toList
    level := 8
    name := "Ambléon".toList
    zone_type := some .City
    boundary := some ()
    administrative_regions := [ain]
    parent_id := some ain.id }

def ambleonRecord : Bano where
  id := "010060005V-1".toList
  house_number := "1".toList
  street := "Rue de la Mairie".toList
  zip := "01300".toList
  city := "Ambléon".toList
  src := "OSM".toList
  lat := 0.25
  lon := 0.25

def geofinderOf (admins : List (Admin Unit Coordinate)) (coord : Coordinate) :
    List (Admin Unit Coordinate) :=
  (Geofinder.ofFinder (E := Unit) decimicro).get admins ⟨coord.x, coord.y⟩

def numberThenRoad : Labels.Formatter := fun place _ =>
  (place .HouseNumber).bind (fun hn => (place .Road).map (fun road => hn ++ " ".toList ++ road))

def wholeDegrees (x : Float) : Text := Nat.toDigits 10 x.toUInt64.toNat

theorem ambleon_ascii : Utf8.Ascii ambleonRecord.id := Utf8.ascii_of_all rfl

theorem ambleon_entry : (adminsByInsee [ambleon])[ambleon.insee]? =
    some { ambleon with boundary := none } := by
  rfl

theorem ambleon_unkeyed : (adminsByInsee [ambleon])["1006".toList]? = none := by
  rfl

theorem ambleon_found : geofinderOf [ambleon] ⟨ambleonRecord.lon, ambleonRecord.lat⟩ ≠ [] :=
  List.ne_nil_of_length_pos (by decide +kernel)

theorem geofinderOf_ambleon {coord : Coordinate} {found : Admin Unit Coordinate}
    (h : found ∈ geofinderOf [ambleon] coord) : found = filed ambleon := by
  obtain ⟨region, hregion, rfl⟩ := (Geofinder.ofFinder (E := Unit) decimicro).own _ _ found h
  rw [List.mem_singleton.mp hregion]

-- It is found without its department, with which the map holds it.
theorem ambleon_wins :
    InseeWins numberThenRoad wholeDegrees Coordinate.mk ambleonRecord (adminsByInsee [ambleon])
      (geofinderOf [ambleon]) ambleon := by
  obtain ⟨found, hfound⟩ := List.exists_mem_of_ne_nil _ ambleon_found
  refine (insee_wins_iff ambleon_ascii (by decide)
    (show SameCommune ambleon.insee ambleonRecord from rfl)).mpr
    (.inr ⟨⟨⟨found, hfound, ?_⟩, fun other ho _ => ?_⟩, fun winner h => ?_⟩)
  · rw [geofinderOf_ambleon hfound]
    exact ⟨rfl, rfl⟩
  · rw [geofinderOf_ambleon ho]
    rfl
  · rw [show trimZeros ambleon.insee = "1006".toList from by decide, ambleon_unkeyed] at h
    cases h

def elsewhere : Bano := { ambleonRecord with lon := 3 }

theorem elsewhere_ascii : Utf8.Ascii elsewhere.id := ambleon_ascii

theorem unfound_elsewhere :
    geofinderOf [ambleon] ⟨elsewhere.lon, elsewhere.lat⟩ = [] :=
  List.eq_nil_of_length_eq_zero (by decide +kernel)

theorem ambleon_missed : Utf8.Ascii elsewhere.id ∧ 10 ≤ elsewhere.id.length ∧
    (adminsByInsee [ambleon])[ambleon.insee]? = some { ambleon with boundary := none } ∧
    SameCommune ambleon.insee elsewhere ∧
    ¬InseeWins numberThenRoad wholeDegrees Coordinate.mk elsewhere (adminsByInsee [ambleon])
      (geofinderOf [ambleon]) ambleon := by
  refine ⟨elsewhere_ascii, by decide, ambleon_entry, rfl, fun hwins => ?_⟩
  obtain ⟨⟨own, hown, _⟩, _⟩ := (inseeWins_of_ascii elsewhere_ascii (by decide)).mp hwins
  have hcode : trimZeros (elsewhere.id.take 5) = "1006".toList := by decide
  rw [hcode, unfound_elsewhere, replaceByInsee_none ambleon_unkeyed] at hown
  exact List.not_mem_nil hown

end Mimirsbrunn.Places
