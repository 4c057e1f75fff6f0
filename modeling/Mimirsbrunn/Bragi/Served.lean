import Mimirsbrunn.Bragi.Geocoding
import Mimirsbrunn.Elasticsearch.Documents
import Mimirsbrunn.Places.DecodesBack

namespace Mimirsbrunn.Places
open Regex Json

variable {Shape Geometry Color : Type} (crates : Crates Shape Geometry Color)

def NameValue.encode (code : NameValue) : Json Float :=
  .obj [("name", .str code.name), ("value", .str code.value)]

def KeyValue.encode (property : KeyValue) : Json Float :=
  .obj [("key", .str property.key), ("value", .str property.value)]

def givenAll (key : String) (items : List (Json Float)) : List (String × Json Float) :=
  given key (if items.isEmpty then none else some (.arr items))

def AssociatedAdmin.encode (admin : AssociatedAdmin) : Json Float :=
  .obj ([
      ("id", .str admin.id),
      ("insee", .str admin.insee),
      ("level", uint admin.level),
      ("label", .str admin.label),
      ("name", .str admin.name),
      ("zip_codes", .strs admin.zip_codes),
      ("coord", admin.coord.encode)] ++
    (given "bbox" (admin.bbox.map serializeRect) ++ [
      ("zone_type", ofOption (fun zone_type => .str zone_type.asStr) admin.zone_type),
      ("parent_id", ofOption .str admin.parent_id)] ++
    givenAll "codes" (admin.codes.map NameValue.encode)))

namespace GeocodeJsonProperty

mutual

def encode : GeocodeJsonProperty Color → Json Float
  | property@{ address, .. } => .obj ([
        ("id", .str property.id),
        ("type", .str property.place_type.asStr)] ++
      given "zone_type" (property.zone_type.map .str) ++ [
        ("label", ofOption .str property.label),
        ("name", ofOption .str property.name)] ++
      given "housenumber" (property.housenumber.map .str) ++
      given "street" (property.street.map .str) ++ [
        ("postcode", ofOption .str property.postcode),
        ("city", ofOption .str property.city),
        ("citycode", ofOption .str property.citycode)] ++
      given "level" (property.level.map uint) ++ [
        ("administrative_regions",
          .arr (property.administrative_regions.map AssociatedAdmin.encode))] ++
      givenAll "poi_types" (property.poi_types.map PoiType.encode) ++
      givenAll "properties" (property.properties.map KeyValue.encode) ++
      encodeAddress address ++
      givenAll "commercial_modes" (property.commercial_modes.map CommercialMode.encode) ++
      givenAll "comments" (property.comments.map Comment.encode) ++
      givenAll "physical_modes" (property.physical_modes.map PhysicalMode.encode) ++
      givenAll "lines" (property.lines.map (Line.encode crates)) ++
      given "timezone" (property.timezone.map .str) ++
      givenAll "codes" (property.codes.map NameValue.encode) ++
      givenAll "feed_publishers" (property.feed_publishers.map FeedPublisher.encode) ++
      given "bbox" (property.bbox.map serializeRect) ++
      givenAll "country_codes" (property.country_codes.map .str))

def encodeAddress : Option (GeocodeJsonProperty Color) → List (String × Json Float)
  | none => []
  | some address => [("address", address.encode)]

end

end GeocodeJsonProperty

def Feature.encode (feature : Feature Geometry Color) : Json Float :=
  .obj ([
      ("type", .str feature.feature_type),
      ("geometry", crates.writeGeometry feature.geometry),
      ("properties", .obj [("geocoding", feature.geocoding.encode crates)])] ++
    given "distance" (feature.distance.map uint))

def GeocodeJsonResponse.encode (response : GeocodeJsonResponse Geometry Color) : Json Float :=
  .obj [
    ("type", .str response.format_type),
    ("geocoding", .obj [
      ("version", .str response.version),
      ("query", ofOption .str response.query)]),
    ("features", .arr (response.features.map (Feature.encode crates)))]

section Boundary

def Place.withoutBoundary : Place Shape Geometry Color → Place Shape Geometry Color
  | .Admin admin => .Admin { admin with boundary := none }
  | place => place

theorem withoutFields_boundary (fields : List (String × Json Float)) :
    withoutFields ["boundary".toList] (.obj fields) = .obj (untagged "boundary" fields) := by
  rw [withoutFields, untagged]
  congr 1
  refine List.filter_congr fun entry _ => ?_
  rw [List.contains_eq_mem, ← decide_not]
  simp only [List.mem_singleton, String.toList_inj]

theorem withoutFields_encode (place : Place Shape Geometry Color) :
    withoutFields ["boundary".toList] (place.encode crates) =
      place.withoutBoundary.encode crates := by
  cases place with
  | Admin admin =>
    obtain ⟨id, insee, level, label, name, zip_codes, weight, approx_coord, coord, boundary,
      regions, bbox, zone_type, parent_id, country_codes, codes, names, labels, distance,
      context⟩ := admin
    rw [Place.encode, Place.withoutBoundary, Place.encode, Admin.encode, Admin.encode,
      withoutFields_boundary]
    cases boundary <;> cases bbox <;> simp [untagged, given]
  | Street street => exact (withoutFields_boundary _).trans (congrArg Json.obj (by simp [untagged]))
  | Addr addr => exact (withoutFields_boundary _).trans (congrArg Json.obj (by simp [untagged]))
  | Poi poi => exact (withoutFields_boundary _).trans (congrArg Json.obj (by simp [untagged]))
  | Stop stop => exact (withoutFields_boundary _).trans (congrArg Json.obj (by simp [untagged]))

theorem Place.withoutBoundary_finite {place : Place Shape Geometry Color}
    (h : place.Finite crates) : place.withoutBoundary.Finite crates := by
  cases place with
  | Admin admin =>
    obtain ⟨id, insee, level, label, name, zip_codes, weight, approx_coord, coord, boundary,
      regions, bbox, zone_type, parent_id, country_codes, codes, names, labels, distance,
      context⟩ := admin
    obtain ⟨hweight, hcoord, -, hregions, hbbox, hcontext⟩ := h
    exact ⟨hweight, hcoord, fun _ hb => absurd hb (Option.not_mem_none _), hregions, hbbox, hcontext⟩
  | Street street => exact h
  | Addr addr => exact h
  | Poi poi => exact h
  | Stop stop => exact h

theorem GeocodeJsonProperty.fromWithLang_withoutBoundary (place : Place Shape Geometry Color)
    (lang : Option Text) :
    fromWithLang place.withoutBoundary lang = fromWithLang place lang := by
  cases place <;> rfl

end Boundary

section Stored

def Rect.Settled (bbox : Rect) : Prop :=
  (bbox.min.x < bbox.max.x ∨ bbox.min.x = bbox.max.x) ∧
    (bbox.min.y < bbox.max.y ∨ bbox.min.y = bbox.max.y)

-- What the storage of an administrative region keeps as it is: names and labels told once for
-- each language, and a box whose corners are told apart or the same number.
structure Admin.Tidy (admin : Admin Shape Geometry) : Prop where
  names : (admin.names.map Property.key).Nodup
  labels : (admin.labels.map Property.key).Nodup
  bbox : ∀ bbox ∈ admin.bbox, bbox.Settled

def Address.admins : Address Shape Geometry → List (Admin Shape Geometry)
  | .Street street => street.administrative_regions
  | .Addr addr => addr.street.administrative_regions

def Place.admins : Place Shape Geometry Color → List (Places.Admin Shape Geometry)
  | .Admin admin => admin :: admin.administrative_regions
  | .Street street => street.administrative_regions
  | .Addr addr => addr.street.administrative_regions
  | .Poi poi => poi.administrative_regions ++ poi.address.elim [] Address.admins
  | .Stop stop => stop.administrative_regions

structure Place.Tidy (place : Place Shape Geometry Color) : Prop where
  admins : ∀ admin ∈ place.admins, admin.Tidy
  names : ∀ poi, place = .Poi poi → (poi.names.map Property.key).Nodup
  labels : ∀ poi, place = .Poi poi → (poi.labels.map Property.key).Nodup

theorem Rect.stored_of_settled {bbox : Rect} (h : bbox.Settled) : bbox.stored = bbox := by
  obtain ⟨⟨x, y⟩, ⟨x', y'⟩, ordered⟩ := bbox
  have corner {a b : Float} (hab : a < b ∨ a = b) :
      (if a < b then a else b) = a ∧ (if a < b then b else a) = b := by
    rcases hab with hlt | rfl
    · simp [hlt]
    · simp
  have hx := corner h.1
  have hy := corner h.2
  simp only [stored, Rect.new, Rect.mk.injEq, Coordinate.mk.injEq]
  exact ⟨⟨hx.1, hy.1⟩, ⟨hx.2, hy.2⟩⟩

namespace Admin

theorem storedAll_eq_map (admins : List (Admin Shape Geometry)) :
    storedAll admins = admins.map stored := by
  induction admins with
  | nil => rfl
  | cons admin admins ih => rw [storedAll, ih, List.map_cons]

variable (admin : Admin Shape Geometry)

@[simp] theorem stored_id : admin.stored.id = admin.id := by cases admin; rfl
@[simp] theorem stored_insee : admin.stored.insee = admin.insee := by cases admin; rfl
@[simp] theorem stored_level : admin.stored.level = admin.level := by cases admin; rfl
@[simp] theorem stored_label : admin.stored.label = admin.label := by cases admin; rfl
@[simp] theorem stored_name : admin.stored.name = admin.name := by cases admin; rfl
@[simp] theorem stored_zip_codes : admin.stored.zip_codes = admin.zip_codes := by cases admin; rfl
@[simp] theorem stored_coord : admin.stored.coord = admin.coord := by cases admin; rfl
@[simp] theorem stored_zone_type : admin.stored.zone_type = admin.zone_type := by cases admin; rfl
@[simp] theorem stored_parent_id : admin.stored.parent_id = admin.parent_id := by cases admin; rfl
@[simp] theorem stored_codes : admin.stored.codes = admin.codes := by cases admin; rfl
@[simp] theorem stored_country_codes : admin.stored.country_codes = admin.country_codes := by
  cases admin; rfl
@[simp] theorem stored_names : admin.stored.names = admin.names.stored := by cases admin; rfl
@[simp] theorem stored_labels : admin.stored.labels = admin.labels.stored := by cases admin; rfl
@[simp] theorem stored_bbox : admin.stored.bbox = admin.bbox.map Rect.stored := by cases admin; rfl
@[simp] theorem stored_regions : admin.stored.administrative_regions =
    admin.administrative_regions.map stored := by
  cases admin
  simp [stored, storedAll_eq_map]

@[simp] theorem stored_isCity : admin.stored.isCity = admin.isCity := by
  rw [isCity, isCity, stored_zone_type]

variable {admin}

theorem Tidy.nameIn_stored (h : admin.Tidy) (lang : Option Text) :
    admin.stored.nameIn lang = admin.nameIn lang := by
  simp only [nameIn, stored_names, stored_name]
  cases lang with
  | none => rfl
  | some lang => rw [Option.bind_some, Option.bind_some, I18nProperties.get_stored h.names]

theorem Tidy.labelIn_stored (h : admin.Tidy) (lang : Option Text) :
    admin.stored.labelIn lang = admin.labelIn lang := by
  simp only [labelIn, stored_labels, stored_label]
  cases lang with
  | none => rfl
  | some lang => rw [Option.bind_some, Option.bind_some, I18nProperties.get_stored h.labels]

theorem Tidy.bbox_stored (h : admin.Tidy) : admin.stored.bbox = admin.bbox := by
  rw [stored_bbox]
  cases hb : admin.bbox with
  | none => rfl
  | some bbox => rw [Option.map_some, Rect.stored_of_settled (h.bbox bbox hb)]

theorem find?_isCity_stored (admins : List (Admin Shape Geometry)) :
    (admins.map stored).find? isCity = (admins.find? isCity).map stored := by
  rw [List.find?_map]
  congr 2
  funext admin
  exact stored_isCity admin

theorem getCityName_stored (admins : List (Admin Shape Geometry)) :
    getCityName (admins.map stored) = getCityName admins := by
  rw [getCityName, getCityName, find?_isCity_stored, Option.map_map]
  congr 1
  funext admin
  exact stored_name admin

theorem getCitycode_stored (admins : List (Admin Shape Geometry)) :
    getCitycode (admins.map stored) = getCitycode admins := by
  rw [getCitycode, getCitycode, find?_isCity_stored, Option.map_map]
  congr 1
  funext admin
  exact stored_insee admin

end Admin

theorem AssociatedAdmin.fromWithLang_stored {admin : Admin Shape Geometry} (h : admin.Tidy)
    (lang : Option Text) : fromWithLang admin.stored lang = fromWithLang admin lang := by
  simp only [fromWithLang, h.nameIn_stored, h.labelIn_stored, h.bbox_stored, Admin.stored_id,
    Admin.stored_insee, Admin.stored_level, Admin.stored_zip_codes, Admin.stored_coord,
    Admin.stored_zone_type, Admin.stored_parent_id, Admin.stored_codes]

theorem AssociatedAdmin.map_stored {admins : List (Admin Shape Geometry)}
    (h : ∀ admin ∈ admins, admin.Tidy) (lang : Option Text) :
    (admins.map Admin.stored).map (fun a => fromWithLang a lang) =
      admins.map (fun a => fromWithLang a lang) := by
  rw [List.map_map]
  exact List.map_congr_left fun admin hadmin => fromWithLang_stored (h admin hadmin) lang

namespace GeocodeJsonProperty

variable {lang : Option Text}

theorem fromStreet_stored {street : Street Shape Geometry}
    (h : ∀ admin ∈ street.administrative_regions, admin.Tidy) :
    (fromStreet street.stored lang : GeocodeJsonProperty Color) = fromStreet street lang := by
  simp only [fromStreet, Street.stored, Admin.getCityName_stored, Admin.getCitycode_stored,
    AssociatedAdmin.map_stored h]

theorem fromAddr_stored {addr : Addr Shape Geometry}
    (h : ∀ admin ∈ addr.street.administrative_regions, admin.Tidy) :
    (fromAddr addr.stored lang : GeocodeJsonProperty Color) = fromAddr addr lang := by
  simp only [fromAddr, Addr.stored, Street.stored, Admin.getCityName_stored,
    Admin.getCitycode_stored, AssociatedAdmin.map_stored h]

theorem fromAdmin_stored {admin : Admin Shape Geometry} (h : admin.Tidy)
    (hregions : ∀ region ∈ admin.administrative_regions, region.Tidy) :
    (fromAdmin admin.stored lang : GeocodeJsonProperty Color) = fromAdmin admin lang := by
  simp only [fromAdmin, h.nameIn_stored, h.labelIn_stored, h.bbox_stored, Admin.stored_id,
    Admin.stored_insee, Admin.stored_level, Admin.stored_zip_codes, Admin.stored_zone_type,
    Admin.stored_codes, Admin.stored_country_codes, Admin.stored_regions,
    AssociatedAdmin.map_stored hregions]

theorem fromPoi_stored {poi : Poi Shape Geometry}
    (h : (Place.Poi poi : Place Shape Geometry Color).Tidy) :
    (fromPoi poi.stored lang : GeocodeJsonProperty Color) = fromPoi poi lang := by
  have hregions : ∀ admin ∈ poi.administrative_regions, admin.Tidy := fun admin hadmin =>
    h.admins admin (List.mem_append_left _ hadmin)
  have hname : poi.stored.nameIn lang = poi.nameIn lang := by
    simp only [Poi.nameIn, Poi.stored]
    cases lang with
    | none => rfl
    | some lang =>
      rw [Option.bind_some, Option.bind_some, I18nProperties.get_stored (h.names poi rfl)]
  have hlabel : poi.stored.labelIn lang = poi.labelIn lang := by
    simp only [Poi.labelIn, Poi.stored]
    cases lang with
    | none => rfl
    | some lang =>
      rw [Option.bind_some, Option.bind_some, I18nProperties.get_stored (h.labels poi rfl)]
  have haddress : ∀ address ∈ poi.address, ∀ admin ∈ address.admins, admin.Tidy :=
    fun address haddress admin hadmin => h.admins admin (List.mem_append_right _ (by
      rw [Option.mem_def.mp haddress]
      exact hadmin))
  rw [fromPoi, fromPoi, hname, hlabel]
  simp only [Poi.stored, Admin.getCityName_stored, Admin.getCitycode_stored,
    AssociatedAdmin.map_stored hregions]
  congr 1
  cases hpoi : poi.address with
  | none => rfl
  | some address =>
    cases address with
    | Street street => exact congrArg some (fromStreet_stored (haddress _ hpoi))
    | Addr addr => exact congrArg some (fromAddr_stored (haddress _ hpoi))

-- The order of a line is not written, neither into the store nor into the answer.
theorem encode_fromStop_stored {stop : Stop Shape Geometry Color}
    (h : ∀ admin ∈ stop.administrative_regions, admin.Tidy) :
    (fromStop stop.stored lang).encode crates = (fromStop stop lang).encode crates := by
  have lines : (stop.lines.map Line.stored).map (Line.encode crates) =
      stop.lines.map (Line.encode crates) := by
    rw [List.map_map]
    rfl
  simp only [fromStop, Stop.stored, encode, Admin.getCityName_stored, Admin.getCitycode_stored,
    AssociatedAdmin.map_stored h, lines]

theorem encode_stored {place : Place Shape Geometry Color} (h : place.Tidy) :
    (fromWithLang place.stored lang).encode crates = (fromWithLang place lang).encode crates := by
  cases place with
  | Admin admin =>
    rw [Place.stored, fromWithLang, fromWithLang,
      fromAdmin_stored (h.admins admin List.mem_cons_self)
        (fun region hregion => h.admins region (List.mem_cons_of_mem _ hregion))]
  | Street street => rw [Place.stored, fromWithLang, fromWithLang, fromStreet_stored h.admins]
  | Addr addr => rw [Place.stored, fromWithLang, fromWithLang, fromAddr_stored h.admins]
  | Poi poi => rw [Place.stored, fromWithLang, fromWithLang, fromPoi_stored h]
  | Stop stop => exact encode_fromStop_stored crates h.admins

end GeocodeJsonProperty

theorem Place.withoutBoundary_tidy {place : Place Shape Geometry Color} (h : place.Tidy) :
    place.withoutBoundary.Tidy := by
  cases place with
  | Admin admin =>
    refine ⟨fun region hregion => ?_, fun _ hp => (by cases hp), fun _ hp => (by cases hp)⟩
    rcases List.mem_cons.mp hregion with rfl | hregion
    · have htidy := h.admins admin List.mem_cons_self
      exact ⟨htidy.names, htidy.labels, htidy.bbox⟩
    · exact h.admins region (List.mem_cons_of_mem _ hregion)
  | Street street => exact h
  | Addr addr => exact h
  | Poi poi => exact h
  | Stop stop => exact h

theorem Place.coord_stored (place : Place Shape Geometry Color) :
    place.stored.coord = place.coord := by
  cases place with
  | Admin admin => exact admin.stored_coord
  | Street street => rfl
  | Addr addr => rfl
  | Poi poi => rfl
  | Stop stop => rfl

theorem Place.distance_stored (place : Place Shape Geometry Color) :
    place.stored.distance = none := by
  cases place with
  | Admin admin => cases admin; rfl
  | Street street => rfl
  | Addr addr => rfl
  | Poi poi => rfl
  | Stop stop => rfl

end Stored

inductive BragiBody : Json Float → Prop
  | forward {Area : Type} (writer : JsonWriter Float Area) (q : Text) (filters : Filters Float Area)
      (lang : Text) (settings : Settings.QuerySettings Float) (query_type : QueryType) :
      BragiBody (buildQuery writer q filters lang settings query_type (some ["boundary".toList]))
  | reverse {Area : Type} (writer : JsonWriter Float Area) (distance : Text) (lat lon : Float) :
      BragiBody (buildReverseQuery writer distance lat lon)
  | features {indices : List Text} {doc_id : Text} {entries : List (GetEntry Float)}
      {entry : GetEntry Float} :
      getEntries? (buildFeaturesQuery indices doc_id) = some entries → entry ∈ entries →
      BragiBody entry.body

theorem shown_of_bragi {body : Json Float} (h : BragiBody body) (source : Json Float) :
    shown body source = withoutFields ["boundary".toList] source := by
  cases h with
  | forward => rfl
  | reverse => rfl
  | features hentries hentry =>
    rw [getEntries?_buildFeaturesQuery] at hentries
    obtain rfl := Option.some.inj hentries
    obtain ⟨index, _, rfl⟩ := List.mem_map.mp hentry
    rfl

def Place.read (place : Place Shape Geometry Color) : Place Shape Geometry Color :=
  place.withoutBoundary.stored

theorem Place.coord_read (place : Place Shape Geometry Color) : place.read.coord = place.coord := by
  rw [read, coord_stored]
  cases place <;> rfl

section Read

variable {crates : Crates Shape Geometry Color} {place : Place Shape Geometry Color}
  {body : Json Float}

theorem Place.decode_withoutFields (hcrates : crates.ReadBack) (h : place.Finite crates)
    (hsurvives : crates.Survives (place.encode crates)) :
    Place.decode crates (withoutFields ["boundary".toList] (place.received crates)) =
      some place.read := by
  rw [Place.received_of_survives hsurvives, withoutFields_encode]
  exact Place.decode_encode hcrates (Place.withoutBoundary_finite crates h)

theorem Place.decode_shown (hcrates : crates.ReadBack) (h : place.Finite crates)
    (hsurvives : crates.Survives (place.encode crates)) (hbody : BragiBody body) :
    Place.decode crates (shown body (place.received crates)) = some place.read := by
  rw [shown_of_bragi hbody, decode_withoutFields hcrates h hsurvives]

theorem GeocodeJsonProperty.encode_read (h : place.Tidy) (lang : Option Text) :
    (fromWithLang place.read lang).encode crates = (fromWithLang place lang).encode crates := by
  rw [Place.read, encode_stored crates (Place.withoutBoundary_tidy h),
    fromWithLang_withoutBoundary]

end Read

theorem served_as_imported {crates : Crates Shape Geometry Color} (hcrates : crates.ReadBack)
    {place : Place Shape Geometry Color} (hfinite : place.Finite crates)
    (hsurvives : crates.Survives (place.encode crates)) (htidy : place.Tidy)
    {body : Json Float} (hbody : BragiBody body) :
    ∃ read, Place.decode crates (shown body (place.received crates)) = some read ∧
      read.coord = place.coord ∧ read.distance = none ∧
      ∀ lang, (Feature.fromWithLang crates read lang).encode crates =
        ({ Feature.fromWithLang crates place lang with distance := none }).encode crates := by
  refine ⟨place.read, Place.decode_shown hcrates hfinite hsurvives hbody, place.coord_read,
    Place.distance_stored _, fun lang => ?_⟩
  have hproperty : (GeocodeJsonProperty.fromWithLang place.read lang).encode crates = _ :=
    GeocodeJsonProperty.encode_read htidy lang
  have hdistance : place.read.distance = none := Place.distance_stored _
  simp only [Feature.encode, Feature.fromWithLang, hdistance, Place.coord_read, hproperty]

theorem house_tidy : (Place.Addr house : Place Unit PlainGeometry Text).Tidy where
  admins _ h := absurd h List.not_mem_nil
  names _ h := by cases h
  labels _ h := by cases h

theorem house_served : ∃ read, Place.decode plainCrates
      (shown
        (buildReverseQuery (floatWriter compensatedLn1p fun _ : Unit => .null) "500m".toList 50 3)
        (Place.received plainCrates (.Addr house))) = some read ∧
    ∀ lang, (Feature.fromWithLang plainCrates read lang).encode plainCrates =
      ({ Feature.fromWithLang plainCrates (.Addr house) lang with distance := none }).encode
        plainCrates := by
  have hfinite : (Place.Addr house : Place Unit PlainGeometry Text).Finite plainCrates :=
    house_finite
  obtain ⟨read, hread, _, _, htold⟩ := served_as_imported plainCrates_readBack hfinite
    house_survives house_tidy
    (.reverse (floatWriter compensatedLn1p fun _ : Unit => .null) "500m".toList 50 3)
  exact ⟨read, hread, htold⟩

end Mimirsbrunn.Places
