import Mimirsbrunn.Places.NumberText
import Mimirsbrunn.Places.Stored

namespace Mimirsbrunn.Places
open Regex Std Json

variable {Shape Geometry Color : Type} {crates : Crates Shape Geometry Color}

theorem number?_number {x : Float} (h : x.isFinite = true) : number? (number x) = some x := by
  rw [number, if_pos h, number?]

@[simp] theorem uint?_uint (n : UInt32) : uint? (uint n) = some n := by
  have bound : (0 : Int) ≤ n.toNat ∧ (n.toNat : Int) < 2 ^ 32 := by
    have := n.toNat_lt
    omega
  rw [uint, uint?, if_pos bound, Int.toNat_natCast, UInt32.ofNat_toNat]

@[simp] theorem optional_str (o : Option Text) :
    optional str? (ofOption .str o : Json Float) = some o := by
  cases o <;> rfl

theorem Coord.decode_encode {coord : Coord} (h : coord.Finite) :
    Coord.decode coord.encode = some coord := by
  rw [Coord.encode, Coord.decode, number?_number h.1, number?_number h.2]
  rfl

@[simp] theorem StringMap.decode_encode (map : StringMap) :
    StringMap.decode map.encode = some map := by
  rw [StringMap.encode, StringMap.decode, entries?_ofEntries, Option.map_some,
    Entries.ofList_toList]

@[simp] theorem I18nProperties.decode_encode (properties : I18nProperties) :
    I18nProperties.decode properties.encode = some properties.stored := by
  rw [encode, decode, StringMap.decode, entries?_ofEntries, Option.map_some, Option.map_some,
    stored]

namespace Explanation

mutual

theorem decode_encode (explanation : Explanation) (h : explanation.Finite) :
    decode explanation.encode = some explanation := by
  obtain ⟨value, description, details⟩ := explanation
  rw [Finite] at h
  have read := decode_encodeAll details h.2
  rw [decode] at read
  rw [encode, decode, tree_obj]
  simp -implicitDefEqProofs [build, field, read, number?_number h.1]

theorem decode_encodeAll (details : List Explanation) (h : AllFinite details) :
    array decode (.arr (encodeAll details)) = some details := by
  cases details with
  | nil => rfl
  | cons detail details =>
    rw [AllFinite] at h
    have read := decode_encodeAll details h.2
    rw [array] at read
    rw [encodeAll, array, List.mapM_cons, decode_encode detail h.1, read]
    rfl

end

end Explanation

theorem Context.decode_encode {context : Context} (h : context.Finite) :
    Context.decode context.encode = some context := by
  have read : optional Explanation.decode (ofOption Explanation.encode context.explanation) =
      some (context.explanation.map id) :=
    optional_ofOption (fun explanation he => explanation.decode_encode (h explanation he))
      (fun explanation _ => by cases explanation; exact obj_ne_null _)
  rw [Option.map_id] at read
  simp -implicitDefEqProofs [Context.encode, Context.decode, fieldOr, read]

theorem optional_context {context : Option Context} (h : ∀ c ∈ context, c.Finite) :
    optional Context.decode (ofOption Context.encode context) = some context := by
  have read := optional_ofOption (fun c hc => Context.decode_encode (h c hc))
    (fun c _ => obj_ne_null _)
  rwa [Option.map_id'] at read

theorem deserializeRect_serializeRect {bbox : Rect} (h : bbox.Finite) :
    deserializeRect (serializeRect bbox) = some (some bbox.stored) := by
  have read : array number? (serializeRect bbox) =
      some [bbox.min.x, bbox.min.y, bbox.max.x, bbox.max.y] := by
    simp [serializeRect, array, number?_number h.min_x, number?_number h.min_y,
      number?_number h.max_x, number?_number h.max_y]
  have present := optional_of_read read (arr_ne_null _)
  rw [deserializeRect, present]
  rfl

theorem customMultiPolygon_read (hcrates : crates.ReadBack) {shape : Shape}
    (h : crates.Finite shape) :
    customMultiPolygonDeserialize crates (customMultiPolygonSerialize crates shape) =
      some (some shape) := by
  rw [customMultiPolygonDeserialize, customMultiPolygonSerialize,
    optional_of_read (hcrates.geometry shape h) (hcrates.geometry_ne_null _), Option.map_some,
    Option.join_some, Option.bind_some, hcrates.shape shape h]

theorem zoneType?_asStr (zone_type : ZoneType) :
    zoneType? (.str zone_type.asStr) = some zone_type := by
  cases zone_type <;> rfl

@[simp] theorem optional_zoneType (o : Option ZoneType) :
    optional zoneType? (ofOption (fun zone_type => .str zone_type.asStr) o) = some o := by
  have read := optional_ofOption (fun zone_type (_ : zone_type ∈ o) => zoneType?_asStr zone_type)
    (fun _ _ => str_ne_null _)
  rwa [Option.map_id'] at read

namespace Admin

mutual

theorem decode_encode (hcrates : crates.ReadBack) (admin : Admin Shape Geometry)
    (h : admin.Finite crates) : decode crates (admin.encode crates) = some admin.stored := by
  obtain ⟨id, insee, level, label, name, zip_codes, weight, approx_coord, coord, boundary,
    administrative_regions, bbox, zone_type, parent_id, country_codes, codes, names, labels,
    distance, context⟩ := admin
  rw [Finite] at h
  obtain ⟨hweight, hcoord, hboundary, hregions, hbbox, hcontext⟩ := h
  have regions := decode_encodeAll hcrates administrative_regions hregions
  have boundaries := decodeOr_map
    (fun shape hs => customMultiPolygon_read hcrates (hboundary shape hs))
  have bboxes := decodeOr_map (fun rect hr => deserializeRect_serializeRect (hbbox rect hr))
  rw [decode] at regions
  rw [encode, decode, tree_obj, stored]
  simp -implicitDefEqProofs [build, field, fieldOr, regions, boundaries, bboxes,
    number?_number hweight, Coord.decode_encode hcoord, optional_context hcontext]

theorem decode_encodeAll (hcrates : crates.ReadBack) (admins : List (Admin Shape Geometry))
    (h : AllFinite crates admins) :
    array (decode crates) (.arr (encodeAll crates admins)) = some (storedAll admins) := by
  cases admins with
  | nil => rfl
  | cons admin admins =>
    rw [AllFinite] at h
    have read := decode_encodeAll hcrates admins h.2
    rw [array] at read
    rw [encodeAll, array, List.mapM_cons, decode_encode hcrates admin h.1, read]
    rfl

end

end Admin

theorem Admin.array_map (hcrates : crates.ReadBack) {admins : List (Admin Shape Geometry)}
    (h : ∀ admin ∈ admins, admin.Finite crates) :
    array (Admin.decode crates) (.arr (admins.map (Admin.encode crates))) =
      some (admins.map Admin.stored) :=
  array_arr (fun admin hadmin => admin.decode_encode hcrates (h admin hadmin))

theorem Street.decode_encode (hcrates : crates.ReadBack) {street : Street Shape Geometry}
    (h : street.Finite crates) :
    Street.decode crates (street.encode crates) = some street.stored := by
  simp -implicitDefEqProofs [Street.encode, Street.decode, Street.stored, field, fieldOr,
    Admin.array_map hcrates h.administrative_regions, number?_number h.weight,
    Coord.decode_encode h.coord, optional_context h.context]

theorem Addr.decode_encode (hcrates : crates.ReadBack) {addr : Addr Shape Geometry}
    (h : addr.Finite crates) :
    Addr.decode crates (addr.encode crates) = some addr.stored := by
  simp -implicitDefEqProofs [Addr.encode, Addr.decode, Addr.stored, field, fieldOr,
    Street.decode_encode hcrates h.street, Coord.decode_encode h.coord,
    number?_number h.weight, optional_context h.context]

-- The document of a house has no field `administrative_regions`, which every street must have.
theorem Street.decode_addr (addr : Addr Shape Geometry) :
    Street.decode crates (addr.encode crates) = none := by
  simp -implicitDefEqProofs [Addr.encode, Street.decode, field, fieldOr]

theorem Address.decode_encode (hcrates : crates.ReadBack) {address : Address Shape Geometry}
    (h : address.Finite crates) :
    Address.decode crates (address.encode crates) = some address.stored := by
  cases address with
  | Street street => rw [encode, decode, Street.decode_encode hcrates h, stored]
  | Addr addr =>
    rw [encode, decode, Street.decode_addr, Addr.decode_encode hcrates h, stored]
    rfl

theorem decodeNamed_encodeNamed {α : Type} (make : Text → Text → α) (id name : Text) :
    decodeNamed make (encodeNamed id name) = some (make id name) := by
  simp -implicitDefEqProofs [encodeNamed, decodeNamed, field]

theorem PoiType.decode_encode (poi_type : PoiType) :
    PoiType.decode poi_type.encode = some poi_type :=
  decodeNamed_encodeNamed PoiType.mk _ _

theorem CommercialMode.decode_encode (mode : CommercialMode) :
    CommercialMode.decode mode.encode = some mode :=
  decodeNamed_encodeNamed CommercialMode.mk _ _

theorem PhysicalMode.decode_encode (mode : PhysicalMode) :
    PhysicalMode.decode mode.encode = some mode :=
  decodeNamed_encodeNamed PhysicalMode.mk _ _

theorem Network.decode_encode (network : Network) :
    Network.decode network.encode = some network :=
  decodeNamed_encodeNamed Network.mk _ _

theorem FeedPublisher.decode_encode (publisher : FeedPublisher) :
    FeedPublisher.decode publisher.encode = some publisher := by
  simp -implicitDefEqProofs [FeedPublisher.encode, FeedPublisher.decode, field]

theorem Comment.decode_encode (comment : Comment) :
    Comment.decode comment.encode = some comment := by
  simp -implicitDefEqProofs [Comment.encode, Comment.decode, field]

theorem optional_address (hcrates : crates.ReadBack) {address : Option (Address Shape Geometry)}
    (h : ∀ a ∈ address, a.Finite crates) :
    optional (Address.decode crates) (ofOption (Address.encode crates) address) =
      some (address.map Address.stored) :=
  optional_ofOption (fun a ha => Address.decode_encode hcrates (h a ha))
    (fun a _ => by cases a <;> exact obj_ne_null _)

theorem Poi.decode_encode (hcrates : crates.ReadBack) {poi : Poi Shape Geometry}
    (h : poi.Finite crates) : Poi.decode crates (poi.encode crates) = some poi.stored := by
  simp -implicitDefEqProofs [Poi.encode, Poi.decode, Poi.stored, field, fieldOr, PoiType.decode_encode,
    Coord.decode_encode h.coord, Admin.array_map hcrates h.administrative_regions,
    number?_number h.weight, optional_address hcrates h.address, optional_context h.context]

theorem Line.decode_encode (hcrates : crates.ReadBack) (line : Line Color) :
    Line.decode crates (line.encode crates) = some line.stored := by
  have code := decodeOr_map (fun s (_ : s ∈ line.code) =>
    optional_of_read (str?_str s : str? (.str s : Json Float) = some s) (str_ne_null s))
  have colors (o : Option Color) := decodeOr_map (fun c (_ : c ∈ o) =>
    optional_of_read (hcrates.color c) (hcrates.color_ne_null c))
  have mode := decodeOr_map (fun m (_ : m ∈ line.commercial_mode) =>
    optional_of_read m.decode_encode (obj_ne_null _))
  have network := decodeOr_map (fun n (_ : n ∈ line.network) =>
    optional_of_read n.decode_encode (obj_ne_null _))
  have modes := array_arr (fun m (_ : m ∈ line.physical_modes) => m.decode_encode)
  rw [Option.map_id'] at mode network code
  rw [List.map_id'] at modes
  simp -implicitDefEqProofs [Line.encode, Line.decode, Line.stored, field, fieldOr, code, colors,
    mode, network, modes]

theorem Stop.decode_encode (hcrates : crates.ReadBack) {stop : Stop Shape Geometry Color}
    (h : stop.Finite crates) : Stop.decode crates (stop.encode crates) = some stop.stored := by
  have commercial := array_arr (fun m (_ : m ∈ stop.commercial_modes) => m.decode_encode)
  have physical := array_arr (fun m (_ : m ∈ stop.physical_modes) => m.decode_encode)
  have comments := array_arr (fun c (_ : c ∈ stop.comments) => c.decode_encode)
  have publishers := array_arr (fun p (_ : p ∈ stop.feed_publishers) => p.decode_encode)
  have lines := array_arr (fun l (_ : l ∈ stop.lines) => l.decode_encode hcrates)
  rw [List.map_id'] at commercial physical comments publishers
  simp -implicitDefEqProofs [Stop.encode, Stop.decode, Stop.stored, field, fieldOr, commercial,
    physical, comments, publishers, lines, Coord.decode_encode h.coord,
    Admin.array_map hcrates h.administrative_regions, number?_number h.weight,
    optional_context h.context]

section Tags

variable (crates) (fields : List (String × Json Float))

theorem Admin.decode_untagged :
    Admin.decode crates (.obj (untagged "type" fields)) = Admin.decode crates (.obj fields) := by
  simp (disch := decide) only [Admin.decode, tree_obj, Admin.build, lookup_untagged,
    field_untagged, fieldOr_untagged]

theorem Street.decode_untagged :
    Street.decode crates (.obj (untagged "type" fields)) = Street.decode crates (.obj fields) := by
  simp (disch := decide) only [Street.decode, field_untagged, fieldOr_untagged]

theorem Addr.decode_untagged :
    Addr.decode crates (.obj (untagged "type" fields)) = Addr.decode crates (.obj fields) := by
  simp (disch := decide) only [Addr.decode, field_untagged, fieldOr_untagged]

theorem Poi.decode_untagged :
    Poi.decode crates (.obj (untagged "type" fields)) = Poi.decode crates (.obj fields) := by
  simp (disch := decide) only [Poi.decode, field_untagged, fieldOr_untagged]

theorem Stop.decode_untagged :
    Stop.decode crates (.obj (untagged "type" fields)) = Stop.decode crates (.obj fields) := by
  simp (disch := decide) only [Stop.decode, field_untagged, fieldOr_untagged]

end Tags

theorem Place.decode_tagged {value : Json Float} (type : PlaceDocType)
    (h : value.get? "type" = some (.str type.asStr)) :
    decode crates value = decodeAs crates value type := by
  cases value with
  | obj fields =>
    rw [get?] at h
    have found : [.Admin, .Street, .Addr, .Poi, .Stop].find?
        (fun t => PlaceDocType.asStr t = type.asStr) = some type := by
      cases type <;> rfl
    simp only [decode, field, h, Option.bind_eq_bind, Option.bind_some, str?_str, found]
    cases type with
    | Admin => rw [decodeAs, decodeAs, Admin.decode_untagged]
    | Street => rw [decodeAs, decodeAs, Street.decode_untagged]
    | Addr => rw [decodeAs, decodeAs, Addr.decode_untagged]
    | Poi => rw [decodeAs, decodeAs, Poi.decode_untagged]
    | Stop => rw [decodeAs, decodeAs, Stop.decode_untagged]
  | _ => cases h

theorem Place.decode_encode (hcrates : crates.ReadBack) {place : Place Shape Geometry Color}
    (h : place.Finite crates) :
    Place.decode crates (place.encode crates) = some place.stored := by
  cases place with
  | Admin admin =>
    have tag : (admin.encode crates).get? "type" = some (.str PlaceDocType.Admin.asStr) := by
      cases admin
      rfl
    rw [encode, decode_tagged .Admin tag, decodeAs, admin.decode_encode hcrates h]
    rfl
  | Street street =>
    rw [encode, decode_tagged .Street rfl, decodeAs, Street.decode_encode hcrates h]
    rfl
  | Addr addr =>
    rw [encode, decode_tagged .Addr rfl, decodeAs, Addr.decode_encode hcrates h]
    rfl
  | Poi poi =>
    rw [encode, decode_tagged .Poi rfl, decodeAs, Poi.decode_encode hcrates h]
    rfl
  | Stop stop =>
    rw [encode, decode_tagged .Stop rfl, decodeAs, Stop.decode_encode hcrates h]
    rfl

theorem places_decode_back (crates : Crates Shape Geometry Color) (hcrates : crates.ReadBack) :
    (∀ place : Place Shape Geometry Color, place.Finite crates →
      crates.Survives (place.encode crates) →
      (crates.received (place.encode crates)).bind (Place.decode crates) = some place.stored) ∧
    (∀ address : Address Shape Geometry, address.Finite crates →
      crates.Survives (address.encode crates) →
      (crates.received (address.encode crates)).bind (Address.decode crates) =
        some address.stored) ∧
    (∀ properties : I18nProperties, (properties.map Property.key).Nodup →
      properties.stored.Perm properties ∧
        ∀ lang, properties.stored.get lang = properties.get lang) ∧
    ∀ bbox : Rect, bbox.Finite → bbox.stored.Same bbox := by
  refine ⟨fun place hfinite hsurvives => ?_, fun address hfinite hsurvives => ?_,
    fun _ h => ⟨I18nProperties.stored_perm h, I18nProperties.get_stored h⟩,
    fun _ => Rect.stored_same⟩
  · rw [Crates.received_of_survives hsurvives]
    exact Place.decode_encode hcrates hfinite
  · rw [Crates.received_of_survives hsurvives]
    exact Address.decode_encode hcrates hfinite

inductive PlainGeometry where
  | Point (lon lat : Float)
  | Triangle

def plainCrates : Crates Unit PlainGeometry Text where
  writeNumber := F64.toJson
  readNumber := F64.ofJson
  point := .Point
  fromShape _ := .Triangle
  toShape
    | .Triangle => some ()
    | .Point _ _ => none
  writeGeometry
    | .Point lon lat => .obj [
        ("type", .str "Point".toList), ("coordinates", .arr [number lon, number lat])]
    | .Triangle => .obj [("type", .str "MultiPolygon".toList),
        ("coordinates", .arr [.arr [.arr [.arr [.num 0, .num 0], .arr [.num 1, .num 0],
          .arr [.num 0, .num 1], .arr [.num 0, .num 0]]]])]
  readGeoJson value :=
    match value with
    | .obj [("type", .str _), ("coordinates", .arr [lon, lat])] => do
        return some (.Point (← number? lon) (← number? lat))
    | .obj [("type", .str _), ("coordinates", .arr [_])] => some (some .Triangle)
    | _ => none
  writeColor := .str
  readColor := str?
  numbers _ := [0, 1]

theorem plainCrates_readBack : plainCrates.ReadBack where
  geometry _ _ := rfl
  shape _ _ := rfl
  geometry_ne_null geometry := by cases geometry <;> exact obj_ne_null _
  color _ := rfl
  color_ne_null color := str_ne_null color

def quai : Street Unit PlainGeometry where
  id := "street:7".toList
  name := "Quai Sud".toList
  administrative_regions := []
  label := "Quai Sud (Lille)".toList
  weight := 0.5
  approx_coord := some (.Point 3 50)
  coord := ⟨3, 50⟩
  zip_codes := ["59000".toList]
  country_codes := []
  distance := none
  context := none

def house : Addr Unit PlainGeometry where
  id := "addr:3;50:2".toList
  name := "2 Quai Sud".toList
  house_number := "2".toList
  street := quai
  label := "2 Quai Sud (Lille)".toList
  coord := ⟨3, 50⟩
  approx_coord := some (.Point 3 50)
  weight := 0.5
  zip_codes := ["59000".toList]
  country_codes := []
  distance := some 12
  context := none

theorem quai_finite : quai.Finite plainCrates where
  administrative_regions _ h := absurd h List.not_mem_nil
  weight := by decide +kernel
  coord := by constructor <;> decide +kernel
  context _ h := by cases h

theorem house_finite : house.Finite plainCrates where
  street := quai_finite
  coord := by constructor <;> decide +kernel
  weight := by decide +kernel
  context _ h := by cases h

theorem quai_survives :
    plainCrates.Survives (Place.encode plainCrates (.Street quai : Place _ _ Text)) := by
  rw [Crates.Survives]
  decide +kernel

theorem house_survives :
    plainCrates.Survives (Place.encode plainCrates (.Addr house : Place _ _ Text)) := by
  rw [Crates.Survives]
  decide +kernel

theorem house_decodes_back :
    (plainCrates.received (Address.encode plainCrates (.Addr house))).bind
        (Address.decode plainCrates) = some (.Addr house.stored) ∧
      (plainCrates.received (Place.encode plainCrates (.Addr house : Place _ _ Text))).bind
        (Place.decode plainCrates) = some (.Addr house.stored) :=
  have read := places_decode_back plainCrates plainCrates_readBack
  ⟨read.2.1 (.Addr house) house_finite house_survives,
    read.1 (.Addr house) house_finite house_survives⟩

def quaiAt (lon : Float) : Street Unit PlainGeometry := { quai with coord := ⟨lon, 50⟩ }

theorem quaiAt_finite {lon : Float} (h : lon.isFinite = true) : (quaiAt lon).Finite plainCrates :=
  { quai_finite with coord := ⟨h, quai_finite.coord.2⟩ }

theorem number_received {x y : Float} (hx : x.isFinite = true) (hy : y.isFinite = true)
    (h : F64.ofJson (F64.toJson x) = some y) :
    (number x).traverse (fun x => F64.ofJson (F64.toJson x)) = some (number y) := by
  rw [number, if_pos hx, number, if_pos hy, Json.traverse, h]
  rfl

theorem quaiAt_received {x y : Float} (hx : x.isFinite = true) (hy : y.isFinite = true)
    (h : F64.ofJson (F64.toJson x) = some y) :
    plainCrates.received (Street.encode plainCrates (quaiAt x)) =
      some (Street.encode plainCrates (quaiAt y)) := by
  have half := number_received (x := 0.5) (y := 0.5) (by decide +kernel) (by decide +kernel)
    (by decide +kernel)
  have three := number_received (x := 3) (y := 3) (by decide +kernel) (by decide +kernel)
    (by decide +kernel)
  have fifty := number_received (x := 50) (y := 50) (by decide +kernel) (by decide +kernel)
    (by decide +kernel)
  have moved := number_received hx hy h
  have hreceived : plainCrates.received = Json.traverse (fun x => F64.ofJson (F64.toJson x)) := rfl
  rw [hreceived, Street.encode, Street.encode]
  unfold quaiAt quai
  simp only [Coord.encode, ofOption, plainCrates]
  generalize number 0.5 = weight at *
  generalize number 3 = west at *
  generalize number 50 = north at *
  simp only [Json.traverse, Json.traverseFields, Json.traverseAll, Json.strs, half, three, fifty,
    moved, Option.map_some, Option.bind_some, List.map_cons, List.map_nil]

-- A quay on a longitude that is read a little to the west.
theorem far_quai_moved :
    (Place.Street (quaiAt 100.78399658203125) : Place _ _ Text).Finite plainCrates ∧
    ∃ read : Street Unit PlainGeometry,
      (plainCrates.received (Place.encode plainCrates
          (.Street (quaiAt 100.78399658203125) : Place _ _ Text))).bind
        (Place.decode plainCrates) = some (.Street read) ∧
      read.coord ≠ (quaiAt 100.78399658203125).coord := by
  have hfar : (100.78399658203125 : Float).isFinite = true := by decide +kernel
  have hread : (100.78399658203124 : Float).isFinite = true := by decide +kernel
  have hne : (100.78399658203124 : Float) ≠ 100.78399658203125 := by decide +kernel
  refine ⟨quaiAt_finite hfar, (quaiAt 100.78399658203124).stored, ?_, fun h => hne ?_⟩
  · rw [Place.encode, quaiAt_received hfar hread F64.ofJson_toJson_moves, Option.bind_some]
    have hfinite : (Place.Street (quaiAt 100.78399658203124) : Place _ _ Text).Finite plainCrates :=
      quaiAt_finite hread
    exact Place.decode_encode plainCrates_readBack hfinite
  · exact congrArg Coord.lon h

end Mimirsbrunn.Places
