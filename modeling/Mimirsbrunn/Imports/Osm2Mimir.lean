import Mimirsbrunn.Bragi.Types
import Mimirsbrunn.Imports.Pois
import Mimirsbrunn.Osm.Pois
import Mimirsbrunn.Places.Founders

namespace Mimirsbrunn.Imports
open Regex Std Places Internal

variable {Shape Geometry Color : Type}

structure Written (Shape Geometry : Type) where
  region : Mimirsbrunn.Admin → Places.Admin Shape Geometry
  point : Mimirsbrunn.Coord → Places.Coord
  shape : Mimirsbrunn.Coord → Geometry

def Written.poi (w : Written Shape Geometry) (poi : OsmReader.Poi) :
    Places.Poi Shape Geometry where
  id := poi.id
  label := poi.label
  name := poi.name
  coord := w.point poi.coord
  approx_coord := poi.approx_coord.map w.shape
  administrative_regions := poi.administrative_regions.map w.region
  weight := 0
  zip_codes := poi.zip_codes
  poi_type := poi.poi_type
  properties := ExtTreeMap.ofList poi.properties.toList
  address := none
  country_codes := poi.country_codes
  names := []
  labels := []
  distance := none
  context := none

def computeWeight (poi : Places.Poi Shape Geometry) : Places.Poi Shape Geometry :=
  match (poi.administrative_regions.find? Places.Admin.isCity).map Places.Admin.weight with
  | some weight => { poi with weight }
  | none => poi

structure AddressBackend (Shape Geometry Color : Type) where
  crates : Crates Shape Geometry Color
  writer : JsonWriter Float Geometry
  config_timeout : Nat
  unwrapMessage : List (Json Float) → Text

abbrev Enriching (α : Type) := Client (ReadRequest Float) (ReadResponse Float) (Except Text α)

def addressIndices : List Text :=
  [rootDoctype PlaceDocType.Street.asStr, rootDoctype PlaceDocType.Addr.asStr]

def defaultLimitResultEs : Int := 10

namespace AddressBackend

variable (backend : AddressBackend Shape Geometry Color)

def addressQuery (poi : Places.Poi Shape Geometry) : Json Float :=
  buildReverseQuery backend.writer "1km".toList poi.coord.lat poi.coord.lon

def addAddress (poi : Places.Poi Shape Geometry) : Enriching (Places.Poi Shape Geometry) :=
  (searchDocuments backend.config_timeout addressIndices (.QueryDSL (backend.addressQuery poi))
    defaultLimitResultEs none).run.bind fun
    | .ok results =>
        match results.mapM (Address.decode backend.crates) with
        | some (a :: _) => .done (.ok { poi with address := some a })
        | some [] => .done (.ok poi)
        | none => .done (.error (backend.unwrapMessage results))
    | .error (.err _) => .done (.ok poi)
    | .error (.panicked m) => .done (.error m)

def addAddresses (pois : List (Places.Poi Shape Geometry)) :
    Enriching (List (Places.Poi Shape Geometry)) :=
  Client.each (fun poi => backend.addAddress (computeWeight poi)) pois

end AddressBackend

def Located (P : PlaceStore Shape Geometry Color → Prop) (a : Address Shape Geometry) : Prop :=
  ∃ s n place address, P s ∧ s.Searches addressIndices n ∧ s.Searchable n place ∧
    Pois.placeAddress place = some address ∧ a = address.stored

structure Enriched (P : PlaceStore Shape Geometry Color → Prop)
    (poi enriched : Places.Poi Shape Geometry) : Prop where
  rest : enriched = { computeWeight poi with address := enriched.address }
  address : ∀ a, enriched.address = some a → poi.address = some a ∨ Located P a

section Address

variable {crates : Crates Shape Geometry Color} {place : Place Shape Geometry Color}
  {body : Json Float}

theorem address_of_fits {name : Text} (h : Fits crates name place) (hname : name ∈ addressIndices) :
    ∃ address, Pois.placeAddress place = some address := by
  have htype : place.docType = .Street ∨ place.docType = .Addr := by
    rcases List.mem_cons.mp hname with rfl | hname
    · exact .inl (h.docType .Street (.inl rfl))
    · exact .inr (h.docType .Addr (.inl (List.mem_singleton.mp hname)))
  cases place with
  | Street street => exact ⟨.Street street, rfl⟩
  | Addr addr => exact ⟨.Addr addr, rfl⟩
  | Admin admin => rcases htype with h | h <;> cases h
  | Poi poi => rcases htype with h | h <;> cases h
  | Stop stop => rcases htype with h | h <;> cases h

theorem decode_address (hcrates : crates.ReadBack) (hbody : BragiBody body)
    (h : place.Finite crates) (hsurvives : crates.Survives (place.encode crates))
    {address : Address Shape Geometry}
    (haddress : Pois.placeAddress place = some address) :
    Address.decode crates (shown body (place.received crates)) = some address.stored := by
  rw [shown_of_bragi hbody, Place.received_of_survives hsurvives, withoutFields_encode]
  cases place with
  | Street street =>
    obtain rfl := Option.some.inj haddress
    exact (Address.Street street).decode_encode hcrates h
  | Addr addr =>
    obtain rfl := Option.some.inj haddress
    exact (Address.Addr addr).decode_encode hcrates h
  | Admin admin => cases haddress
  | Poi poi => cases haddress
  | Stop stop => cases haddress

end Address

section Enriching

variable {backend : AddressBackend Shape Geometry Color}
  {fields : Place Shape Geometry Color → BoolQuery.Document Float}
  {P : PlaceStore Shape Geometry Color → Prop} {poi : Places.Poi Shape Geometry}
  {pois : List (Places.Poi Shape Geometry)}

theorem computeWeight_address (poi : Places.Poi Shape Geometry) :
    (computeWeight poi).address = poi.address := by
  rw [computeWeight]
  split <;> rfl

theorem computeWeight_id (poi : Places.Poi Shape Geometry) : (computeWeight poi).id = poi.id := by
  rw [computeWeight]
  split <;> rfl

theorem Enriched.unlocated (poi : Places.Poi Shape Geometry) :
    Enriched P poi (computeWeight poi) :=
  ⟨rfl, fun _ ha => .inl (computeWeight_address poi ▸ ha)⟩

theorem Enriched.id_eq {enriched : Places.Poi Shape Geometry} (h : Enriched P poi enriched) :
    enriched.id = poi.id := by
  rw [h.rest]
  exact computeWeight_id poi

theorem decode_addresses (hcrates : backend.crates.ReadBack) {body : Json Float}
    (hbody : BragiBody body) {places : List (Place Shape Geometry Color)}
    (h : ∀ place ∈ places, ∃ name ∈ addressIndices, Fits backend.crates name place) :
    ∃ addresses, (places.map (fun place => shown body (place.received backend.crates))).mapM
        (Address.decode backend.crates) = some addresses ∧
      List.Forall₂ (fun place a => ∃ address, Pois.placeAddress place = some address ∧
        a = address.stored) places addresses := by
  induction places with
  | nil => exact ⟨[], rfl, .nil⟩
  | cons place places ih =>
    rw [List.forall_mem_cons] at h
    obtain ⟨⟨name, hname, hfits⟩, hrest⟩ := h
    obtain ⟨address, haddress⟩ := address_of_fits hfits hname
    obtain ⟨addresses, hdecode, hall⟩ := ih hrest
    refine ⟨address.stored :: addresses, ?_, .cons ⟨address, haddress, rfl⟩ hall⟩
    rw [List.map_cons, List.mapM_cons,
      decode_address hcrates hbody hfits.storable.finite hfits.storable.survives haddress, hdecode]
    rfl

theorem answered_addAddress (hcrates : backend.crates.ReadBack)
    (hkeeps : ∀ s, P s → s.Keeps (Fits backend.crates))
    {result : Except Text (Places.Poi Shape Geometry)}
    (h : Client.Answered (readsIn P (analysis backend.crates fields))
      (backend.addAddress (computeWeight poi)) result) :
    result = .error unreadException ∨
      ∃ enriched, result = .ok enriched ∧ Enriched P poi enriched := by
  rw [AddressBackend.addAddress, searchDocuments, Reading.ofReply, ExceptT.run_mk, Client.bind,
    Client.answered_call] at h
  obtain ⟨x, ⟨s, hs, hread⟩, hthen⟩ := h
  simp only [Client.bind] at hthen
  rcases searched hread with hrefused | ⟨hits, hfound, hreply⟩
  · cases hreply : searchDocumentsReply addressIndices x with
    | ok results =>
      rw [hreply] at hrefused
      cases hrefused
    | error e =>
      rw [hreply] at hrefused hthen
      cases hrefused with
      | err e =>
        obtain rfl := Client.answered_done.mp hthen
        exact .inr ⟨_, rfl, .unlocated poi⟩
      | unread =>
        obtain rfl := Client.answered_done.mp hthen
        exact .inl rfl
  · rw [hreply] at hthen
    have hbody : BragiBody (backend.addressQuery (computeWeight poi)) := .reverse ..
    have hfits : ∀ place ∈ hits.map Prod.snd, ∃ name ∈ addressIndices,
        Fits backend.crates name place := by
      intro place hplace
      obtain ⟨hit, hhit, rfl⟩ := List.mem_map.mp hplace
      exact hfound.fits (hkeeps s hs) hit hhit
    obtain ⟨addresses, hdecode, hall⟩ := decode_addresses hcrates hbody hfits
    rw [List.map_map] at hdecode
    have hresults : (hits.map (fun hit => shown (backend.addressQuery (computeWeight poi))
        ((analysis backend.crates fields).source hit.2))).mapM (Address.decode backend.crates) =
        some addresses := hdecode
    simp only [hresults] at hthen
    cases addresses with
    | nil =>
      obtain rfl := Client.answered_done.mp hthen
      exact .inr ⟨_, rfl, .unlocated poi⟩
    | cons a addresses =>
      obtain rfl := Client.answered_done.mp hthen
      refine .inr ⟨_, rfl, rfl, ?_⟩
      intro a' ha'
      obtain rfl := Option.some.inj ha'
      cases hits with
      | nil => cases hall
      | cons hit hits =>
        obtain ⟨⟨address, haddress, rfl⟩, _⟩ := List.forall₂_cons.mp hall
        obtain ⟨hsearches, hsearchable⟩ := hfound.searched hit List.mem_cons_self
        exact .inr ⟨s, hit.1, hit.2, address, hs, hsearches, hsearchable, haddress, rfl⟩

theorem answered_addAddresses (hcrates : backend.crates.ReadBack)
    (hkeeps : ∀ s, P s → s.Keeps (Fits backend.crates))
    {result : Except Text (List (Places.Poi Shape Geometry))}
    (h : Client.Answered (readsIn P (analysis backend.crates fields)) (backend.addAddresses pois)
      result) :
    result = .error unreadException ∨
      ∃ enriched, result = .ok enriched ∧ List.Forall₂ (Enriched P) pois enriched := by
  rcases Client.answered_each h with ⟨enriched, rfl, hall⟩ | ⟨poi, _, e, rfl, he⟩
  · refine .inr ⟨enriched, rfl, hall.imp fun poi y hy => ?_⟩
    rcases answered_addAddress hcrates hkeeps hy with hfail | ⟨enriched, hok, henriched⟩
    · cases hfail
    · obtain rfl := Except.ok.inj hok
      exact henriched
  · rcases answered_addAddress hcrates hkeeps he with hfail | ⟨enriched, hok, _⟩
    · exact .inl (congrArg Except.error (Except.error.inj hfail))
    · cases hok

end Enriching

section Imported

variable {backend : AddressBackend Shape Geometry Color}
  {fields : Place Shape Geometry Color → BoolQuery.Document Float}
  {P : PlaceStore Shape Geometry Color → Prop} {w : Written Shape Geometry}
  {found : List OsmReader.Poi} {enriched : List (Places.Poi Shape Geometry)}

theorem enriched_ids (h : List.Forall₂ (Enriched P) (found.map w.poi) enriched) :
    enriched.map Places.Poi.id = found.map OsmReader.Poi.id := by
  rw [List.forall₂_map_left_iff] at h
  induction h with
  | nil => rfl
  | cons he _ ih => rw [List.map_cons, List.map_cons, ih, he.id_eq, Written.poi]

theorem exists_enriched {poi : OsmReader.Poi}
    (h : List.Forall₂ (Enriched P) (found.map w.poi) enriched) (hpoi : poi ∈ found) :
    ∃ e ∈ enriched, Enriched P (w.poi poi) e := by
  rw [List.forall₂_map_left_iff] at h
  induction h with
  | nil => cases hpoi
  | cons he _ ih =>
    rcases List.mem_cons.mp hpoi with rfl | hpoi
    · exact ⟨_, List.mem_cons_self, he⟩
    · obtain ⟨e, hmem, he⟩ := ih hpoi
      exact ⟨e, List.mem_cons_of_mem _ hmem, he⟩

theorem exists_found {e : Places.Poi Shape Geometry}
    (h : List.Forall₂ (Enriched P) (found.map w.poi) enriched) (he : e ∈ enriched) :
    ∃ poi ∈ found, Enriched P (w.poi poi) e := by
  rw [List.forall₂_map_left_iff] at h
  induction h with
  | nil => cases he
  | cons hpoi _ ih =>
    rcases List.mem_cons.mp he with rfl | he
    · exact ⟨_, List.mem_cons_self, hpoi⟩
    · obtain ⟨poi, hmem, hpoi⟩ := ih he
      exact ⟨poi, List.mem_cons_of_mem _ hmem, hpoi⟩

structure HoldsPois (P : PlaceStore Shape Geometry Color → Prop)
    (w : Written Shape Geometry) (objects : ObjWrapper) (matcher : PoiConfig)
    (parsed : OsmObj → Option (Option OsmReader.Poi)) (a : Text)
    (s : PlaceStore Shape Geometry Color) : Prop where
  covers : ∀ obj ∈ objects.objs, matcher.isPoi obj.tags = true → ∀ poi,
    parsed obj = some (some poi) →
      ∃ e, Enriched P (w.poi poi) e ∧ s.document a poi.id = some (.Poi e)
  sound : ∀ id place, s.document a id = some place →
    ∃ obj ∈ objects.objs, matcher.isPoi obj.tags = true ∧ ∃ poi e,
      parsed obj = some (some poi) ∧ poi.id = id ∧ place = .Poi e ∧ Enriched P (w.poi poi) e

theorem holds_pois {objects : ObjWrapper} {matcher : PoiConfig}
    {parsed : OsmObj → Option (Option OsmReader.Poi)} {a : Text}
    {s : PlaceStore Shape Geometry Color}
    (hfound : ∀ poi, poi ∈ found ↔ ∃ obj ∈ objects.objs, matcher.isPoi obj.tags = true ∧
      parsed obj = some (some poi))
    (h : List.Forall₂ (Enriched P) (found.map w.poi) enriched)
    (hexact : ∀ id place, s.document a id = some place ↔
      place ∈ enriched.map Place.Poi ∧ place.id = id) :
    HoldsPois P w objects matcher parsed a s := by
  constructor
  · intro obj hobj hchosen poi hparsed
    obtain ⟨e, he, henriched⟩ := exists_enriched h ((hfound poi).mpr ⟨obj, hobj, hchosen, hparsed⟩)
    exact ⟨e, henriched, (hexact _ _).mpr ⟨List.mem_map_of_mem he, henriched.id_eq⟩⟩
  · intro id place hplace
    obtain ⟨hmem, hid⟩ := (hexact id place).mp hplace
    obtain ⟨e, he, rfl⟩ := List.mem_map.mp hmem
    obtain ⟨poi, hpoi, henriched⟩ := exists_found h he
    obtain ⟨obj, hobj, hchosen, hparsed⟩ := (hfound poi).mp hpoi
    exact ⟨obj, hobj, hchosen, poi, e, hparsed, henriched.id_eq.symm.trans hid, rfl, henriched⟩

variable {ι G B : Type} [DecidableEq ι] [Areal G B] [Envelope B]
  {E : Engine (Place Shape Geometry Color)} {runs : ι → ImportOf Shape Geometry Color}
  {s₀ : PlaceStore Shape Geometry Color}
  {p : PlaceStore Shape Geometry Color × (ι → Es (Place Shape Geometry Color) ModelError Index)}

end Imported

def parks : PoiConfig where
  poi_types := [⟨"poi_type:leisure:park".toList, "Park".toList⟩]
  rules := [⟨[⟨"leisure".toList, "park".toList⟩], "poi_type:leisure:park".toList⟩]

def park : Node := ⟨4, (∅ : Tags).insert "leisure".toList "park".toList, 506000000, 30000000⟩

def parkExtract : ObjWrapper := ⟨[.node park], by decide⟩

def plainWritten : Written Unit PlainGeometry where
  region admin := { Places.Admin.default with
    id := admin.id, level := .ofNat admin.level, name := admin.name, zip_codes := admin.zip_codes
    zone_type := admin.zone_type, parent_id := admin.parent_id
    codes := ExtTreeMap.ofList admin.codes.toList }
  point coord := ⟨Float.ofInt coord.lon / 10000000, Float.ofInt coord.lat / 10000000⟩
  shape coord := .Point (Float.ofInt coord.lon / 10000000) (Float.ofInt coord.lat / 10000000)

def plainBackend : AddressBackend Unit PlainGeometry Text where
  crates := plainCrates
  writer := floatWriter compensatedLn1p fun _ => .null
  config_timeout := 1000
  unwrapMessage _ := "called `Result::unwrap()` on an `Err` value".toList

theorem park_found : ∃ fuel poi, OsmReader.pois (fun _ => .ok parkExtract) parks lilleFinder fuel
    (fun _ _ => none) = some (.ok [poi]) := by
  obtain ⟨admins, n, hn⟩ := lilleFinder.exists_returns park.coord
  have hchosen : parkExtract.objs.filter (fun obj => parks.isPoi obj.tags) = [.node park] := rfl
  have htype : parks.getPoiType (OsmObj.node park).tags =
      some ⟨"poi_type:leisure:park".toList, "Park".toList⟩ := rfl
  have hplaced : park.coord.isDefault = false := by decide
  refine ⟨n, buildPoi (.node park) ⟨"poi_type:leisure:park".toList, "Park".toList⟩
    (formatPoiId "node".toList park.id) park.coord admins, ?_⟩
  simp only [OsmReader.pois, hchosen, List.mapM_cons, List.mapM_nil, parsePoi, htype, poiCoord,
    hplaced, hn n (Nat.le_refl n)]
  rfl

def besideHouse (poi : Places.Poi Unit PlainGeometry) : Places.Poi Unit PlainGeometry :=
  { computeWeight poi with address := some (.Addr house.stored) }

theorem park_call (poi : Places.Poi Unit PlainGeometry) : ∃ k,
    plainBackend.addAddresses [poi] = .call (searchRequest 1000 addressIndices
      (.QueryDSL (plainBackend.addressQuery (computeWeight poi))) 10 none) k ∧
    k (.found ⟨none, [⟨shown (plainBackend.addressQuery (computeWeight poi))
        ((Place.Addr house).received plainCrates), []⟩]⟩) =
      .done (.ok [besideHouse poi]) := by
  refine ⟨_, rfl, ?_⟩
  have hbody : BragiBody (plainBackend.addressQuery (computeWeight poi)) := .reverse ..
  have hdecode := decode_address plainCrates_readBack hbody
    (show (Place.Addr house).Finite plainCrates from house_finite) house_survives rfl
  simp only [Client.bind, searchDocumentsReply, readReply, ElasticsearchSearchResponse.intoHits,
    List.map_cons, List.map_nil, List.mapM_cons, List.mapM_nil]
  rw [show Address.decode plainBackend.crates _ = _ from hdecode]
  rfl

def parkImport (poi : Places.Poi Unit PlainGeometry) : ImportOf Unit PlainGeometry Text :=
  .plain "poi".toList "fr".toList (.utc 2021 5 5 0 0 0 0) [.Poi poi]

theorem park_elsewhere (poi : Places.Poi Unit PlainGeometry) :
    (parkImport poi).indexName ≠ houseImport.indexName := by
  rw [show (parkImport poi).indexName = rootDoctypeDatasetTs "poi".toList "fr".toList
    (.utc 2021 5 5 0 0 0 0) from rfl]
  decide

def poiAlias : Text := rootDoctype PlaceDocType.Poi.asStr

theorem house_leaves_pois {s : PlaceStore Unit PlainGeometry Text} {index : Index}
    (himport : (elasticsearch (.permissive _)).Reach (⟨∅, []⟩, houseImport.run)
      (s, .done (.ok index))) :
    (∀ n ∈ s.indices, n = houseImport.indexName) ∧ ∀ n, ¬ s.Aliased poiAlias n := by
  obtain ⟨hindices, haliases⟩ := import_leaves (by decide) (by decide) houseImport_for himport
  exact ⟨fun n hn => (hindices n hn).resolve_left (by simp), fun n hn =>
    not_aliased_empty _ _ (haliases poiAlias (by decide) n hn)⟩

end Mimirsbrunn.Imports
