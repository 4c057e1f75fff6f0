import Mimirsbrunn.Bragi.Handlers

namespace Mimirsbrunn.Places
open Regex Settings Std BoolQuery

variable {Shape Geometry Color : Type} {self : Bragi Shape Geometry Color}

abbrev PlaceStore (Shape Geometry Color : Type) := Store (Place Shape Geometry Color)

def analysis (crates : Crates Shape Geometry Color)
    (fields : Place Shape Geometry Color → BoolQuery.Document Float) :
    Analysis (Place Shape Geometry Color) Float :=
  ⟨Place.received crates, fields⟩

structure Storable (crates : Crates Shape Geometry Color) (place : Place Shape Geometry Color) :
    Prop where
  finite : place.Finite crates
  survives : crates.Survives (place.encode crates)
  tidy : place.Tidy

def Clean (crates : Crates Shape Geometry Color) (s : PlaceStore Shape Geometry Color) : Prop :=
  ∀ (n : Text) (docs searchable : TreeMap Text (Place Shape Geometry Color)),
    s.contentOf n = some (docs, searchable) → ∀ (id : Text) (d : Place Shape Geometry Color),
      docs[id]? = some d ∨ searchable[id]? = some d → Storable crates d

theorem Clean.searchable {crates : Crates Shape Geometry Color}
    {s : PlaceStore Shape Geometry Color} (h : Clean crates s) {n : Text}
    {d : Place Shape Geometry Color} (hd : s.Searchable n d) : Storable crates d := by
  obtain ⟨docs, searchable, id, hc, hd⟩ := hd
  exact h n docs searchable hc id d (.inr hd)

theorem Clean.document {crates : Crates Shape Geometry Color}
    {s : PlaceStore Shape Geometry Color} (h : Clean crates s) {name id : Text}
    {d : Place Shape Geometry Color} (hd : s.document name id = some d) : Storable crates d := by
  obtain ⟨n, docs, searchable, _, hc, hd⟩ := Store.document_eq_some.mp hd
  exact h n docs searchable hc id d (.inl hd)

theorem answered_withDocuments {α : Type} {good : ReadRequest Float → ReadResponse Float → Prop}
    {r : ReadRequest Float} {reply : ReadReply Float (List (Json Float))}
    {k : List (Json Float) → Handled α} {a : Except (Failure InternalError) α} :
    Client.Answered good (withDocuments (.ofReply r reply) k) a ↔
      ∃ x, good r x ∧
        ((∃ res, reply x = .ok res ∧ Client.Answered good (k res) a) ∨
          (∃ err, reply x = .error (.err err) ∧ a = .error (.err (retrievalError err))) ∨
          ∃ m, reply x = .error (.panicked m) ∧ a = .error (.panicked m)) := by
  rw [withDocuments, Reading.ofReply, ExceptT.run_mk, Client.bind, Client.answered_call]
  refine exists_congr fun x => and_congr_right fun _ => ?_
  simp only [Client.bind]
  cases reply x with
  | ok res => simp
  | error e => cases e <;> simp [Client.answered_done]

section Replies

variable {s : PlaceStore Shape Geometry Color} {A : Analysis (Place Shape Geometry Color) Float}
  {x : ReadResponse Float}

inductive Refused {α : Type} : Except (Failure ReadError) α → Prop
  | err (e : ReadError) : Refused (.error (.err e))
  | unread : Refused (.error (.panicked Internal.unreadException))

structure Found (s : PlaceStore Shape Geometry Color)
    (A : Analysis (Place Shape Geometry Color) Float) (indices : List Text) (body : Json Float)
    (size : Int) (hits : List (Text × Place Shape Geometry Color)) : Prop where
  searched : ∀ hit ∈ hits, s.Searches indices hit.1 ∧ s.Searchable hit.1 hit.2
  size : hits.length ≤ size.toNat
  filtered : ∀ queries, filterOf body = some queries →
    ∀ hit ∈ hits, passesAll (A.fields hit.2) queries = true

theorem searched {config_timeout : Nat} {indices : List Text} {body : Json Float} {limit : Int}
    {timeout : Option Nat}
    (h : s.Reads A (Internal.searchRequest config_timeout indices (.QueryDSL body) limit timeout) x) :
    Refused (Internal.searchDocumentsReply indices x) ∨ ∃ hits, Found s A indices body limit hits ∧
      Internal.searchDocumentsReply indices x =
        .ok (hits.map (fun hit => shown body (A.source hit.2))) := by
  cases h with
  | transport => exact .inl (.err _)
  | rejected exception =>
    cases exception with
    | none => exact .inl .unread
    | some exception => exact .inl (.err _)
  | unparsable => exact .inl (.err _)
  | found hits sort hsearched hsize hfiltered =>
    refine .inr ⟨hits, ⟨hsearched, hsize, hfiltered⟩, ?_⟩
    simp only [Internal.searchDocumentsReply, Internal.readReply,
      ElasticsearchSearchResponse.intoHits, List.map_map]
    rfl

theorem got {body : Json Float} {request_timeout : Nat} {entries : List (GetEntry Float)}
    (hentries : getEntries? body = some entries) (h : s.Reads A (.mget body request_timeout) x) :
    Refused (Internal.getDocumentsReply x) ∨
      Internal.getDocumentsReply x = .ok (s.getSources A entries).reduceOption := by
  cases h with
  | transport => exact .inl (.err _)
  | rejected exception =>
    cases exception with
    | none => exact .inl .unread
    | some exception => exact .inl (.err _)
  | unparsable => exact .inl (.err _)
  | docs hread =>
    rw [hentries] at hread
    obtain rfl := Option.some.inj hread
    exact .inr rfl

end Replies

theorem mapM_decode_shown {crates : Crates Shape Geometry Color} (hcrates : crates.ReadBack)
    {body : Json Float} (hbody : BragiBody body) {places : List (Place Shape Geometry Color)}
    (h : ∀ place ∈ places, Storable crates place) :
    (places.map (fun place => shown body (place.received crates))).mapM (Place.decode crates) =
      some (places.map Place.read) :=
  Json.mapM_map_write fun place hplace =>
    Place.decode_shown hcrates (h place hplace).finite (h place hplace).survives hbody

def Bragi.featureOf (self : Bragi Shape Geometry Color) (query_coord : Option QueryCoord)
    (place : Place Shape Geometry Color) : Feature Geometry Color :=
  { Feature.fromWithLang self.crates place none with
    distance := query_coord.map fun coord =>
      (self.haversineDistance coord.lon.toFloat coord.lat.toFloat place.coord).toUInt32 }

theorem encode_buildFeature {places : List (Place Shape Geometry Color)}
    (h : ∀ place ∈ places, Storable self.crates place) (query_coord : Option QueryCoord) :
    (self.buildFeature (places.map Place.read) query_coord).map (Feature.encode self.crates) =
      places.map (fun place => (self.featureOf query_coord place).encode self.crates) := by
  rw [Bragi.buildFeature, List.map_map, List.map_map]
  refine List.map_congr_left fun place hplace => ?_
  have hproperty : (GeocodeJsonProperty.fromWithLang place.read none).encode self.crates = _ :=
    GeocodeJsonProperty.encode_read (h place hplace).tidy none
  have hdistance : place.read.distance = none := Place.distance_stored _
  cases query_coord with
  | none =>
    simp only [Function.comp, Feature.encode, Feature.fromWithLang, Bragi.featureOf, hdistance,
      Place.coord_read, hproperty, Option.map_none]
  | some coord =>
    simp only [Function.comp, Feature.encode, Feature.fromWithLang, Bragi.featureOf,
      Place.distance_setDistance, Place.coord_setDistance, Place.coord_read,
      GeocodeJsonProperty.fromWithLang_setDistance, hproperty, Option.map_some]

inductive Outcome {α : Type} (told : α → Prop) : Except (Failure InternalError) α → Prop
  | told {a : α} : told a → Outcome told (.ok a)
  | failed {err : InternalError} : err.reason = .ElasticSearchError →
      Outcome told (.error (.err err))
  | unread : Outcome told (.error (.panicked Internal.unreadException))

theorem Refused.outcome {α : Type} {told : α → Prop}
    {good : ReadRequest Float → ReadResponse Float → Prop} {k : List (Json Float) → Handled α}
    {reply : Except (Failure ReadError) (List (Json Float))}
    {result : Except (Failure InternalError) α} (h : Refused reply)
    (hcases : (∃ res, reply = .ok res ∧ Client.Answered good (k res) result) ∨
      (∃ err, reply = .error (.err err) ∧ result = .error (.err (retrievalError err))) ∨
      ∃ m, reply = .error (.panicked m) ∧ result = .error (.panicked m)) : Outcome told result := by
  cases h with
  | err e =>
    rcases hcases with ⟨_, he, _⟩ | ⟨_, _, rfl⟩ | ⟨_, he, _⟩
    · cases he
    · exact .failed rfl
    · cases he
  | unread =>
    rcases hcases with ⟨_, he, _⟩ | ⟨_, he, _⟩ | ⟨_, he, rfl⟩
    · cases he
    · cases he
    · cases he
      exact .unread

theorem Outcome.mono {α : Type} {told told' : α → Prop} {result : Except (Failure InternalError) α}
    (h : Outcome told result) (himp : ∀ a, told a → told' a) : Outcome told' result := by
  cases h with
  | told h => exact .told (himp _ h)
  | failed h => exact .failed h
  | unread => exact .unread

structure Told (P : PlaceStore Shape Geometry Color → Prop)
    (A : Analysis (Place Shape Geometry Color) Float) (bragi : Bragi Shape Geometry Color)
    (indices : List Text) (body : Json Float) (size : Int) (query_coord : Option QueryCoord)
    (response : GeocodeJsonResponse Geometry Color)
    (s : PlaceStore Shape Geometry Color) (hits : List (Text × Place Shape Geometry Color)) :
    Prop where
  state : P s
  found : Found s A indices body size hits
  features : response.features.map (Feature.encode bragi.crates) =
    hits.map (fun hit => (bragi.featureOf query_coord hit.2).encode bragi.crates)

section Forward

variable {P : PlaceStore Shape Geometry Color → Prop}
  {fields : Place Shape Geometry Color → BoolQuery.Document Float}

abbrev readsIn (P : PlaceStore Shape Geometry Color → Prop)
    (A : Analysis (Place Shape Geometry Color) Float) (r : ReadRequest Float)
    (x : ReadResponse Float) : Prop :=
  ∃ s, P s ∧ s.Reads A r x

theorem answered_search {α : Type} (hcrates : self.crates.ReadBack)
    (hclean : ∀ s, P s → Clean self.crates s) {indices : List Text} {body : Json Float}
    (hbody : BragiBody body) {limit : Int} {timeout : Option Nat}
    {k : List (Json Float) → Handled α} {result : Except (Failure InternalError) α}
    {told : α → Prop}
    (h : Client.Answered (readsIn P (analysis self.crates fields))
      (withDocuments (Internal.searchDocuments self.config_timeout indices (.QueryDSL body) limit
        timeout) k) result)
    (hk : ∀ s hits res, P s → Found s (analysis self.crates fields) indices body limit hits →
      (∀ place ∈ hits.map Prod.snd, Storable self.crates place) →
      res.mapM (Place.decode self.crates) = some ((hits.map Prod.snd).map Place.read) →
      Client.Answered (readsIn P (analysis self.crates fields)) (k res) result →
      Outcome told result) : Outcome told result := by
  obtain ⟨x, ⟨s, hs, hread⟩, hcases⟩ := answered_withDocuments.mp h
  rcases searched hread with hrefused | ⟨hits, hfound, hreply⟩
  · exact hrefused.outcome hcases
  · rw [hreply] at hcases
    rcases hcases with ⟨res, he, hrest⟩ | ⟨_, he, _⟩ | ⟨_, he, _⟩
    · obtain rfl := Except.ok.inj he
      have hstorable : ∀ place ∈ hits.map Prod.snd, Storable self.crates place := by
        intro place hplace
        obtain ⟨hit, hhit, rfl⟩ := List.mem_map.mp hplace
        exact (hclean s hs).searchable (hfound.searched hit hhit).2
      refine hk s hits _ hs hfound hstorable ?_ hrest
      have hdecode := mapM_decode_shown hcrates hbody hstorable
      rwa [List.map_map] at hdecode
    · cases he
    · cases he

theorem answered_firstAnswer (hcrates : self.crates.ReadBack)
    (hclean : ∀ s, P s → Clean self.crates s) {params : ForwardGeocoderQuery Float}
    {geometry : Option Geometry} {settings : QuerySettings Float} {timeout : Nat}
    {query_type : QueryType} {futurs : List (Reading Float ReadError (List (Json Float)))}
    {query_coord : Option QueryCoord}
    {result : Except (Failure InternalError) (GeocodeJsonResponse Geometry Color)}
    {told : GeocodeJsonResponse Geometry Color → Prop}
    (h : Client.Answered (readsIn P (analysis self.crates fields))
      (self.firstAnswer params.q query_coord
        (self.forwardSearch params geometry settings timeout query_type :: futurs)) result)
    (hanswer : ∀ response s hits, response.query = some params.q → hits ≠ [] →
      Told P (analysis self.crates fields) self
        (buildEsIndicesToSearch params.types params.pt_dataset params.poi_dataset)
        (self.forwardQuery params geometry settings query_type) params.limit query_coord response
        s hits → told response)
    (hnext : ∀ s, P s → Client.Answered (readsIn P (analysis self.crates fields))
      (self.firstAnswer params.q query_coord futurs) result → Outcome told result) :
    Outcome told result := by
  rw [Bragi.firstAnswer, Bragi.forwardSearch] at h
  refine answered_search hcrates hclean (.forward ..) h ?_
  intro s hits res hs hfound hstorable hdecode hrest
  rw [hdecode] at hrest
  cases hits with
  | nil => exact hnext s hs hrest
  | cons hit hits =>
    obtain rfl := Client.answered_done.mp hrest
    refine .told (hanswer _ s (hit :: hits) rfl (List.cons_ne_nil _ _) ⟨hs, hfound, ?_⟩)
    refine (encode_buildFeature hstorable query_coord).trans ?_
    rw [List.map_map]
    rfl

theorem filter_admits (bragi : Bragi Shape Geometry Color) (params : ForwardGeocoderQuery Float)
    (geometry : Option Geometry) (settings : QuerySettings Float) (query_type : QueryType) :
    ∃ queries, filterOf (bragi.forwardQuery params geometry settings query_type) = some queries ∧
      ∀ doc, passesAll doc queries = true ↔
        Admitted bragi.writer params.q (Filters.from params geometry) query_type doc := by
  have conditions := (means_matching_condition (F := Float) params.q query_type).cons
    ((means_house_number_condition params.q).cons meansAll_nil)
  have filters : MeansAll (buildFilters bragi.writer _ _ _) _ :=
    means_filters (Filters.from params geometry)
  obtain ⟨queries, hqueries, hpasses⟩ := filters.append conditions
  refine ⟨queries, (filterOf_buildQuery ..).trans hqueries, fun doc => (hpasses doc).trans ?_⟩
  constructor
  · rintro ⟨⟨hshape, hpoi, hzone, _⟩, hlabel, hhouse, _⟩
    exact ⟨hshape, hpoi, hzone, hlabel, hhouse⟩
  · rintro ⟨hshape, hpoi, hzone, hlabel, hhouse⟩
    exact ⟨⟨hshape, hpoi, hzone, trivial⟩, hlabel, hhouse, trivial⟩

theorem Found.admitted {s : PlaceStore Shape Geometry Color}
    {A : Analysis (Place Shape Geometry Color) Float} {indices : List Text} {size : Int}
    {hits : List (Text × Place Shape Geometry Color)} {params : ForwardGeocoderQuery Float}
    {geometry : Option Geometry} {settings : QuerySettings Float} {query_type : QueryType}
    (h : Found s A indices (self.forwardQuery params geometry settings query_type) size hits) :
    ∀ hit ∈ hits, Admitted self.writer params.q (Filters.from params geometry) query_type
      (A.fields hit.2) := by
  obtain ⟨queries, hqueries, hadmits⟩ :=
    filter_admits self params geometry settings query_type
  exact fun hit hhit => (hadmits _).mp (h.filtered queries hqueries hit hhit)

theorem forward_geocoder_told (hcrates : self.crates.ReadBack)
    (hclean : ∀ s, P s → Clean self.crates s) {params : ForwardGeocoderQuery Float}
    {geometry : Option Geometry} {settings : QuerySettings Float} {timeout : Nat}
    {result : Except (Failure InternalError) (GeocodeJsonResponse Geometry Color)}
    (h : Client.Answered (readsIn P (analysis self.crates fields))
      (self.forwardGeocoder params geometry settings timeout) result) :
    Outcome (fun response => response.query = some params.q ∧ ∃ query_type s hits,
      (query_type = .FUZZY ∨ hits ≠ []) ∧ Told P (analysis self.crates fields) self
        (buildEsIndicesToSearch params.types params.pt_dataset params.poi_dataset)
        (self.forwardQuery params geometry settings query_type) params.limit
        (Filters.from params geometry).coord response s hits) result := by
  refine answered_firstAnswer hcrates hclean h
    (fun response s hits hq hne htold => ⟨hq, _, s, hits, .inr hne, htold⟩)
    (fun _ _ hfuzzy => ?_)
  refine answered_firstAnswer hcrates hclean hfuzzy
    (fun response s hits hq hne htold => ⟨hq, _, s, hits, .inr hne, htold⟩)
    (fun s hs hnothing => ?_)
  obtain rfl := Client.answered_done.mp hnothing
  exact .told ⟨rfl, .FUZZY, s, [], .inl rfl, hs, ⟨by simp, by simp, by simp⟩, rfl⟩

theorem reverse_geocoder_told (hcrates : self.crates.ReadBack)
    (hclean : ∀ s, P s → Clean self.crates s) {params : ReverseGeocoderQuery}
    {settings : QuerySettings Float} {timeout : Nat}
    {result : Except (Failure InternalError) (GeocodeJsonResponse Geometry Color)}
    (h : Client.Answered (readsIn P (analysis self.crates fields))
      (self.reverseGeocoder params settings timeout) result) :
    Outcome (fun response => ∃ s hits, Told P (analysis self.crates fields) self
      [rootDoctype PlaceDocType.Street.asStr, rootDoctype PlaceDocType.Addr.asStr]
      (buildReverseQuery self.writer
        (Nat.toDigits 10 settings.reverse_query.radius ++ "m".toList) params.lat params.lon)
      params.limit none response s hits) result := by
  refine answered_search hcrates hclean (.reverse ..) h ?_
  intro s hits res hs hfound hstorable hdecode hrest
  rw [hdecode] at hrest
  obtain rfl := Client.answered_done.mp hrest
  refine .told ⟨s, hits, hs, hfound, (encode_buildFeature hstorable none).trans ?_⟩
  rw [List.map_map]
  rfl

def documentsOf (s : PlaceStore Shape Geometry Color) (indices : List Text) (doc_id : Text) :
    List (Place Shape Geometry Color) :=
  indices.filterMap (fun index => s.document index doc_id)

theorem getSources_features (s : PlaceStore Shape Geometry Color) (indices : List Text)
    (doc_id : Text) {entries : List (GetEntry Float)}
    (h : getEntries? (buildFeaturesQuery indices doc_id) = some entries) :
    (s.getSources (analysis self.crates fields) entries).reduceOption =
      (documentsOf s indices doc_id).map (fun place =>
        withoutFields ["boundary".toList] (place.received self.crates)) := by
  rw [getEntries?_buildFeaturesQuery] at h
  obtain rfl := Option.some.inj h
  rw [Store.getSources, List.map_map, List.reduceOption, List.filterMap_map, documentsOf,
    List.map_filterMap]
  rfl

theorem features_told (hcrates : self.crates.ReadBack)
    (hclean : ∀ s, P s → Clean self.crates s) {doc_id : Text} {params : FeaturesQuery}
    {timeout : Nat} {indices : List Text}
    (hindices : indices = buildEsIndicesToSearch none params.pt_dataset params.poi_dataset)
    {result : Except (Failure InternalError) (GeocodeJsonResponse Geometry Color)}
    (h : Client.Answered (readsIn P (analysis self.crates fields))
      (self.features doc_id params timeout) result) :
    (∃ s, P s ∧ documentsOf s indices doc_id = [] ∧
      result = .error (.err ⟨.ObjectNotFoundError, "Unable to find object".toList⟩)) ∨
    Outcome (fun response => ∃ s, P s ∧ documentsOf s indices doc_id ≠ [] ∧
      response.features.map (Feature.encode self.crates) =
        (documentsOf s indices doc_id).map
          (fun place => (self.featureOf none place).encode self.crates)) result := by
  subst hindices
  obtain ⟨x, ⟨s, hs, hread⟩, hcases⟩ := answered_withDocuments.mp h
  obtain ⟨entries, hentries⟩ : ∃ entries, getEntries? (buildFeaturesQuery
      (buildEsIndicesToSearch none params.pt_dataset params.poi_dataset) doc_id :
      Json Float) = some entries := ⟨_, getEntries?_buildFeaturesQuery _ _⟩
  rcases got hentries hread with hrefused | hreply
  · exact .inr (hrefused.outcome hcases)
  · rw [hreply, getSources_features s _ _ hentries] at hcases
    have hstorable : ∀ place ∈ documentsOf s (buildEsIndicesToSearch none params.pt_dataset
        params.poi_dataset) doc_id, Storable self.crates place := by
      intro place hplace
      obtain ⟨index, _, hindex⟩ := List.mem_filterMap.mp hplace
      exact (hclean s hs).document hindex
    generalize hplaces : documentsOf s (buildEsIndicesToSearch none params.pt_dataset
      params.poi_dataset) doc_id = places at hcases hstorable
    rcases hcases with ⟨res, he, hrest⟩ | ⟨_, he, _⟩ | ⟨_, he, _⟩
    · obtain rfl := Except.ok.inj he
      have hdecode : (places.map (fun place => withoutFields ["boundary".toList]
          (place.received self.crates))).mapM (Place.decode self.crates) =
            some (places.map Place.read) :=
        Json.mapM_map_write (fun place hplace => Place.decode_withoutFields hcrates
          (hstorable place hplace).finite (hstorable place hplace).survives)
      rw [hdecode] at hrest
      cases places with
      | nil => exact .inl ⟨s, hs, hplaces, Client.answered_done.mp hrest⟩
      | cons place rest =>
        obtain rfl := Client.answered_done.mp hrest
        refine .inr (.told ⟨s, hs, by simp [hplaces], ?_⟩)
        rw [hplaces]
        exact encode_buildFeature hstorable none
    · cases he
    · cases he

end Forward

end Mimirsbrunn.Places
