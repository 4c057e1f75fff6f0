import Mimirsbrunn.Bragi.Answers
import Mimirsbrunn.Library.Watching
import Mimirsbrunn.Publication.Lookups

namespace Mimirsbrunn
open Regex Std Internal

theorem split_first {t u x y : Text} (ht : '_' ∉ t) (hu : '_' ∉ u)
    (h : t ++ '_' :: x = u ++ '_' :: y) : t = u ∧ x = y := by
  have before {v : Text} (hv : '_' ∉ v) (w : Text) :
      (v ++ '_' :: w).takeWhile (· ≠ '_') = v := by
    have hall : ∀ c ∈ v, decide (c ≠ '_') = true := by
      intro c hc
      rw [decide_eq_true_eq]
      rintro rfl
      exact hv hc
    rw [List.takeWhile_append_of_pos hall]
    simp
  have htu : t = u := by rw [← before ht x, h, before hu y]
  subst htu
  exact ⟨rfl, List.cons_inj_right _ |>.mp (List.append_cancel_left h)⟩

theorem PlaceDocType.asStr_plain (t : PlaceDocType) : '_' ∉ t.asStr := by
  cases t <;> decide

theorem rootDoctype_inj {t u : Text} : rootDoctype t = rootDoctype u ↔ t = u := by
  simp [rootDoctype]

theorem rootDoctypeDataset_inj {t u ds ds' : Text} (ht : '_' ∉ t) (hu : '_' ∉ u) :
    rootDoctypeDataset t ds = rootDoctypeDataset u ds' ↔ t = u ∧ ds = ds' := by
  constructor
  · intro h
    refine split_first ht hu ?_
    simpa [rootDoctypeDataset] using h
  · rintro ⟨rfl, rfl⟩
    rfl

theorem rootDoctype_ne_dataset {t u ds : Text} (ht : '_' ∉ t) :
    rootDoctype t ≠ rootDoctypeDataset u ds := by
  intro h
  have htu : t = u ++ '_' :: ds := by simpa [rootDoctype, rootDoctypeDataset] using h
  exact ht (htu ▸ List.mem_append_right _ List.mem_cons_self)

def OfTypes (asked : PlaceDocType → Option (List Text)) (names : List Text) : Prop :=
  ∀ a ∈ names, ∃ t : PlaceDocType, a ∈ datasetIndices t.asStr (asked t)

def datasetsOf (pt_dataset poi_dataset : Option (List Text)) : PlaceDocType → Option (List Text)
  | .Poi => poi_dataset
  | .Stop => pt_dataset
  | _ => none

theorem ofTypes_bragi (types : Option (List ApiType))
    (pt_dataset poi_dataset : Option (List Text)) :
    OfTypes (datasetsOf pt_dataset poi_dataset)
      (buildEsIndicesToSearch types pt_dataset poi_dataset) := by
  intro a h
  cases types with
  | some types =>
    obtain ⟨t, _, ht⟩ := List.mem_flatMap.mp h
    cases t with
    | House => exact ⟨.Addr, ht⟩
    | Street => exact ⟨.Street, ht⟩
    | Zone => exact ⟨.Admin, ht⟩
    | City => exact ⟨.Admin, ht⟩
    | Poi => exact ⟨.Poi, ht⟩
    | StopArea => exact ⟨.Stop, ht⟩
  | none =>
    simp only [buildEsIndicesToSearch, List.cons_append, List.nil_append, List.mem_cons,
      List.mem_append] at h
    rcases h with rfl | rfl | rfl | h | h
    · exact ⟨.Addr, List.mem_singleton_self _⟩
    · exact ⟨.Street, List.mem_singleton_self _⟩
    · exact ⟨.Admin, List.mem_singleton_self _⟩
    · cases pt_dataset with
      | none => cases h
      | some datasets => exact ⟨.Stop, h⟩
    · exact ⟨.Poi, h⟩

theorem mem_indices_alias {t : PlaceDocType} {docType dataset a : Text}
    {datasets : Option (List Text)} (ht : Piece docType)
    (h : a ∈ datasetIndices t.asStr datasets) (ha : a ∈ aliases docType dataset) :
    t.asStr = docType ∧
      a = if datasets.isSome then rootDoctypeDataset docType dataset else rootDoctype docType := by
  have hroot : a ≠ root := by
    rintro rfl
    cases datasets with
    | none => exact absurd (List.mem_singleton.mp h) (by simp [root, rootDoctype])
    | some datasets =>
      obtain ⟨ds, _, hds⟩ := List.mem_map.mp h
      exact absurd hds (by simp [root, rootDoctypeDataset])
  simp only [aliases, List.mem_cons, List.not_mem_nil, or_false, hroot, false_or] at ha
  cases datasets with
  | none =>
    obtain rfl := List.mem_singleton.mp h
    rcases ha with ha | ha
    · exact ⟨rootDoctype_inj.mp ha, ha⟩
    · exact absurd ha (rootDoctype_ne_dataset t.asStr_plain)
  | some datasets =>
    obtain ⟨ds, _, rfl⟩ := List.mem_map.mp h
    rcases ha with ha | ha
    · exact absurd ha.symm (rootDoctype_ne_dataset ht.2)
    · exact ⟨((rootDoctypeDataset_inj t.asStr_plain ht.2).mp ha).1, ha⟩

theorem PlaceDocType.asStr_injective {t u : PlaceDocType} (h : t.asStr = u.asStr) : t = u := by
  cases t <;> cases u <;> first | rfl | exact absurd h (by decide)

theorem not_madeFor_of_types {asked : PlaceDocType → Option (List Text)} {names : List Text}
    {docType dataset : Text} (ht : Piece docType) (htypes : OfTypes asked names)
    (hplain : ∀ t, ∀ datasets ∈ asked t, ∀ ds ∈ datasets, '_' ∉ ds) :
    ∀ a ∈ names, ¬ MadeFor docType dataset a := by
  rintro a ha ⟨now, rfl⟩
  obtain ⟨t, hat⟩ := htypes _ ha
  cases hasked : asked t with
  | none =>
    rw [hasked] at hat
    have hname : rootDoctypeDatasetTs docType dataset now = rootDoctype t.asStr :=
      List.mem_singleton.mp hat
    have htype : docType ++ '_' :: (dataset ++ '_' :: now.format) = t.asStr := by
      simpa [rootDoctypeDatasetTs, rootDoctype] using hname
    exact t.asStr_plain (htype ▸ List.mem_append_right _ List.mem_cons_self)
  | some datasets =>
    rw [hasked] at hat
    obtain ⟨ds, hds, hname⟩ := List.mem_map.mp hat
    have hsplit : t.asStr ++ '_' :: ds = docType ++ '_' :: (dataset ++ '_' :: now.format) := by
      simpa [rootDoctypeDatasetTs, rootDoctypeDataset] using hname
    obtain ⟨_, rfl⟩ := split_first t.asStr_plain ht.2 hsplit
    exact hplain t datasets hasked _ hds (List.mem_append_right _ List.mem_cons_self)

theorem readsOneAlias_of_types {D : Type} {docType dataset : Text} {s₀ : Store D}
    {asked : PlaceDocType → Option (List Text)} {names : List Text} (ht : Piece docType)
    (htypes : OfTypes asked names) (hnamed : ∀ a ∈ names, ¬ MadeFor docType dataset a)
    (hquiet : ∀ a m, s₀.Aliased a m → MadeFor docType dataset m → a ∈ aliases docType dataset) :
    ReadsOneAlias docType dataset s₀ names := by
  refine ⟨hnamed, fun a ha b hb haliases hbliases => ?_, fun a _ m => hquiet a m⟩
  obtain ⟨t, hat⟩ := htypes a ha
  obtain ⟨u, hbu⟩ := htypes b hb
  obtain ⟨htype, rfl⟩ := mem_indices_alias ht hat haliases
  obtain ⟨hutype, rfl⟩ := mem_indices_alias ht hbu hbliases
  obtain rfl := PlaceDocType.asStr_injective (htype.trans hutype.symm)
  rfl

end Mimirsbrunn

namespace Mimirsbrunn.Places
open Regex Settings Std BoolQuery

variable {Shape Geometry Color : Type} {self : Bragi Shape Geometry Color}

instance : Document (Place Shape Geometry Color) := ⟨Place.id⟩

abbrev ImportOf (Shape Geometry Color : Type) := Import (Place Shape Geometry Color)

-- A client of bragi's backend while an import goes on: each of its requests is answered in the
-- state the import is in, and every step of the import may go wrong.
def readingDuring (E : Engine (Place Shape Geometry Color))
    (A : Analysis (Place Shape Geometry Color) Float) :
    Watching (ReadRequest Float) (ReadResponse Float)
      (PlaceStore Shape Geometry Color × Es (Place Shape Geometry Color) ModelError Index) Unit where
  moves := (elasticsearch E).Next
  reads p _ r x _ := p.1.Reads A r x

variable {E : Engine (Place Shape Geometry Color)} {i : ImportOf Shape Geometry Color}
  {s₀ : PlaceStore Shape Geometry Color}
  {fields : Place Shape Geometry Color → BoolQuery.Document Float} {docType dataset : Text}

theorem run_readsIn {α : Type} {A : Analysis (Place Shape Geometry Color) Float} {c : Handled α}
    {result : Except (Failure InternalError) α}
    {p : PlaceStore Shape Geometry Color × Es (Place Shape Geometry Color) ModelError Index}
    (h : (readingDuring E A).Run ((s₀, i.run), (), c) (p, (), .done result)) :
    Client.Answered (readsIn (fun s => ∃ c, (elasticsearch E).Reach (s₀, i.run) (s, c)) A) c
      result := by
  have hanswered := Watching.run_answered
    (P := fun p => (elasticsearch E).Reach (s₀, i.run) p)
    (fun p q hp hm => hp.tail hm) h .refl
  refine hanswered.mono ?_
  rintro r x ⟨⟨s, c⟩, hreach, hread⟩
  exact ⟨s, ⟨c, hreach⟩, hread⟩

theorem ofTypes_reverse : OfTypes (fun _ => none)
    [rootDoctype PlaceDocType.Street.asStr, rootDoctype PlaceDocType.Addr.asStr] := by
  intro a ha
  rcases List.mem_cons.mp ha with rfl | ha
  · exact ⟨.Street, List.mem_singleton_self _⟩
  · obtain rfl := List.mem_singleton.mp ha
    exact ⟨.Addr, List.mem_singleton_self _⟩

def plainBragi : Bragi Unit PlainGeometry Text where
  crates := plainCrates
  writer := floatWriter compensatedLn1p fun _ => .null
  haversineDistance _ _ _ := 0
  decodeMessage _ := []
  bragi_version := "2.0.0".toList
  mimir_version := "2.0.0".toList
  config_timeout := 1000

theorem plainBragi_readBack : plainBragi.crates.ReadBack := plainCrates_readBack

def plainSettings : QuerySettings Float where
  type_query := ⟨30, ⟨30, 19, 18, 1.5, 1⟩⟩
  string_query := ⟨1, ⟨1.8, 0.6, 0.6, 1, 0.001, 3.8, 1.8⟩⟩
  importance_query :=
    { proximity := ⟨250, 700, ⟨"exp", 150, 0, 0.4⟩⟩
      weights := ⟨(0.5, 60), ⟨3, 0.15, 0⟩, ⟨1, 0.4, 0⟩, ⟨1, 0.4, 0⟩, ⟨30, 30, 30, 30, 30⟩⟩ }
  reverse_query := ⟨500⟩

def quaiQuery : ForwardGeocoderQuery Float where
  q := "quai".toList
  lat := none
  lon := none
  shape_scope := none
  types := none
  zone_types := none
  poi_types := none
  limit := 10
  lang := "fr".toList
  timeout := none
  pt_dataset := none
  poi_dataset := none
  request_id := none
  proximity := none

def houseImport : ImportOf Unit PlainGeometry Text :=
  .plain "addr".toList "fr".toList (.utc 2021 5 4 0 0 0 0) [.Addr house]

theorem house_storable : ∀ place ∈ houseImport.documents, Storable plainBragi.crates place := by
  intro place hplace
  obtain rfl := List.mem_singleton.mp hplace
  exact ⟨house_finite, house_survives, house_tidy⟩

theorem houseImport_for : houseImport.PublicFor "addr".toList "fr".toList := ⟨rfl, rfl, rfl⟩

theorem house_fresh :
    houseImport.indexName ∉ (⟨∅, []⟩ : PlaceStore Unit PlainGeometry Text).indices := by
  simp

theorem empty_clean : Clean plainBragi.crates (⟨∅, []⟩ : PlaceStore Unit PlainGeometry Text) := by
  intro n docs searchable h
  simp [Store.contentOf] at h

theorem not_aliased_empty (a m : Text) :
    ¬ (⟨∅, []⟩ : PlaceStore Unit PlainGeometry Text).Aliased a m :=
  fun h => absurd h.mem (by simp)

theorem house_smooth : Smooth (.permissive _) houseImport :=
  Import.plain_smooth (by decide) (by decide) _ (by simp)

def unindexed : Place Unit PlainGeometry Text → BoolQuery.Document Float :=
  fun _ => ⟨fun _ => [], fun _ => false, fun _ _ => false, fun _ _ => false⟩

theorem nothing_found {E : Engine (Place Unit PlainGeometry Text)}
    {p : PlaceStore Unit PlainGeometry Text × Es (Place Unit PlainGeometry Text) ModelError Index} :
    (readingDuring E (analysis plainCrates unindexed)).Run
      (p, (), plainBragi.forwardGeocoder quaiQuery none plainSettings 500)
      (p, (), .done (.ok (.new quaiQuery.q []))) := by
  have hread {r : QueryType} : (readingDuring E (analysis plainCrates unindexed)).reads p ()
      (Internal.searchRequest plainBragi.config_timeout
        (buildEsIndicesToSearch quaiQuery.types quaiQuery.pt_dataset quaiQuery.poi_dataset)
        (.QueryDSL (plainBragi.forwardQuery quaiQuery none plainSettings r)) quaiQuery.limit
        (some (quaiQuery.timeout.getD 500))) (.found ⟨none, []⟩) () :=
    .found [] (fun _ => []) (by simp) (by simp) (by simp)
  exact .head (.call hread) (.head (.call hread) .refl)

def besideHouse : ReverseGeocoderQuery := ⟨50, 3, 10, none⟩

def addrAlias : Text := rootDoctype "addr".toList

theorem house_single {s : PlaceStore Unit PlainGeometry Text} {index : Index}
    (himport : (elasticsearch (.permissive _)).Reach (⟨∅, []⟩, houseImport.run)
      (s, .done (.ok index))) :
    Single "addr".toList "fr".toList s addrAlias houseImport.indexName ∧
      ∃ docs, s.contentOf houseImport.indexName = some (docs, docs) ∧
        Holds houseImport.documents docs :=
  import_single (by decide) (by decide) houseImport_for (by decide) (by simp)
    (fun m h => absurd h (not_aliased_empty _ m)) himport

theorem house_searched {s : PlaceStore Unit PlainGeometry Text} {index : Index}
    (himport : (elasticsearch (.permissive _)).Reach (⟨∅, []⟩, houseImport.run)
      (s, .done (.ok index))) :
    s.Searches [rootDoctype PlaceDocType.Street.asStr, rootDoctype PlaceDocType.Addr.asStr]
      houseImport.indexName ∧ s.Searchable houseImport.indexName (.Addr house) := by
  obtain ⟨hsingle, docs, hcontent, hholds⟩ := house_single himport
  obtain ⟨place, hplace⟩ := Option.isSome_iff_exists.mp
    (TreeMap.mem_iff_isSome_getElem?.mp (hholds.covers _ List.mem_cons_self))
  obtain rfl := List.mem_singleton.mp (hholds.sound _ place hplace).1
  exact ⟨⟨_, List.mem_cons_of_mem _ List.mem_cons_self, hsingle.aliased.mem, .inr hsingle.aliased⟩,
    docs, docs, _, hcontent, hplace⟩

def besideHouseQuery : Json Float :=
  buildReverseQuery plainBragi.writer (Nat.toDigits 10 plainSettings.reverse_query.radius ++
    "m".toList) besideHouse.lat besideHouse.lon

def houseHit : ElasticsearchHit (Json Float) :=
  ⟨shown besideHouseQuery ((Place.Addr house).received plainCrates), []⟩

theorem house_reverse_call : ∃ k, plainBragi.reverseGeocoder besideHouse plainSettings 500 = .call
      (Internal.searchRequest 1000
        [rootDoctype PlaceDocType.Street.asStr, rootDoctype PlaceDocType.Addr.asStr]
        (.QueryDSL besideHouseQuery) 10 (some 500)) k ∧
    k (.found ⟨none, [houseHit]⟩) =
      .done (.ok (.fromWithLang plainCrates [(Place.Addr house).read] none)) := by
  refine ⟨_, rfl, ?_⟩
  have hbody : BragiBody besideHouseQuery := .reverse ..
  have hdecode := mapM_decode_shown plainCrates_readBack hbody house_storable
  simp only [Client.bind, Internal.searchDocumentsReply, Internal.readReply,
    ElasticsearchSearchResponse.intoHits, List.map_cons, List.map_nil, houseHit]
  rw [show [shown besideHouseQuery ((Place.Addr house).received plainCrates)].mapM
    (Place.decode plainBragi.crates) = some [(Place.Addr house).read] from hdecode]
  rfl

end Mimirsbrunn.Places
