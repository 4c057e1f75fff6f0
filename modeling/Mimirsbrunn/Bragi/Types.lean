import Mimirsbrunn.Bragi.Consistency
import Mimirsbrunn.Publication.Promises

namespace Mimirsbrunn
open Regex Std Internal

def NamesType (t : PlaceDocType) (name : Text) : Prop :=
  name = rootDoctype t.asStr ∨ ∃ rest, name = rootDoctypeDataset t.asStr rest

variable {t u : PlaceDocType} {D : Type} {i : Import D} {index : Index}

theorem NamesType.of_dataset {rest : Text} (h : NamesType u (rootDoctypeDataset t.asStr rest)) :
    u = t := by
  rcases h with h | ⟨_, h⟩
  · exact absurd h.symm (rootDoctype_ne_dataset u.asStr_plain)
  · exact (PlaceDocType.asStr_injective
      ((rootDoctypeDataset_inj t.asStr_plain u.asStr_plain).mp h).1).symm

theorem NamesType.of_type (h : NamesType u (rootDoctype t.asStr)) : u = t := by
  rcases h with h | ⟨_, h⟩
  · exact (PlaceDocType.asStr_injective (rootDoctype_inj.mp h)).symm
  · exact absurd h (rootDoctype_ne_dataset t.asStr_plain)

theorem NamesType.ne_root {name : Text} (h : NamesType u name) : name ≠ root := by
  rcases h with rfl | ⟨_, rfl⟩ <;> simp [root, rootDoctype, rootDoctypeDataset]

theorem PlaceDocType.asStr_piece (t : PlaceDocType) : Piece t.asStr := by
  cases t <;> decide

theorem first_piece {c : Char} (hc : c ≠ '_') (cs : Text) :
    ∃ run rest, c :: cs = run ++ rest ∧ Piece run ∧ ∀ d ∈ rest.head?, d = '_' := by
  have hfirst : (c :: cs).takeWhile notUnderscore = c :: cs.takeWhile notUnderscore :=
    List.takeWhile_cons_of_pos (bne_iff_ne.mpr hc)
  refine ⟨_, _, (List.takeWhile_append_dropWhile (p := notUnderscore)).symm,
    ⟨hfirst ▸ List.cons_ne_nil _ _, fun hmem => ?_⟩, fun d hd => ?_⟩
  · exact absurd (List.mem_takeWhile_imp hmem) (by decide)
  · have hhead := List.head?_dropWhile_not notUnderscore (c :: cs)
    rw [Option.mem_def.mp hd] at hhead
    exact bne_eq_false_iff_eq.mp hhead

-- The name of an index is read back with its type where its dataset begins with a letter.
theorem splitIndexName_type {docType : Text} (hdocType : Piece docType) {c : Char} (hc : c ≠ '_')
    (cs : Text) (now : DateTime) :
    ∃ dataset, splitIndexName (rootDoctypeDatasetTs docType (c :: cs) now) =
      .ok (docType, dataset) := by
  obtain ⟨run, rest, hcut, hpiece, hrest⟩ := first_piece hc cs
  have hhead : ∀ d ∈ (rest ++ '_' :: now.format).head?, d = '_' := by
    intro d hd
    cases rest with
    | nil => exact (Option.some.inj hd).symm
    | cons e es => exact hrest d hd
  have hroot : Piece indexRoot := by decide
  refine ⟨run, ?_⟩
  rw [← splitIndexName_three _ hroot hdocType hpiece hhead, rootDoctypeDatasetTs, hcut]
  simp

end Mimirsbrunn

namespace Mimirsbrunn.Places
open Regex Settings Std BoolQuery Internal

variable {Shape Geometry Color : Type} {self : Bragi Shape Geometry Color}
  {crates : Crates Shape Geometry Color} {t : PlaceDocType}

def Place.docType : Place Shape Geometry Color → PlaceDocType
  | .Admin _ => .Admin
  | .Street _ => .Street
  | .Addr _ => .Addr
  | .Poi _ => .Poi
  | .Stop _ => .Stop

structure Fits (crates : Crates Shape Geometry Color) (name : Text)
    (place : Place Shape Geometry Color) : Prop where
  storable : Storable crates place
  docType : ∀ t, NamesType t name → place.docType = t

structure OfOneType (crates : Crates Shape Geometry Color) (t : PlaceDocType)
    (i : ImportOf Shape Geometry Color) : Prop where
  name : i.config.name = t.asStr
  dataset : ∃ c cs, i.config.dataset = c :: cs ∧ c ≠ '_'
  documents : ∀ place ∈ i.documents, Storable crates place ∧ place.docType = t

theorem OfOneType.indexName {i : ImportOf Shape Geometry Color} (h : OfOneType crates t i) :
    ∃ rest, i.indexName = rootDoctypeDataset t.asStr rest := by
  refine ⟨i.config.dataset ++ '_' :: i.now.format, ?_⟩
  rw [Import.indexName, h.name]
  simp [rootDoctypeDatasetTs, rootDoctypeDataset]

theorem OfOneType.doc_type {i : ImportOf Shape Geometry Color} {index : Index}
    (h : OfOneType crates t i) (hindex : Phase.Named i index) : index.doc_type = t.asStr := by
  obtain ⟨c, cs, hdataset, hc⟩ := h.dataset
  obtain ⟨dataset, hsplit⟩ := splitIndexName_type t.asStr_piece hc cs i.now
  have hnamed := hindex.2
  rw [Import.indexName, h.name, hdataset, hsplit] at hnamed
  exact (Prod.mk.inj (Except.ok.inj hnamed)).1.symm

theorem OfOneType.keeps {i : ImportOf Shape Geometry Color} (h : OfOneType crates t i) :
    i.Keeps (Fits crates) := by
  obtain ⟨rest, hname⟩ := h.indexName
  refine ⟨fun place hplace => ?_, fun index hindex a ha place hfits => ⟨hfits.storable, ?_⟩⟩
  · obtain ⟨hstorable, htype⟩ := h.documents place hplace
    refine ⟨hstorable, fun u hu => ?_⟩
    rw [hname] at hu
    exact htype.trans hu.of_dataset.symm
  · intro u hu
    have htype : place.docType = t := hfits.docType t (.inr ⟨rest, hname⟩)
    refine htype.trans (Eq.symm ?_)
    have hroots : a = rootDoctypeDataset index.doc_type index.dataset ∨
        a = rootDoctype index.doc_type ∨ a = root := by
      rw [Import.plan] at ha
      split at ha
      · simpa using ha
      · exact .inl (List.mem_singleton.mp ha)
    rw [h.doc_type hindex] at hroots
    rcases hroots with rfl | rfl | rfl
    · exact hu.of_dataset
    · exact hu.of_type
    · exact absurd rfl hu.ne_root

def readingBeside {ι : Type} [DecidableEq ι] (E : Engine (Place Shape Geometry Color))
    (A : Analysis (Place Shape Geometry Color) Float) :
    Watching (ReadRequest Float) (ReadResponse Float)
      (PlaceStore Shape Geometry Color ×
        (ι → Es (Place Shape Geometry Color) ModelError Index)) Unit where
  moves := (elasticsearch E).ThrongNext
  reads p _ r x _ := p.1.Reads A r x

section Beside

variable {ι : Type} [DecidableEq ι] {E : Engine (Place Shape Geometry Color)}
  {A : Analysis (Place Shape Geometry Color) Float} {runs : ι → ImportOf Shape Geometry Color}
  {s₀ : PlaceStore Shape Geometry Color}
  {p : PlaceStore Shape Geometry Color × (ι → Es (Place Shape Geometry Color) ModelError Index)}

def Meanwhile (E : Engine (Place Shape Geometry Color)) (runs : ι → ImportOf Shape Geometry Color)
    (s₀ s : PlaceStore Shape Geometry Color) : Prop :=
  ∃ clients, (elasticsearch E).ThrongReach (s₀, fun k => (runs k).run) (s, clients)

theorem run_beside {α : Type} {c : Client (ReadRequest Float) (ReadResponse Float) α} {a : α}
    (h : (readingBeside E A).Run ((s₀, fun k => (runs k).run), (), c) (p, (), .done a)) :
    Client.Answered (readsIn (Meanwhile E runs s₀) A) c a := by
  have hanswered := Watching.run_answered
    (P := fun p => (elasticsearch E).ThrongReach (s₀, fun k => (runs k).run) p)
    (fun p q hp hm => hp.tail hm) h .refl
  refine hanswered.mono ?_
  rintro r x ⟨⟨s, clients⟩, hreach, hread⟩
  exact ⟨s, ⟨clients, hreach⟩, hread⟩

theorem Meanwhile.keeps {s : PlaceStore Shape Geometry Color} (h : Meanwhile E runs s₀ s)
    (hruns : ∀ k, ∃ t, OfOneType crates t (runs k)) (h₀ : s₀.Keeps (Fits crates)) :
    s.Keeps (Fits crates) := by
  obtain ⟨clients, hreach⟩ := h
  refine throng_keeps (fun k => ?_) hreach h₀
  obtain ⟨t, ht⟩ := hruns k
  exact ht.keeps

end Beside

def typeOf : ApiType → PlaceDocType
  | .House => .Addr
  | .Poi => .Poi
  | .StopArea => .Stop
  | .Street => .Street
  | .Zone => .Admin
  | .City => .Admin

theorem namesType_of_datasetIndices {t : PlaceDocType} {datasets : Option (List Text)} {a : Text}
    (h : a ∈ datasetIndices t.asStr datasets) : NamesType t a := by
  cases datasets with
  | none => exact .inl (List.mem_singleton.mp h)
  | some datasets =>
    obtain ⟨dataset, _, rfl⟩ := List.mem_map.mp h
    exact .inr ⟨dataset, rfl⟩

theorem namesType_of_types {types : List ApiType} {pt_dataset poi_dataset : Option (List Text)}
    {a : Text} (h : a ∈ buildEsIndicesToSearch (some types) pt_dataset poi_dataset) :
    ∃ t ∈ types, NamesType (typeOf t) a := by
  obtain ⟨t, ht, ha⟩ := List.mem_flatMap.mp h
  refine ⟨t, ht, ?_⟩
  cases t with
  | House => exact .inl (List.mem_singleton.mp ha)
  | Street => exact .inl (List.mem_singleton.mp ha)
  | Zone => exact .inl (List.mem_singleton.mp ha)
  | City => exact .inl (List.mem_singleton.mp ha)
  | Poi => exact namesType_of_datasetIndices ha
  | StopArea => exact namesType_of_datasetIndices ha

theorem Found.fits {s : PlaceStore Shape Geometry Color} (h : s.Keeps (Fits crates))
    {A : Analysis (Place Shape Geometry Color) Float} {indices : List Text} {body : Json Float}
    {size : Int} {hits : List (Text × Place Shape Geometry Color)}
    (hfound : Found s A indices body size hits) :
    ∀ hit ∈ hits, ∃ a ∈ indices, Fits crates a hit.2 := by
  intro hit hhit
  obtain ⟨⟨a, ha, hstands⟩, hsearchable⟩ := hfound.searched hit hhit
  exact ⟨a, ha, h.behind hstands hsearchable⟩

theorem keeps_clean {s : PlaceStore Shape Geometry Color} (h : s.Keeps (Fits crates)) :
    Clean crates s :=
  fun n docs searchable hc id d hd => (h.documents n docs searchable hc id d hd).storable

section Told

variable {ι : Type} [DecidableEq ι] {E : Engine (Place Shape Geometry Color)}
  {fields : Place Shape Geometry Color → BoolQuery.Document Float}
  {runs : ι → ImportOf Shape Geometry Color} {s₀ : PlaceStore Shape Geometry Color}
  {p : PlaceStore Shape Geometry Color × (ι → Es (Place Shape Geometry Color) ModelError Index)}

end Told

def quaiImport : ImportOf Unit PlainGeometry Text :=
  .plain "street".toList "fr".toList (.utc 2021 5 4 0 0 0 0) [.Street quai]

def housesAndStreets : Bool → ImportOf Unit PlainGeometry Text
  | false => houseImport
  | true => quaiImport

theorem quai_storable : Storable plainBragi.crates (Place.Street quai) where
  finite := quai_finite
  survives := quai_survives
  tidy :=
    { admins _ h := absurd h List.not_mem_nil
      names _ h := by cases h
      labels _ h := by cases h }

theorem housesAndStreets_of_one_type :
    ∀ k, ∃ t, OfOneType plainBragi.crates t (housesAndStreets k)
  | false => by
    refine ⟨.Addr, rfl, ⟨'f', ['r'], rfl, by decide⟩, fun place hplace => ?_⟩
    refine ⟨house_storable place hplace, ?_⟩
    obtain rfl := List.mem_singleton.mp hplace
    rfl
  | true => by
    refine ⟨.Street, rfl, ⟨'f', ['r'], rfl, by decide⟩, fun place hplace => ?_⟩
    obtain rfl := List.mem_singleton.mp hplace
    exact ⟨quai_storable, rfl⟩

theorem empty_keeps :
    (⟨∅, []⟩ : PlaceStore Unit PlainGeometry Text).Keeps (Fits plainBragi.crates) where
  documents n docs searchable h := by simp [Store.contentOf] at h
  aliases a n h := absurd h (not_aliased_empty a n)

def houseQuery : ForwardGeocoderQuery Float := { quaiQuery with types := some [.House] }

def matched : Place Unit PlainGeometry Text → BoolQuery.Document Float :=
  fun _ => ⟨fun _ => [], fun _ => false, fun _ _ => true, fun _ _ => true⟩

theorem house_admitted : Admitted plainBragi.writer houseQuery.q (Filters.from houseQuery none)
    .PREFIX (matched (.Addr house)) where
  shape _ h := by cases h
  poi_types _ h := by cases h
  zone_types _ h := by cases h
  full_label := rfl
  house_number := .inl rfl

def houseBody : Json Float := plainBragi.forwardQuery houseQuery none plainSettings .PREFIX

def forwardHit : ElasticsearchHit (Json Float) :=
  ⟨shown houseBody ((Place.Addr house).received plainCrates), []⟩

theorem house_forward_call : ∃ k response,
    plainBragi.forwardGeocoder houseQuery none plainSettings 500 = .call
      (Internal.searchRequest 1000 [addrAlias] (.QueryDSL houseBody) 10 (some 500)) k ∧
    k (.found ⟨none, [forwardHit]⟩) = .done (.ok response) ∧ response.features.length = 1 := by
  refine ⟨_, .new houseQuery.q (plainBragi.buildFeature [(Place.Addr house).read] none), rfl, ?_, rfl⟩
  have hbody : BragiBody houseBody := .forward ..
  have hdecode := mapM_decode_shown plainCrates_readBack hbody house_storable
  simp only [Client.bind, Internal.searchDocumentsReply, Internal.readReply,
    ElasticsearchSearchResponse.intoHits, List.map_cons, List.map_nil, forwardHit]
  rw [show [shown houseBody ((Place.Addr house).received plainCrates)].mapM
    (Place.decode plainBragi.crates) = some [(Place.Addr house).read] from hdecode]
  rfl

theorem house_forward_run : ∃ p response,
    (readingBeside (.permissive _) (analysis plainCrates matched)).Run
      ((⟨∅, []⟩, fun k => (housesAndStreets k).run), (),
        plainBragi.forwardGeocoder houseQuery none plainSettings 500)
      (p, (), .done (.ok response)) ∧ response.features.length = 1 := by
  obtain ⟨s, index, himport⟩ := Phase.import_completes house_smooth house_fresh
  obtain ⟨k, response, hcall, hdone, hone⟩ := house_forward_call
  obtain ⟨hsingle, docs, hcontent, hholds⟩ := house_single himport
  obtain ⟨_, hsearchable⟩ := house_searched himport
  have hmoves := Service.throng_of_reach (j := false)
    (f := fun k => (housesAndStreets k).run) himport
  obtain ⟨queries, hqueries, hadmits⟩ :=
    filter_admits plainBragi houseQuery none plainSettings .PREFIX
  have hread : s.Reads (analysis plainCrates matched)
      (Internal.searchRequest 1000 [addrAlias] (.QueryDSL houseBody) 10 (some 500))
      (.found ⟨none, [forwardHit]⟩) := by
    refine Store.Reads.found (A := analysis plainCrates matched)
      [(houseImport.indexName, Place.Addr house)] (fun _ => []) ?_ (by decide) ?_
    · intro hit hhit
      obtain rfl := List.mem_singleton.mp hhit
      exact ⟨⟨_, List.mem_cons_self, hsingle.aliased.mem, .inr hsingle.aliased⟩, hsearchable⟩
    · intro queries' hqueries' hit hhit
      obtain rfl := Option.some.inj (hqueries.symm.trans hqueries')
      obtain rfl := List.mem_singleton.mp hhit
      exact (hadmits _).mpr house_admitted
  have hrun : (readingBeside (.permissive _) (analysis plainCrates matched)).Run
      ((⟨∅, []⟩, fun k => (housesAndStreets k).run), (),
        plainBragi.forwardGeocoder houseQuery none plainSettings 500)
      ((s, Function.update (fun k => (housesAndStreets k).run) false (.done (.ok index))), (),
        .done (.ok response)) := by
    rw [hcall, ← hdone]
    exact (Watching.run_moves (W := readingBeside (.permissive _) (analysis plainCrates matched))
      hmoves).tail (.call hread)
  exact ⟨_, response, hrun, hone⟩

end Mimirsbrunn.Places
