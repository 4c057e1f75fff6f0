import Mimirsbrunn.Bragi.Api
import Mimirsbrunn.Domain.Configuration

namespace Mimirsbrunn
open Regex Std

def datasetIndices (doc_type_str : Text) : Option (List Text) → List Text
  | some datasets => datasets.map (rootDoctypeDataset doc_type_str)
  | none => [rootDoctype doc_type_str]

def buildEsIndicesToSearch (types : Option (List ApiType)) (pt_dataset poi_dataset :
    Option (List Text)) : List Text :=
  match types with
  | some types => types.flatMap (fun
      | .House => [rootDoctype PlaceDocType.Addr.asStr]
      | .Street => [rootDoctype PlaceDocType.Street.asStr]
      | .Zone | .City => [rootDoctype PlaceDocType.Admin.asStr]
      | .Poi => datasetIndices PlaceDocType.Poi.asStr poi_dataset
      | .StopArea => datasetIndices PlaceDocType.Stop.asStr pt_dataset)
  | none =>
      [rootDoctype PlaceDocType.Addr.asStr, rootDoctype PlaceDocType.Street.asStr,
        rootDoctype PlaceDocType.Admin.asStr] ++
      -- No dataset of stops gives no index here, where the dataset of pois has an `else`.
      (match pt_dataset with
        | some pt_datasets => pt_datasets.map (rootDoctypeDataset PlaceDocType.Stop.asStr)
        | none => []) ++
      datasetIndices PlaceDocType.Poi.asStr poi_dataset

variable {types : List ApiType} {pt_dataset poi_dataset : Option (List Text)} {index : Text}

theorem types_union : index ∈ buildEsIndicesToSearch (some types) pt_dataset poi_dataset ↔
    ∃ t ∈ types, index ∈ buildEsIndicesToSearch (some [t]) pt_dataset poi_dataset := by
  simp only [buildEsIndicesToSearch, List.mem_flatMap, List.mem_singleton, exists_eq_left]

theorem mem_all_types : index ∈ buildEsIndicesToSearch (some ApiType.all) pt_dataset poi_dataset ↔
    index = rootDoctype PlaceDocType.Addr.asStr ∨ index = rootDoctype PlaceDocType.Street.asStr ∨
    index = rootDoctype PlaceDocType.Admin.asStr ∨
    index ∈ datasetIndices PlaceDocType.Stop.asStr pt_dataset ∨
    index ∈ datasetIndices PlaceDocType.Poi.asStr poi_dataset := by
  simp only [buildEsIndicesToSearch, ApiType.all, List.flatMap_cons, List.flatMap_nil,
    List.append_nil, List.mem_append, List.mem_singleton]
  tauto

theorem mem_no_types {pt_datasets : List Text} :
    index ∈ buildEsIndicesToSearch none (some pt_datasets) poi_dataset ↔
      index ∈ buildEsIndicesToSearch (some ApiType.all) (some pt_datasets) poi_dataset := by
  rw [mem_all_types]
  simp only [buildEsIndicesToSearch, datasetIndices, List.cons_append, List.nil_append,
    List.mem_cons, List.mem_append]

theorem stop_ne_poi_dataset (dataset : Text) :
    rootDoctypeDataset PlaceDocType.Poi.asStr dataset ≠ rootDoctype PlaceDocType.Stop.asStr := by
  intro h
  have hcut : "munin_p".toList = "munin_s".toList := congrArg (List.take 7) h
  exact absurd hcut (by decide)

theorem stop_missed : rootDoctype PlaceDocType.Stop.asStr ∉
    buildEsIndicesToSearch none none poi_dataset := by
  intro h
  simp only [buildEsIndicesToSearch, List.cons_append, List.nil_append, List.mem_cons] at h
  rcases h with h | h | h | h
  · exact absurd h (by decide)
  · exact absurd h (by decide)
  · exact absurd h (by decide)
  · cases poi_dataset with
    | none => exact absurd (List.mem_singleton.mp h) (by decide)
    | some datasets =>
        obtain ⟨dataset, _, he⟩ := List.mem_map.mp h
        exact stop_ne_poi_dataset dataset he

theorem stop_in_all_types : rootDoctype PlaceDocType.Stop.asStr ∈
    buildEsIndicesToSearch (some ApiType.all) none poi_dataset :=
  mem_all_types.mpr (by simp [datasetIndices])

structure NoTypeMeansAllTypes (pt_dataset poi_dataset : Option (List Text)) : Prop where
  all : ∀ index, index ∈ buildEsIndicesToSearch none pt_dataset poi_dataset ↔
    index ∈ buildEsIndicesToSearch (some ApiType.all) pt_dataset poi_dataset
  union : ∀ types index, index ∈ buildEsIndicesToSearch (some types) pt_dataset poi_dataset ↔
    ∃ t ∈ types, index ∈ buildEsIndicesToSearch (some [t]) pt_dataset poi_dataset
  nonempty : ∀ types, types ≠ [] → buildEsIndicesToSearch (some types) pt_dataset poi_dataset ≠ []

theorem datasetIndices_ne_nil {doc_type_str : Text} {dataset : Option (List Text)}
    (h : dataset ≠ some []) : datasetIndices doc_type_str dataset ≠ [] := by
  cases dataset with
  | none => exact List.cons_ne_nil _ _
  | some datasets => exact fun he => h (congrArg some (List.map_eq_nil_iff.mp he))

theorem single_ne_nil (hpt : pt_dataset ≠ some []) (hpoi : poi_dataset ≠ some []) (t : ApiType) :
    buildEsIndicesToSearch (some [t]) pt_dataset poi_dataset ≠ [] := by
  cases t with
  | Poi => simpa [buildEsIndicesToSearch] using datasetIndices_ne_nil hpoi
  | StopArea => simpa [buildEsIndicesToSearch] using datasetIndices_ne_nil hpt
  | House | Street | Zone | City => simp [buildEsIndicesToSearch]

theorem no_type_means_all_types_iff (pt_dataset poi_dataset : Option (List Text)) :
    NoTypeMeansAllTypes pt_dataset poi_dataset ↔
      (∃ first rest, pt_dataset = some (first :: rest)) ∧ poi_dataset ≠ some [] := by
  constructor
  · intro h
    have hpt : pt_dataset ≠ some [] := by
      rintro rfl
      exact h.nonempty [.StopArea] (by decide) rfl
    have hpoi : poi_dataset ≠ some [] := by
      rintro rfl
      exact h.nonempty [.Poi] (by decide) rfl
    refine ⟨?_, hpoi⟩
    cases pt_dataset with
    | none => exact absurd ((h.all _).mpr stop_in_all_types) stop_missed
    | some datasets =>
        cases datasets with
        | nil => exact absurd rfl hpt
        | cons first rest => exact ⟨first, rest, rfl⟩
  · rintro ⟨⟨first, rest, rfl⟩, hpoi⟩
    refine ⟨fun _ => mem_no_types, fun _ _ => types_union, ?_⟩
    intro types hne
    obtain ⟨t, rest, rfl⟩ := List.exists_cons_of_ne_nil hne
    obtain ⟨index, hindex⟩ := List.exists_mem_of_ne_nil _
      (single_ne_nil (fun he => List.cons_ne_nil first _ (Option.some.inj he)) hpoi t)
    exact List.ne_nil_of_mem (types_union.mpr ⟨t, List.mem_cons_self, hindex⟩)

theorem stops_missed_without_type : ¬ NoTypeMeansAllTypes none none := by
  intro h
  exact stop_missed ((h.all _).mpr stop_in_all_types)

end Mimirsbrunn
