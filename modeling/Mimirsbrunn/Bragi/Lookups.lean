import Mimirsbrunn.Bragi.Consistency
import Mimirsbrunn.Publication.Lookups

namespace Mimirsbrunn.Places
open Regex Settings Std BoolQuery

variable {Shape Geometry Color : Type} {self : Bragi Shape Geometry Color}
  {E : Engine (Place Shape Geometry Color)} {i : ImportOf Shape Geometry Color}
  {s₀ s : PlaceStore Shape Geometry Color}
  {fields : Place Shape Geometry Color → BoolQuery.Document Float} {docType dataset a n : Text}
  {params : FeaturesQuery} {timeout : Nat} {doc_id : Text}
  {result : Except (Failure InternalError) (GeocodeJsonResponse Geometry Color)}

def Tells (bragi : Bragi Shape Geometry Color) (places : Place Shape Geometry Color → Prop)
    (response : GeocodeJsonResponse Geometry Color) : Prop :=
  ∃ place, places place ∧ (bragi.featureOf none place).encode bragi.crates ∈
    response.features.map (Feature.encode bragi.crates)

theorem features_tell {P : PlaceStore Shape Geometry Color → Prop}
    {places : Place Shape Geometry Color → Prop} (hcrates : self.crates.ReadBack)
    (hclean : ∀ s, P s → Clean self.crates s)
    (hasked : a ∈ buildEsIndicesToSearch none params.pt_dataset params.poi_dataset)
    (hfound : ∀ s, P s → ∃ place, s.document a doc_id = some place ∧ places place)
    (h : Client.Answered (readsIn P (analysis self.crates fields))
      (self.features doc_id params timeout) result) : Outcome (Tells self places) result := by
  have hmem (s : PlaceStore Shape Geometry Color) (hs : P s) :
      ∃ place ∈ documentsOf s (buildEsIndicesToSearch none params.pt_dataset params.poi_dataset)
        doc_id, places place := by
    obtain ⟨place, hplace, hgood⟩ := hfound s hs
    exact ⟨place, List.mem_filterMap.mpr ⟨a, hasked, hplace⟩, hgood⟩
  rcases features_told hcrates hclean rfl h with ⟨s, hs, hnone, _⟩ | htold
  · obtain ⟨place, hplace, _⟩ := hmem s hs
    rw [hnone] at hplace
    cases hplace
  · refine htold.mono ?_
    rintro response ⟨s, hs, _, hfeatures⟩
    obtain ⟨place, hplace, hgood⟩ := hmem s hs
    refine ⟨place, hgood, ?_⟩
    rw [hfeatures]
    exact List.mem_map_of_mem hplace

theorem addrAlias_asked : addrAlias ∈ buildEsIndicesToSearch none none none := by decide

theorem house_asked : house.id ∈ houseImport.documents.map Place.id := List.mem_cons_self

theorem house_call : ∃ k, plainBragi.features house.id ⟨none, none, none⟩ 500 = .call
      (.mget (buildFeaturesQuery (buildEsIndicesToSearch none none none) house.id)
        (Internal.cappedTimeout 1000 (some 500))) k ∧
    ∀ x, ∃ result, k x = .done result := by
  refine ⟨_, rfl, fun x => ?_⟩
  simp only [Client.bind]
  cases Internal.getDocumentsReply x with
  | error e => cases e <;> exact ⟨_, rfl⟩
  | ok res =>
    simp only []
    cases res.mapM (Place.decode plainBragi.crates) with
    | none => exact ⟨_, rfl⟩
    | some places => cases places <;> exact ⟨_, rfl⟩

def laterImport : ImportOf Unit PlainGeometry Text :=
  .plain "addr".toList "fr".toList (.utc 2021 5 5 0 0 0 0) [.Addr house]

theorem laterImport_for : laterImport.PublicFor "addr".toList "fr".toList := ⟨rfl, rfl, rfl⟩

theorem later_smooth : Smooth (.permissive _) laterImport :=
  Import.plain_smooth (by decide) (by decide) _ (by simp)

end Mimirsbrunn.Places
