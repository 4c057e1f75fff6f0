import Mimirsbrunn.Bragi.Types
import Mimirsbrunn.Publication.Together

namespace Mimirsbrunn.Places
open Regex Settings Std BoolQuery Internal

variable {Shape Geometry Color : Type} {self : Bragi Shape Geometry Color} {ι : Type}
  [DecidableEq ι] {E : Engine (Place Shape Geometry Color)}
  {fields : Place Shape Geometry Color → BoolQuery.Document Float}
  {runs : ι → ImportOf Shape Geometry Color} {s₀ s : PlaceStore Shape Geometry Color}
  {p : PlaceStore Shape Geometry Color × (ι → Es (Place Shape Geometry Color) ModelError Index)}

theorem Meanwhile.clean {crates : Crates Shape Geometry Color} (h : Meanwhile E runs s₀ s)
    (hdocs : ∀ k, ∀ place ∈ (runs k).documents, Storable crates place) (h₀ : Clean crates s₀) :
    Clean crates s := by
  obtain ⟨clients, hreach⟩ := h
  have hkeeps : s₀.Keeps fun _ => Storable crates := ⟨h₀, fun _ _ _ _ hd => hd⟩
  exact (throng_keeps (fun k => ⟨hdocs k, fun _ _ _ _ _ hd => hd⟩) hreach hkeeps).documents

theorem housesAndStreets_separate : Separate housesAndStreets where
  name k := by cases k <;> decide
  dataset k := by cases k <;> decide
  literal k := by cases k <;> decide
  distinct j k := by revert j k; decide

theorem housesAndStreets_storable :
    ∀ k, ∀ place ∈ (housesAndStreets k).documents, Storable plainBragi.crates place
  | false => house_storable
  | true => fun place hplace => by
    obtain rfl := List.mem_singleton.mp hplace
    exact quai_storable

end Mimirsbrunn.Places
