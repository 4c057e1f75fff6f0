import Mimirsbrunn.Library.Regex

namespace Mimirsbrunn.Settings
open Regex

structure Types (F : Type) where
  address : F
  admin : F
  stop : F
  poi : F
  street : F

structure TypeQueryBoosts (F : Type) where
  global : F
  boosts : Types F

structure StringQueryBoosts (F : Type) where
  name : F
  label : F
  label_prefix : F
  zip_codes : F
  house_number : F
  label_ngram_with_coord : F
  label_ngram : F

structure StringQuery (F : Type) where
  global : F
  boosts : StringQueryBoosts F

structure Decay (F : Type) where
  func : String
  scale : F
  offset : F
  decay : F

structure Proximity (F : Type) where
  weight : F
  weight_fuzzy : F
  decay : Decay F

structure BuildWeight (F : Type) where
  admin : F
  factor : F
  missing : F

structure Weights (F : Type) where
  radius_range : F × F
  max_radius : BuildWeight F
  min_radius_prefix : BuildWeight F
  min_radius_fuzzy : BuildWeight F
  types : Types F

structure ImportanceQueryBoosts (F : Type) where
  proximity : Proximity F
  weights : Weights F

structure ReverseQuery where
  radius : Nat

structure QuerySettings (F : Type) where
  type_query : TypeQueryBoosts F
  string_query : StringQuery F
  importance_query : ImportanceQueryBoosts F
  reverse_query : ReverseQuery

end Mimirsbrunn.Settings
