import Mimirsbrunn.Bragi.Dsl
import Mimirsbrunn.Places.Bano
import Mimirsbrunn.Places.DecodesBack

namespace Mimirsbrunn
open Regex Settings Places

variable {F S : Type} {writer : JsonWriter F S}

def clauseFields (clause : Json F) : List Text :=
  match clause.get? "multi_match", clause.get? "match" with
  | some body, _ => ((body.get? "fields").bind Json.strs?).getD []
  | none, some (.obj fields) => fields.map (fun entry => entry.1.toList)
  | _, _ => []

def shouldClauses (query : Json F) : List (Json F) :=
  match (query.get? "bool").bind (·.get? "should") with
  | some (.arr clauses) => clauses
  | _ => []

def namedFields (query : Json F) : List Text := (shouldClauses query).flatMap clauseFields

theorem clauseFields_multiMatch (query : Text) (fields : List Text) (boost : F) :
    clauseFields (buildMultiMatchQuery writer query fields boost) = fields := by
  simp [clauseFields, buildMultiMatchQuery, Json.get?]

theorem clauseFields_match (query : Text) (field : String) (boost : F) :
    clauseFields (buildMatchQuery writer query field boost) = [field.toList] := by
  simp [clauseFields, buildMatchQuery, Json.get?]

theorem namedFields_buildStringQuery (q lang : Text) (settings : StringQuery F)
    (query_type : QueryType) (coord : Option QueryCoord) :
    namedFields (buildStringQuery writer q lang settings query_type coord) =
      ["name".toList, "names.".toList ++ lang, "label".toList, "label.".toList ++ lang,
        "label.prefix".toList, "label.".toList ++ lang ++ ".prefix".toList, "zip_codes".toList,
        "house_number".toList] ++
      match query_type with
      | .FUZZY => ["label.ngram".toList, "label.".toList ++ lang ++ ".ngram".toList]
      | .PREFIX => [] := by
  cases query_type <;>
    simp [namedFields, shouldClauses, buildStringQuery, Json.get?, clauseFields_multiMatch,
      clauseFields_match]

section Mapping

def isWord (c : Char) : Bool := c.isAlphanum || c = '_'

-- `^name($|s\.\w+)` for the base `name`, matched against the whole path.
def translates (base path : Text) : Bool :=
  path = base || ((base ++ "s.".toList).isPrefixOf path &&
    !(path.drop (base.length + 2)).isEmpty && (path.drop (base.length + 2)).all isWord)

-- The sub-fields that the dynamic templates put under a text, the first template first.
def subFields (path : Text) : List Text :=
  if translates "name".toList path then ["prefix".toList]
  else if translates "label".toList path then ["prefix".toList, "ngram".toList]
  else []

def labelFields (query_type : QueryType) (path : Text) : List Text :=
  path :: ((subFields path).filter (fun sub => sub = "prefix".toList || query_type = .FUZZY)).map
    (fun sub => path ++ ".".toList ++ sub)

example : labelFields .FUZZY "labels.ru".toList =
    ["labels.ru".toList, "labels.ru.prefix".toList, "labels.ru.ngram".toList] := by decide

end Mapping

inductive TranslatedPlace (Shape Geometry : Type) where
  | Admin (admin : Places.Admin Shape Geometry)
  | Poi (poi : Places.Poi Shape Geometry)

namespace TranslatedPlace

variable {Shape Geometry Color : Type} (crates : Crates Shape Geometry Color)

def encode : TranslatedPlace Shape Geometry → Json Float
  | .Admin admin => Places.Admin.encode crates admin
  | .Poi poi => Places.Poi.encode crates poi

def names : TranslatedPlace Shape Geometry → I18nProperties
  | .Admin admin => admin.names
  | .Poi poi => poi.names

def labels : TranslatedPlace Shape Geometry → I18nProperties
  | .Admin admin => admin.labels
  | .Poi poi => poi.labels

theorem get?_labels (place : TranslatedPlace Shape Geometry) :
    (place.encode crates).get? "labels" = some place.labels.encode := by
  cases place with
  | Admin admin =>
      cases admin
      simp [encode, labels, Places.Admin.encode, Json.get?]
  | Poi poi => simp [encode, labels, Places.Poi.encode, Json.get?]

end TranslatedPlace

def translation (doc : Json Float) (field : String) (lang : Text) : Option (Json Float) :=
  (doc.get? field).bind (·.get? (String.ofList lang))

theorem get?_encode (properties : I18nProperties) (lang : Text) :
    properties.encode.get? (String.ofList lang) = (properties.get lang).map Json.str := by
  induction properties with
  | nil => rfl
  | cons p properties ih =>
      rw [I18nProperties.encode, Json.ofEntries] at ih ⊢
      rw [I18nProperties.toEntries, List.map_cons, List.map_cons, ← I18nProperties.toEntries,
        I18nProperties.get, List.find?_cons]
      by_cases h : p.key = lang
      · subst h
        simp [Json.get?, Json.ofEntry]
      · have hne : String.ofList lang ≠ String.ofList p.key := fun heq =>
          h (String.ofList_injective heq).symm
        rw [decide_eq_false h, ← I18nProperties.get, ← ih]
        exact Json.lookup_ne hne

theorem translation_labels {Shape Geometry Color : Type} (crates : Crates Shape Geometry Color)
    (place : TranslatedPlace Shape Geometry) (lang : Text) :
    translation (place.encode crates) "labels" lang = (place.labels.get lang).map Json.str := by
  rw [translation, place.get?_labels, Option.bind_some, get?_encode]

structure SearchesTranslations (writer : JsonWriter F S) (q lang : Text)
    (settings : StringQuery F) (query_type : QueryType) (coord : Option QueryCoord)
    (doc : Json Float) : Prop where
  names : (translation doc "names" lang).isSome → "names.".toList ++ lang ∈
    namedFields (buildStringQuery writer q lang settings query_type coord)
  labels : (translation doc "labels" lang).isSome →
    ∀ path ∈ labelFields query_type ("labels.".toList ++ lang),
      path ∈ namedFields (buildStringQuery writer q lang settings query_type coord)

theorem labels_not_named (q lang : Text) (settings : StringQuery F) (query_type : QueryType)
    (coord : Option QueryCoord) : "labels.".toList ++ lang ∉
      namedFields (buildStringQuery writer q lang settings query_type coord) := by
  rw [namedFields_buildStringQuery]
  cases query_type <;> simp

theorem searches_translations_iff {Shape Geometry Color : Type}
    (crates : Crates Shape Geometry Color) (writer : JsonWriter F S) (q lang : Text)
    (settings : StringQuery F) (query_type : QueryType) (coord : Option QueryCoord)
    (place : TranslatedPlace Shape Geometry) :
    SearchesTranslations writer q lang settings query_type coord (place.encode crates) ↔
      place.labels.get lang = none := by
  constructor
  · intro h
    cases hlabel : place.labels.get lang with
    | none => rfl
    | some value =>
        have hnamed := h.labels (by rw [translation_labels, hlabel]; rfl) _ List.mem_cons_self
        exact absurd hnamed (labels_not_named q lang settings query_type coord)
  · intro hnone
    constructor
    · intro _
      rw [namedFields_buildStringQuery]
      simp
    · intro hlabel
      rw [translation_labels, hnone] at hlabel
      cases hlabel

def amsterdam : TranslatedPlace Unit PlainGeometry :=
  .Admin { Admin.default with
    name := "Amsterdam".toList
    names := [⟨"ru".toList, "Амстердам".toList⟩]
    label := "Amsterdam, Noord-Holland, Nederland".toList
    labels := [⟨"ru".toList, "Амстердам, Северная Голландия, Нидерланды".toList⟩] }

def defaultStringQuery : StringQuery Float :=
  ⟨1, ⟨1.8, 0.6, 0.6, 1, 0.001, 3.8, 1.8⟩⟩

theorem amsterdam_unsearched : ¬ SearchesTranslations
    (floatWriter compensatedLn1p fun _ : Unit => .null)
    "Амстердам, Северная Голландия, Нидерланды".toList "ru".toList defaultStringQuery .PREFIX none
    (amsterdam.encode plainCrates) := by
  intro h
  have htranslated : (translation (amsterdam.encode plainCrates) "labels" "ru".toList).isSome := by
    rw [translation_labels]
    rfl
  exact labels_not_named _ _ _ _ _ (h.labels htranslated _ List.mem_cons_self)

end Mimirsbrunn
