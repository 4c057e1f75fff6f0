import Mimirsbrunn.Library.Json
import Mathlib.Data.List.ReduceOption

-- Queries of Elasticsearch in a filter context, read from their JSON.
namespace BoolQuery

variable {F : Type}

inductive Query (F : Type) where
  | bool (must filter must_not should : List (Query F))
  | term (field value : List Char)
  | terms (field : List Char) (values : List (List Char))
  | isPresent (field : List Char)
  | textMatch (field : List Char) (options : Json F)
  | intersects (field : List Char) (shape : Json F)

-- What an index knows of a document: exact values, analysed texts and places.
structure Document (F : Type) where
  values : List Char → List (List Char)
  isPresent : List Char → Bool
  matchesText : List Char → Json F → Bool
  intersects : List Char → Json F → Bool

mutual

def passes (doc : Document F) : Query F → Bool
  | .bool must filter must_not should =>
      passesAll doc must && passesAll doc filter && !passesAny doc must_not &&
        -- minimum_should_match is 1 when nothing stands beside `should`, and 0 otherwise.
        (!(must.isEmpty && filter.isEmpty && !should.isEmpty) || passesAny doc should)
  | .term field value => (doc.values field).contains value
  | .terms field values => values.any (doc.values field).contains
  | .isPresent field => doc.isPresent field
  | .textMatch field options => doc.matchesText field options
  | .intersects field shape => doc.intersects field shape

def passesAll (doc : Document F) : List (Query F) → Bool
  | [] => true
  | query :: queries => passes doc query && passesAll doc queries

def passesAny (doc : Document F) : List (Query F) → Bool
  | [] => false
  | query :: queries => passes doc query || passesAny doc queries

end

structure Clauses (F : Type) where
  must : List (Query F)
  filter : List (Query F)
  must_not : List (Query F)
  should : List (Query F)

def leaf (name : String) (field : String) (body : Json F) : Option (Query F) :=
  match name, body with
  | "term", .str value => some (.term field.toList value)
  | "terms", .arr items => (Json.arr items).strs?.map (.terms field.toList)
  | "exists", .str value => if field = "field" then some (.isPresent value) else none
  | "match", .obj options => some (.textMatch field.toList (.obj options))
  | "geo_shape", .obj options =>
      match (Json.obj options).get? "relation", (Json.obj options).get? "shape" with
      | some (.str relation), some shape =>
          if relation = "intersects".toList then some (.intersects field.toList shape) else none
      | _, _ => none
  | _, _ => none

def Clauses.add (clauses : Clauses F) (name : String) (queries : List (Query F)) :
    Option (Clauses F) :=
  match name with
  | "must" => some { clauses with must := queries ++ clauses.must }
  | "filter" => some { clauses with filter := queries ++ clauses.filter }
  | "must_not" => some { clauses with must_not := queries ++ clauses.must_not }
  | "should" => some { clauses with should := queries ++ clauses.should }
  | _ => none

mutual

def parse : List (String × Json F) → Option (Query F)
  | [("bool", .obj fields)] =>
      (parseClauses fields).map (fun c => .bool c.must c.filter c.must_not c.should)
  | [(name, .obj [(field, body)])] => leaf name field body
  | _ => none

def parseClauses : List (String × Json F) → Option (Clauses F)
  | [] => some ⟨[], [], [], []⟩
  | (name, value) :: fields =>
      (parseValue value).bind (fun queries =>
        (parseClauses fields).bind (fun clauses => clauses.add name queries))

def parseValue : Json F → Option (List (Query F))
  | .obj fields => (parse fields).map ([·])
  | .arr items => parseItems items
  | _ => none

def parseItems : List (Json F) → Option (List (Query F))
  | [] => some []
  | .obj fields :: items => (parse fields).bind (fun query => (parseItems items).map (query :: ·))
  | _ :: _ => none

end

theorem passesAll_append (doc : Document F) (xs ys : List (Query F)) :
    passesAll doc (xs ++ ys) = (passesAll doc xs && passesAll doc ys) := by
  induction xs with
  | nil => rw [List.nil_append, passesAll, Bool.true_and]
  | cons x xs ih => rw [List.cons_append, passesAll, passesAll, ih, Bool.and_assoc]

theorem parseItems_append (xs ys : List (Json F)) {queries rest : List (Query F)}
    (hxs : parseItems xs = some queries) (hys : parseItems ys = some rest) :
    parseItems (xs ++ ys) = some (queries ++ rest) := by
  induction xs generalizing queries with
  | nil =>
    rw [parseItems, Option.some.injEq] at hxs
    rw [← hxs]
    exact hys
  | cons x xs ih =>
    cases x with
    | obj fields =>
      rw [parseItems, Option.bind_eq_some_iff] at hxs
      obtain ⟨query, hquery, hxs⟩ := hxs
      rw [Option.map_eq_some_iff] at hxs
      obtain ⟨others, hothers, rfl⟩ := hxs
      rw [List.cons_append, parseItems, hquery, ih hothers]
      rfl
    | _ => cases hxs

def Means (value : Json F) (p : Document F → Prop) : Prop :=
  ∃ fields query, value = .obj fields ∧ parse fields = some query ∧
    ∀ doc, passes doc query = true ↔ p doc

def MeansAll (items : List (Json F)) (p : Document F → Prop) : Prop :=
  ∃ queries, parseItems items = some queries ∧ ∀ doc, passesAll doc queries = true ↔ p doc

section Rules

variable {value other : Json F} {p q : Document F → Prop}

theorem Means.parseValue (h : Means value p) :
    ∃ query, parseValue value = some [query] ∧ ∀ doc, passes doc query = true ↔ p doc := by
  obtain ⟨fields, query, rfl, hquery, hp⟩ := h
  exact ⟨query, by rw [BoolQuery.parseValue, hquery, Option.map_some], hp⟩

theorem Means.congr (h : Means value p) (hpq : ∀ doc, p doc ↔ q doc) : Means value q := by
  obtain ⟨fields, query, hvalue, hquery, hp⟩ := h
  exact ⟨fields, query, hvalue, hquery, fun doc => (hp doc).trans (hpq doc)⟩

theorem means_term (field : String) (text : List Char) :
    Means (F := F) (.obj [("term", .obj [(field, .str text)])])
      (fun doc => text ∈ doc.values field.toList) :=
  ⟨_, .term field.toList text, rfl, rfl, fun doc => by simp [passes]⟩

theorem means_terms (field : String) (texts : List (List Char)) :
    Means (F := F) (.obj [("terms", .obj [(field, .strs texts)])])
      (fun doc => ∃ text ∈ texts, text ∈ doc.values field.toList) := by
  refine ⟨_, .terms field.toList texts, rfl, ?_, fun doc => by simp [passes]⟩
  show ((Json.strs texts).strs?).map _ = _
  rw [Json.strs?_strs, Option.map_some]

theorem means_exists (field : List Char) :
    Means (F := F) (.obj [("exists", .obj [("field", .str field)])])
      (fun doc => doc.isPresent field = true) :=
  ⟨_, .isPresent field, rfl, rfl, fun doc => by rw [passes]⟩

theorem means_match (field : String) (options : List (String × Json F)) :
    Means (.obj [("match", .obj [(field, .obj options)])])
      (fun doc => doc.matchesText field.toList (.obj options) = true) :=
  ⟨_, .textMatch field.toList (.obj options), rfl, rfl, fun doc => by rw [passes]⟩

theorem means_geo_shape (field : String) (shape : Json F) :
    Means (.obj [("geo_shape", .obj [(field, .obj [
        ("shape", shape), ("relation", .str "intersects".toList)])])])
      (fun doc => doc.intersects field.toList shape = true) :=
  ⟨_, .intersects field.toList shape, rfl, rfl, fun doc => by rw [passes]⟩

theorem Means.not (h : Means value p) :
    Means (.obj [("bool", .obj [("must_not", value)])]) (fun doc => ¬p doc) := by
  obtain ⟨query, hquery, hp⟩ := h.parseValue
  refine ⟨_, .bool [] [] [query] [], rfl, ?_, fun doc => ?_⟩
  · simp [parse, parseClauses, hquery, Clauses.add]
  · simp [passes, passesAll, passesAny, ← hp]

theorem Means.and (h : Means value p) (h' : Means other q) :
    Means (.obj [("bool", .obj [("must", .arr [value, other])])])
      (fun doc => p doc ∧ q doc) := by
  obtain ⟨fields, query, rfl, hquery, hp⟩ := h
  obtain ⟨fields', query', rfl, hquery', hq⟩ := h'
  refine ⟨_, .bool [query, query'] [] [] [], rfl, ?_, fun doc => ?_⟩
  · simp [parse, parseClauses, BoolQuery.parseValue, parseItems, hquery, hquery', Clauses.add]
  · simp [passes, passesAll, passesAny, hp, hq]

theorem Means.must_filter (h : Means value p) (h' : Means other q) :
    Means (.obj [("bool", .obj [("must", value), ("filter", other)])])
      (fun doc => p doc ∧ q doc) := by
  obtain ⟨query, hquery, hp⟩ := h.parseValue
  obtain ⟨query', hquery', hq⟩ := h'.parseValue
  refine ⟨_, .bool [query] [query'] [] [], rfl, ?_, fun doc => ?_⟩
  · simp [parse, parseClauses, hquery, hquery', Clauses.add]
  · simp [passes, passesAll, passesAny, hp, hq]

theorem Means.or (h : Means value p) (h' : Means other q) :
    Means (.obj [("bool", .obj [("should", .arr [value, other])])])
      (fun doc => p doc ∨ q doc) := by
  obtain ⟨fields, query, rfl, hquery, hp⟩ := h
  obtain ⟨fields', query', rfl, hquery', hq⟩ := h'
  refine ⟨_, .bool [] [] [] [query, query'], rfl, ?_, fun doc => ?_⟩
  · simp [parse, parseClauses, BoolQuery.parseValue, parseItems, hquery, hquery', Clauses.add]
  · simp [passes, passesAll, passesAny, hp, hq]

theorem meansAll_nil : MeansAll ([] : List (Json F)) (fun _ => True) :=
  ⟨[], by rw [parseItems], fun doc => by simp [passesAll]⟩

theorem MeansAll.append {items rest : List (Json F)} (h : MeansAll items p)
    (h' : MeansAll rest q) : MeansAll (items ++ rest) (fun doc => p doc ∧ q doc) := by
  obtain ⟨queries, hqueries, hp⟩ := h
  obtain ⟨queries', hqueries', hq⟩ := h'
  refine ⟨queries ++ queries', parseItems_append items rest hqueries hqueries', fun doc => ?_⟩
  rw [passesAll_append, Bool.and_eq_true, hp, hq]

theorem Means.cons {items : List (Json F)} (h : Means value p) (h' : MeansAll items q) :
    MeansAll (value :: items) (fun doc => p doc ∧ q doc) := by
  obtain ⟨fields, query, rfl, hquery, hp⟩ := h
  obtain ⟨queries, hqueries, hq⟩ := h'
  refine ⟨query :: queries, ?_, fun doc => ?_⟩
  · rw [parseItems, hquery, hqueries]
    rfl
  · rw [passesAll, Bool.and_eq_true, hp, hq]

theorem MeansAll.option {α : Type} {build : α → Json F} {r : α → Document F → Prop}
    {items : List (Option (Json F))} (o : Option α) (h : ∀ a, Means (build a) (r a))
    (h' : MeansAll items.reduceOption q) :
    MeansAll (o.map build :: items).reduceOption
      (fun doc => (∀ a, o = some a → r a doc) ∧ q doc) := by
  cases o with
  | none => simpa using h'
  | some a => simpa using (h a).cons h'

end Rules

end BoolQuery
