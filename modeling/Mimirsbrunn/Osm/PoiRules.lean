import Mimirsbrunn.Library.Grouping
import Mimirsbrunn.Library.Outcome
import Mimirsbrunn.Osm.Poi
import Std.Data.TreeSet.Lemmas

namespace Mimirsbrunn
open Regex Std Outcome

inductive PoiError where
  | JsonDeserialization (source : Text)
  | PoiValidation (msg : Text)
  deriving DecidableEq, Repr

def Rule.applies (tags : Tags) (rule : Rule) : Bool :=
  rule.osm_tags_filters.all (fun f => (tags[f.key]?).elim false (· == f.value))

namespace PoiConfig

def isPoi (config : PoiConfig) (tags : Tags) : Bool := (config.getPoiType tags).isSome

def getPoiId (config : PoiConfig) (tags : Tags) : Option Text :=
  (config.getPoiType tags).map Places.PoiType.id

-- How a text is written by `{:?}`.
variable (debug : Text → Text)

def insertId (ids : TreeSet Text) (poi_type : Places.PoiType) : Except PoiError (TreeSet Text) :=
  if poi_type.id ∈ ids then
    .error (.PoiValidation
      ("poi_type_id ".toList ++ debug poi_type.id ++ " present several times".toList))
  else .ok (ids.insert poi_type.id)

def checkRule (ids : TreeSet Text) (rule : Rule) : Except PoiError Unit :=
  if rule.poi_type_id ∉ ids then
    .error (.PoiValidation
      ("poi_type_id ".toList ++ debug rule.poi_type_id ++ " in a rule not declared".toList))
  else .ok ()

def check (config : PoiConfig) : Except PoiError Unit := do
  let ids ← config.poi_types.foldlM (insertId debug) ∅
  config.rules.forM (checkRule debug ids)

-- The text is what `serde_json` says of it: a configuration or why there is none.
def fromReader (json : Except Text PoiConfig) : Except PoiError PoiConfig := do
  let config ← json.mapError .JsonDeserialization
  config.check debug
  return config

end PoiConfig

structure Osm2Mimir.Poi where
  «import» : Bool
  config : Option PoiConfig

def Osm2Mimir.Poi.poiConfig (default : PoiConfig) (pois : Osm2Mimir.Poi) : PoiConfig :=
  pois.config.getD default

namespace PoiConfig

variable {config : PoiConfig} {tags : Tags} {debug : Text → Text}

structure Valid (config : PoiConfig) : Prop where
  distinct : (config.poi_types.map Places.PoiType.id).Nodup
  declared : ∀ rule ∈ config.rules, rule.poi_type_id ∈ config.poi_types.map Places.PoiType.id

theorem insertId_ok {ids ids' : TreeSet Text} {poi_type : Places.PoiType} :
    insertId debug ids poi_type = .ok ids' ↔ ids' = ids.insert poi_type.id ∧ poi_type.id ∉ ids :=
  guard_ok

def insertIds (ids : TreeSet Text) (poi_types : List Places.PoiType) : TreeSet Text :=
  poi_types.foldl (fun ids poi_type => ids.insert poi_type.id) ids

theorem mem_insert_iff {ids : TreeSet Text} {id id' : Text} :
    id' ∈ ids.insert id ↔ id' = id ∨ id' ∈ ids := by
  rw [TreeSet.mem_insert, Std.compare_eq_iff_eq, eq_comm]

theorem mem_insertIds {poi_types : List Places.PoiType} {ids : TreeSet Text} {id : Text} :
    id ∈ insertIds ids poi_types ↔ id ∈ ids ∨ id ∈ poi_types.map Places.PoiType.id := by
  induction poi_types generalizing ids with
  | nil => simp [insertIds]
  | cons poi_type poi_types ih =>
      rw [insertIds, List.foldl_cons, ← insertIds, ih, mem_insert_iff, List.map_cons,
        List.mem_cons, or_right_comm, or_comm, ← or_assoc, or_right_comm]

theorem foldlM_insertId {poi_types : List Places.PoiType} {ids ids' : TreeSet Text} :
    poi_types.foldlM (insertId debug) ids = .ok ids' ↔
      ids' = insertIds ids poi_types ∧ (poi_types.map Places.PoiType.id).Nodup ∧
        ∀ poi_type ∈ poi_types, poi_type.id ∉ ids := by
  induction poi_types generalizing ids with
  | nil =>
      rw [List.foldlM_nil]
      exact ⟨fun h => ⟨(Except.ok.inj h).symm, .nil, fun _ h => (List.not_mem_nil h).elim⟩,
        fun h => congrArg _ h.1.symm⟩
  | cons poi_type poi_types ih =>
      rw [List.foldlM_cons, bind_ok, List.map_cons, List.nodup_cons, List.forall_mem_cons]
      constructor
      · rintro ⟨ids₁, hstep, hrest⟩
        obtain ⟨rfl, hnew⟩ := insertId_ok.mp hstep
        obtain ⟨rfl, hnodup, hfresh⟩ := ih.mp hrest
        simp only [mem_insert_iff, not_or] at hfresh
        refine ⟨rfl, ⟨fun hid => ?_, hnodup⟩, hnew, fun other hother => (hfresh other hother).2⟩
        obtain ⟨other, hother, heq⟩ := List.mem_map.mp hid
        exact (hfresh other hother).1 heq
      · rintro ⟨rfl, ⟨hid, hnodup⟩, hnew, hfresh⟩
        refine ⟨_, insertId_ok.mpr ⟨rfl, hnew⟩, ih.mpr ⟨rfl, hnodup, fun other hother => ?_⟩⟩
        rw [mem_insert_iff, not_or]
        exact ⟨fun heq => hid (List.mem_map.mpr ⟨other, hother, heq⟩), hfresh other hother⟩

theorem checkRule_ok {ids : TreeSet Text} {rule : Rule} :
    checkRule debug ids rule = .ok () ↔ rule.poi_type_id ∈ ids := by
  rw [checkRule, guard_ok, not_not]
  exact and_iff_right rfl

theorem check_ok_iff : config.check debug = .ok () ↔ config.Valid := by
  simp only [check, bind_ok, foldlM_insertId, forM_ok, checkRule_ok]
  constructor
  · rintro ⟨_, ⟨rfl, hnodup, -⟩, hrules⟩
    exact ⟨hnodup, fun rule hrule => (mem_insertIds.mp (hrules rule hrule)).resolve_left
      TreeSet.not_mem_emptyc⟩
  · rintro ⟨hnodup, hdeclared⟩
    exact ⟨_, ⟨rfl, hnodup, fun _ _ => TreeSet.not_mem_emptyc⟩, fun rule hrule =>
      mem_insertIds.mpr (.inr (hdeclared rule hrule))⟩

theorem valid_of_fromReader {json : Except Text PoiConfig}
    (h : fromReader debug json = .ok config) : config.Valid := by
  obtain ⟨read, -, hrest⟩ := bind_ok.mp h
  obtain ⟨_, hcheck, hread⟩ := bind_ok.mp hrest
  obtain rfl := Except.ok.inj hread
  exact check_ok_iff.mp hcheck

theorem getPoiType_eq (config : PoiConfig) (tags : Tags) : config.getPoiType tags =
    (config.rules.find? (Rule.applies tags)).bind (fun rule =>
      config.poi_types.find? (fun poi_type => poi_type.id == rule.poi_type_id)) := rfl

def typesNamed (config : PoiConfig) (rule : Rule) : List Places.PoiType :=
  config.poi_types.filter (fun poi_type => poi_type.id == rule.poi_type_id)

structure FollowsRules (config : PoiConfig) (tags : Tags) : Prop where
  isPoi_iff : config.isPoi tags ↔ ∃ rule ∈ config.rules, rule.applies tags
  theType : config.isPoi tags → ∃ rule poi_type,
    config.rules.find? (Rule.applies tags) = some rule ∧ config.typesNamed rule = [poi_type] ∧
      config.getPoiType tags = some poi_type

theorem getPoiType_of_first {rule : Rule} (h : config.rules.find? (Rule.applies tags) = some rule) :
    config.getPoiType tags = (config.typesNamed rule).head? := by
  rw [getPoiType_eq, h, typesNamed, List.head?_filter]
  rfl

theorem getPoiType_of_none (h : config.rules.find? (Rule.applies tags) = none) :
    config.getPoiType tags = none := by
  rw [getPoiType_eq, h]
  rfl

theorem follows_rules_iff (config : PoiConfig) (tags : Tags) :
    config.FollowsRules tags ↔
      ∀ rule, config.rules.find? (Rule.applies tags) = some rule →
        ∃ poi_type, config.typesNamed rule = [poi_type] := by
  constructor
  · intro h rule hfirst
    have hpoi : config.isPoi tags :=
      h.isPoi_iff.mpr ⟨rule, List.mem_of_find?_eq_some hfirst, List.find?_some hfirst⟩
    obtain ⟨rule', poi_type, hfirst', htype, -⟩ := h.theType hpoi
    obtain rfl := Option.some.inj (hfirst.symm.trans hfirst')
    exact ⟨poi_type, htype⟩
  · intro h
    cases hfirst : config.rules.find? (Rule.applies tags) with
    | none =>
        have hno : ¬ config.isPoi tags := by
          rw [isPoi, getPoiType_of_none hfirst]
          exact Bool.false_ne_true
        refine ⟨⟨fun hpoi => absurd hpoi hno, fun ⟨rule, hrule, happlies⟩ => ?_⟩,
          fun hpoi => absurd hpoi hno⟩
        exact absurd happlies (List.find?_eq_none.mp hfirst rule hrule)
    | some rule =>
        obtain ⟨poi_type, htype⟩ := h rule hfirst
        have hget : config.getPoiType tags = some poi_type := by
          rw [getPoiType_of_first hfirst, htype]
          rfl
        refine ⟨⟨fun _ => ⟨rule, List.mem_of_find?_eq_some hfirst, List.find?_some hfirst⟩,
          fun _ => ?_⟩, fun _ => ⟨rule, poi_type, hfirst, htype, hget⟩⟩
        rw [isPoi, hget]
        rfl

theorem typesNamed_of_valid (h : config.Valid) {rule : Rule} (hrule : rule ∈ config.rules) :
    ∃ poi_type, config.typesNamed rule = [poi_type] := by
  obtain ⟨poi_type, htype, hid⟩ := List.mem_map.mp (h.declared rule hrule)
  simp only [typesNamed, ← hid, beq_eq_decide]
  exact ⟨poi_type, Grouping.filter_key h.distinct htype⟩

theorem follows_of_fromReader {json : Except Text PoiConfig}
    (h : fromReader debug json = .ok config) (tags : Tags) : config.FollowsRules tags :=
  (follows_rules_iff config tags).mpr fun _ hfirst =>
    typesNamed_of_valid (valid_of_fromReader h) (List.mem_of_find?_eq_some hfirst)

def undeclared : Osm2Mimir.Poi where
  «import» := true
  config := some
    { poi_types := [⟨"poi_type:foo".toList, "Foo is Bar".toList⟩]
      rules := [
        ⟨[⟨"bob".toList, "bobette".toList⟩], "poi_type:bob".toList⟩,
        ⟨[⟨"foo".toList, "bar".toList⟩], "poi_type:foo".toList⟩] }

def bobAndFoo : Tags :=
  ((∅ : Tags).insert "bob".toList "bobette".toList).insert "foo".toList "bar".toList

theorem undeclared_hides_rule :
    ¬ (undeclared.poiConfig ⟨[], []⟩).FollowsRules bobAndFoo := by
  intro h
  have hpoi : (undeclared.poiConfig ⟨[], []⟩).isPoi bobAndFoo = false := by decide
  have hrule : ∃ rule ∈ (undeclared.poiConfig ⟨[], []⟩).rules, rule.applies bobAndFoo :=
    ⟨⟨[⟨"foo".toList, "bar".toList⟩], "poi_type:foo".toList⟩, by decide, by decide⟩
  rw [h.isPoi_iff.mpr hrule] at hpoi
  cases hpoi

end PoiConfig

end Mimirsbrunn
