import Mimirsbrunn.Bragi.Routes
import Mimirsbrunn.Library.Floats
import Mimirsbrunn.Library.Outcome

namespace Mimirsbrunn
open Regex Std Outcome

variable {F Shape : Type}

section Filters

variable {request : HttpRequest} {rest path : List Text} {params params' : ForwardGeocoderQuery F}
  {display : Float32 → Text}

theorem cannotDeserialize_ok {α : Type} {read : Except Text α} {a : α} :
    cannotDeserialize read = .ok a ↔ read = .ok a := by
  rw [cannotDeserialize, mapError_ok]

theorem withMethod_ok {method : HttpMethod} :
    withMethod method request = .ok () ↔ request.method = method := by
  rw [withMethod]
  split <;> simp_all

theorem pathPrefix_ok : pathPrefix request = .ok rest ↔
    request.path = "api".toList :: "v1".toList :: rest := by
  rw [pathPrefix]
  constructor
  · intro h
    split at h
    · next hp =>
      have hpath := List.take_append_drop 2 request.path
      rw [hp, Except.ok.inj h] at hpath
      exact hpath.symm
    · cases h
  · intro h
    simp [h]

theorem pathSegment_ok {name : Text} : pathSegment name path = .ok rest ↔ path = name :: rest := by
  cases path with
  | nil => simp [pathSegment]
  | cons segment path =>
      rw [pathSegment]
      split <;> simp_all

theorem pathEnd_ok : pathEnd path = .ok () ↔ path = [] := by
  cases path <;> simp [pathEnd]

theorem rawQuery_ok {param : Text} : rawQuery request = .ok param ↔ request.query = some param := by
  rw [rawQuery]
  split <;> simp_all

def Addressed (method : HttpMethod) (segment : Text) (request : HttpRequest) : Prop :=
  request.method = method ∧ request.path = ["api".toList, "v1".toList, segment]

theorem addressed_ok {method : HttpMethod} {segment : Text} :
    addressed method segment request = .ok () ↔ Addressed method segment request := by
  simp only [addressed, bind_ok, Addressed]
  constructor
  · rintro ⟨_, hmethod, rest, hprefix, tail, hsegment, hend⟩
    obtain rfl := pathEnd_ok.mp hend
    obtain rfl := pathSegment_ok.mp hsegment
    exact ⟨withMethod_ok.mp hmethod, pathPrefix_ok.mp hprefix⟩
  · rintro ⟨hmethod, hpath⟩
    exact ⟨(), withMethod_ok.mpr hmethod, _, pathPrefix_ok.mpr hpath, _, pathSegment_ok.mpr rfl,
      pathEnd_ok.mpr rfl⟩

theorem getFilter_ok {α : Type} {segment : Text} {query : HttpRequest → Except Rejection α}
    {a : α} {geometry : Option Shape} :
    getFilter segment query request = .ok (a, geometry) ↔
      Addressed .Get segment request ∧ query request = .ok a ∧ geometry = none := by
  simp only [getFilter, bind_ok]
  constructor
  · rintro ⟨_, haddr, a', ha, hpair⟩
    obtain ⟨rfl, rfl⟩ := Prod.mk.inj (Except.ok.inj hpair)
    exact ⟨addressed_ok.mp haddr, ha, rfl⟩
  · rintro ⟨haddr, ha, rfl⟩
    exact ⟨(), addressed_ok.mpr haddr, a, ha, rfl⟩

theorem postFilter_ok {α : Type} {segment : Text} {query : HttpRequest → Except Rejection α}
    {body : HttpRequest → Except Rejection (Option Shape)} {a : α} {geometry : Option Shape} :
    postFilter segment query body request = .ok (a, geometry) ↔
      Addressed .Post segment request ∧ query request = .ok a ∧ body request = .ok geometry := by
  simp only [postFilter, bind_ok]
  constructor
  · rintro ⟨_, haddr, a', ha, geometry', hbody, hpair⟩
    obtain ⟨rfl, rfl⟩ := Prod.mk.inj (Except.ok.inj hpair)
    exact ⟨addressed_ok.mp haddr, ha, hbody⟩
  · rintro ⟨haddr, ha, hbody⟩
    exact ⟨(), addressed_ok.mpr haddr, a, ha, geometry, hbody, rfl⟩

structure ValidParams (params : ForwardGeocoderQuery F) : Prop where
  q : params.q ≠ []
  both : params.lat.isSome = params.lon.isSome
  lat : ∀ lat, params.lat = some lat → -90 ≤ lat ∧ lat ≤ 90
  lon : ∀ lon, params.lon = some lon → -180 ≤ lon ∧ lon ≤ 180
  zone : ∀ types, params.types = some types → .Zone ∈ types →
    ∃ zone_types, params.zone_types = some zone_types ∧ zone_types ≠ []

theorem ensureQueryStringNotEmpty_ok :
    ensureQueryStringNotEmpty params = .ok params' ↔ params' = params ∧ params.q ≠ [] := by
  rw [ensureQueryStringNotEmpty, guard_ok, List.isEmpty_iff]

theorem ensureZoneTypeConsistent_ok :
    ensureZoneTypeConsistent params = .ok params' ↔ params' = params ∧
      ∀ types, params.types = some types → .Zone ∈ types →
        ∃ zone_types, params.zone_types = some zone_types ∧ zone_types ≠ [] := by
  rw [ensureZoneTypeConsistent, guard_ok]
  refine and_congr_right (fun _ => ?_)
  cases params.types <;> cases params.zone_types <;> simp

theorem ensureLatLonConsistent_ok :
    ensureLatLonConsistent display params = .ok params' ↔ params' = params ∧
      params.lat.isSome = params.lon.isSome ∧
      (∀ lat, params.lat = some lat → -90 ≤ lat ∧ lat ≤ 90) ∧
      (∀ lon, params.lon = some lon → -180 ≤ lon ∧ lon ≤ 180) := by
  rw [ensureLatLonConsistent]
  cases params.lat with
  | none =>
      cases params.lon with
      | none => simpa using eq_comm
      | some lon => simp
  | some lat =>
      cases params.lon with
      | none => simp
      | some lon =>
          by_cases hlat : -90 ≤ lat ∧ lat ≤ 90
          · dsimp only
            rw [if_neg (not_not_intro hlat), guard_ok, not_not]
            simp [hlat]
          · simp [hlat]

def ensureParams (display : Float32 → Text) (params : ForwardGeocoderQuery F) :
    Except Rejection (ForwardGeocoderQuery F) := do
  let params ← ensureQueryStringNotEmpty params
  let params ← ensureZoneTypeConsistent params
  ensureLatLonConsistent display params

theorem ensureParams_ok :
    ensureParams display params = .ok params' ↔ params' = params ∧ ValidParams params := by
  rw [ensureParams, bind_ok]
  constructor
  · rintro ⟨params₁, h₁, hrest⟩
    obtain ⟨rfl, hq⟩ := ensureQueryStringNotEmpty_ok.mp h₁
    obtain ⟨params₂, h₂, h₃⟩ := bind_ok.mp hrest
    obtain ⟨rfl, hzone⟩ := ensureZoneTypeConsistent_ok.mp h₂
    obtain ⟨rfl, hboth, hlat, hlon⟩ := ensureLatLonConsistent_ok.mp h₃
    exact ⟨rfl, hq, hboth, hlat, hlon, hzone⟩
  · rintro ⟨rfl, hq, hboth, hlat, hlon, hzone⟩
    exact ⟨_, ensureQueryStringNotEmpty_ok.mpr ⟨rfl, hq⟩, bind_ok.mpr
      ⟨_, ensureZoneTypeConsistent_ok.mpr ⟨rfl, hzone⟩,
        ensureLatLonConsistent_ok.mpr ⟨rfl, hboth, hlat, hlon⟩⟩⟩

end Filters

inductive Endpoint where
  | ForwardGeocoderGet
  | ForwardGeocoderPost
  | ForwardGeocoderExplainGet
  | ForwardGeocoderExplainPost
  | ReverseGeocoder
  deriving DecidableEq, Repr

inductive Handed (F Shape : Type) where
  | forward (params : ForwardGeocoderQuery F) (geometry : Option Shape)
  | explain (params : ForwardGeocoderExplainQuery F) (geometry : Option Shape)
  | reverse (params : ReverseGeocoderQuery)

namespace Handed

def Valid : Handed F Shape → Prop
  | .forward params _ => ValidParams params
  | .explain params _ => ValidParams params.query
  | .reverse params => (-90 ≤ params.lat ∧ params.lat ≤ 90) ∧ (-180 ≤ params.lon ∧ params.lon ≤ 180)

def NoNaN : Handed F Shape → Prop
  | .forward params _ => ∀ x, params.lat = some x ∨ params.lon = some x → x.isNaN = false
  | .explain params _ => ∀ x, params.query.lat = some x ∨ params.query.lon = some x → x.isNaN = false
  | .reverse params => params.lat.isNaN = false ∧ params.lon.isNaN = false

end Handed

theorem ValidParams.noNaN {params : ForwardGeocoderQuery F} (h : ValidParams params) (x : Float32)
    (hx : params.lat = some x ∨ params.lon = some x) : x.isNaN = false := by
  rcases hx with hx | hx
  · exact (Floats.isNaN_of_le32 (h.lat x hx).2).1
  · exact (Floats.isNaN_of_le32 (h.lon x hx).2).1

theorem Handed.Valid.noNaN {handed : Handed F Shape} (h : handed.Valid) : handed.NoNaN := by
  cases handed with
  | forward params geometry => exact fun x hx => ValidParams.noNaN h x hx
  | explain params geometry => exact fun x hx => ValidParams.noNaN h x hx
  | reverse params => exact ⟨(Floats.isNaN_of_le h.1.2).1, (Floats.isNaN_of_le h.2.2).1⟩

namespace Reader

variable (reader : Reader F Shape)

def accept (request : HttpRequest) : Endpoint → Except Rejection (Handed F Shape)
  | .ForwardGeocoderGet => (reader.forwardGeocoderGet request).map (fun r => .forward r.1 r.2)
  | .ForwardGeocoderPost => (reader.forwardGeocoderPost request).map (fun r => .forward r.1 r.2)
  | .ForwardGeocoderExplainGet =>
      (reader.forwardGeocoderExplainGet request).map (fun r => .explain r.1 r.2)
  | .ForwardGeocoderExplainPost =>
      (reader.forwardGeocoderExplainPost request).map (fun r => .explain r.1 r.2)
  | .ReverseGeocoder => (reader.reverseGeocoder request).map .reverse

def Validates (request : HttpRequest) (endpoint : Endpoint) : Prop :=
  ∀ handed, reader.accept request endpoint = .ok handed → handed.Valid

def ExplainChecked (request : HttpRequest) : Prop :=
  ∀ param params, request.query = some param → reader.explain param = .ok params →
    ensureParams reader.display params.query = .ok params.query

def ReverseInRange (request : HttpRequest) : Prop :=
  ∀ param params, request.query = some param → reader.reverse param = .ok params →
    (-90 ≤ params.lat ∧ params.lat ≤ 90) ∧ (-180 ≤ params.lon ∧ params.lon ≤ 180)

-- The autocomplete filters check what they read; the others only read it.
def Checked (request : HttpRequest) : Endpoint → Prop
  | .ForwardGeocoderGet => True
  | .ForwardGeocoderPost => True
  | .ForwardGeocoderExplainGet =>
      Addressed .Get "autocomplete-explain".toList request → reader.ExplainChecked request
  | .ForwardGeocoderExplainPost =>
      Addressed .Post "autocomplete-explain".toList request →
        (∃ geometry, reader.forwardGeocoderBody request = .ok geometry) →
          reader.ExplainChecked request
  | .ReverseGeocoder => request.method = .Get →
      (∃ rest, request.path = "api".toList :: "v1".toList :: "reverse".toList :: rest) →
        reader.ReverseInRange request

variable {reader} {request : HttpRequest} {geometry : Option Shape}

theorem forwardGeocoderQuery_ok {params : ForwardGeocoderQuery F} :
    reader.forwardGeocoderQuery request = .ok params ↔
      ∃ param, request.query = some param ∧ reader.forward param = .ok params ∧
        ValidParams params := by
  rw [forwardGeocoderQuery, bind_ok]
  simp only [rawQuery_ok]
  refine exists_congr (fun param => and_congr_right (fun _ => ?_))
  rw [bind_ok]
  simp only [cannotDeserialize_ok]
  constructor
  · rintro ⟨read, hread, hchecks⟩
    obtain ⟨rfl, hvalid⟩ := ensureParams_ok.mp hchecks
    exact ⟨hread, hvalid⟩
  · rintro ⟨hread, hvalid⟩
    exact ⟨params, hread, ensureParams_ok.mpr ⟨rfl, hvalid⟩⟩

theorem forwardGeocoderExplainQuery_ok {params : ForwardGeocoderExplainQuery F} :
    reader.forwardGeocoderExplainQuery request = .ok params ↔
      ∃ param, request.query = some param ∧ reader.explain param = .ok params := by
  rw [forwardGeocoderExplainQuery, bind_ok]
  simp only [rawQuery_ok, cannotDeserialize_ok]

theorem reverseGeocoder_ok {params : ReverseGeocoderQuery} :
    reader.reverseGeocoder request = .ok params ↔ request.method = .Get ∧
      (∃ rest, request.path = "api".toList :: "v1".toList :: "reverse".toList :: rest) ∧
      ∃ param, request.query = some param ∧ reader.reverse param = .ok params := by
  simp only [reverseGeocoder, reverseGeocoderQuery, bind_ok, rawQuery_ok, cannotDeserialize_ok]
  constructor
  · rintro ⟨_, hmethod, rest, hprefix, tail, hsegment, hquery⟩
    obtain rfl := pathSegment_ok.mp hsegment
    exact ⟨withMethod_ok.mp hmethod, ⟨tail, pathPrefix_ok.mp hprefix⟩, hquery⟩
  · rintro ⟨hmethod, ⟨tail, hpath⟩, hquery⟩
    exact ⟨(), withMethod_ok.mpr hmethod, _, pathPrefix_ok.mpr hpath, _, pathSegment_ok.mpr rfl,
      hquery⟩

theorem explainChecked_iff : reader.ExplainChecked request ↔ ∀ params,
    reader.forwardGeocoderExplainQuery request = .ok params → ValidParams params.query := by
  simp only [ExplainChecked, forwardGeocoderExplainQuery_ok, ensureParams_ok, true_and]
  exact ⟨fun h params ⟨param, hq, hr⟩ => h param params hq hr,
    fun h param params hq hr => h params ⟨param, hq, hr⟩⟩

theorem forward_validates {result : Except Rejection (ForwardGeocoderQuery F × Option Shape)}
    (h : ∀ params geometry, result = .ok (params, geometry) →
      reader.forwardGeocoderQuery request = .ok params) {handed : Handed F Shape}
    (ha : result.map (fun r => .forward r.1 r.2) = .ok handed) : handed.Valid := by
  obtain ⟨⟨params, geometry⟩, hr, rfl⟩ := map_ok.mp ha
  obtain ⟨_, _, _, hvalid⟩ := forwardGeocoderQuery_ok.mp (h params geometry hr)
  exact hvalid

theorem accept_explainGet {params : ForwardGeocoderExplainQuery F}
    (haddr : Addressed .Get "autocomplete-explain".toList request)
    (hq : reader.forwardGeocoderExplainQuery request = .ok params) :
    reader.accept request .ForwardGeocoderExplainGet = .ok (.explain params none) :=
  map_ok.mpr ⟨(params, none), getFilter_ok.mpr ⟨haddr, hq, rfl⟩, rfl⟩

theorem endpoint_validates_iff (reader : Reader F Shape) (request : HttpRequest)
    (endpoint : Endpoint) :
    (reader.Validates request endpoint ↔ reader.Checked request endpoint) ∧
      ∀ handed : Handed F Shape, handed.Valid → handed.NoNaN := by
  refine ⟨?_, fun _ h => h.noNaN⟩
  cases endpoint with
  | ForwardGeocoderGet =>
      exact iff_of_true (fun _ => forward_validates (fun _ _ hr => (getFilter_ok.mp hr).2.1)) trivial
  | ForwardGeocoderPost =>
      exact iff_of_true (fun _ => forward_validates (fun _ _ hr => (postFilter_ok.mp hr).2.1)) trivial
  | ForwardGeocoderExplainGet =>
      rw [Checked, explainChecked_iff]
      constructor
      · exact fun h haddr params hq => h _ (accept_explainGet haddr hq)
      · intro h handed ha
        obtain ⟨⟨params, geometry⟩, hr, rfl⟩ := map_ok.mp ha
        obtain ⟨haddr, hq, _⟩ := getFilter_ok.mp hr
        exact h haddr params hq
  | ForwardGeocoderExplainPost =>
      rw [Checked, explainChecked_iff]
      constructor
      · rintro h haddr ⟨geometry, hbody⟩ params hq
        exact h (.explain params geometry)
          (map_ok.mpr ⟨(params, geometry), postFilter_ok.mpr ⟨haddr, hq, hbody⟩, rfl⟩)
      · intro h handed ha
        obtain ⟨⟨params, geometry⟩, hr, rfl⟩ := map_ok.mp ha
        obtain ⟨haddr, hq, hbody⟩ := postFilter_ok.mp hr
        exact h haddr ⟨geometry, hbody⟩ params hq
  | ReverseGeocoder =>
      constructor
      · exact fun h hmethod hpath param params hq hr => h (.reverse params)
          (map_ok.mpr ⟨params, reverseGeocoder_ok.mpr ⟨hmethod, hpath, param, hq, hr⟩, rfl⟩)
      · intro h handed ha
        obtain ⟨params, hr, rfl⟩ := map_ok.mp ha
        obtain ⟨hmethod, hpath, param, hq, hread⟩ := reverseGeocoder_ok.mp hr
        exact h hmethod hpath param params hq hread

end Reader

def explainRequest : HttpRequest :=
  { method := .Get
    path := ["api".toList, "v1".toList, "autocomplete-explain".toList]
    query := some "doc_id=x&doc_type=street&q=".toList
    content_length := none
    body := [] }

def emptyQuery : ForwardGeocoderExplainQuery Float :=
  { doc_id := "x".toList
    doc_type := "street".toList
    query :=
      { q := [], lat := none, lon := none, shape_scope := none, types := none, zone_types := none
        poi_types := none, limit := defaultLimitResultEs, lang := defaultLang, timeout := none
        pt_dataset := none, poi_dataset := none, request_id := none, proximity := none } }

def explainReader : Reader Float Unit where
  forward _ := .error []
  explain param := if some param = explainRequest.query then .ok emptyQuery else .error []
  reverse _ := .error []
  body _ := .error []
  display _ := []

theorem empty_query_explained :
    ¬ explainReader.Validates explainRequest .ForwardGeocoderExplainGet := by
  intro h
  have hread : explainReader.forwardGeocoderExplainQuery explainRequest = .ok emptyQuery :=
    Reader.forwardGeocoderExplainQuery_ok.mpr ⟨_, rfl, by simp [explainReader, explainRequest]⟩
  exact (h _ (Reader.accept_explainGet ⟨rfl, rfl⟩ hread)).q rfl

end Mimirsbrunn
