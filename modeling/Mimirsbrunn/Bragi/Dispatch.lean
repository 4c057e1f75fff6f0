import Mimirsbrunn.Bragi.Server

namespace Mimirsbrunn.Places
open Regex Settings

inductive Asked where
  | reverse
  | forwardGet
  | forwardPost
  | features (doc_id : Text)
  | explainGet
  | explainPost
  | status
  | metrics
  deriving DecidableEq, Repr

def askedUnder : HttpMethod → List Text → Option Asked
  | .Get, segment :: rest =>
      if segment = "reverse".toList then some .reverse
      else if segment = "status".toList then some .status
      else match rest with
        | [] =>
            if segment = "autocomplete".toList then some .forwardGet
            else if segment = "autocomplete-explain".toList then some .explainGet
            else if segment = "metrics".toList then some .metrics
            else none
        | [doc_id] =>
            if segment = "features".toList ∧ doc_id ≠ [] then some (.features doc_id) else none
        | _ => none
  | .Post, [segment] =>
      if segment = "autocomplete".toList then some .forwardPost
      else if segment = "autocomplete-explain".toList then some .explainPost
      else none
  | _, _ => none

def asked (request : HttpRequest) : Option Asked :=
  if request.path.take 2 = ["api".toList, "v1".toList] then
    askedUnder request.method (request.path.drop 2)
  else none

def Asked.In (method : HttpMethod) (rest : List Text) : Asked → Prop
  | .reverse => method = .Get ∧ ∃ tail, rest = "reverse".toList :: tail
  | .forwardGet => method = .Get ∧ rest = ["autocomplete".toList]
  | .forwardPost => method = .Post ∧ rest = ["autocomplete".toList]
  | .features doc_id => method = .Get ∧ rest = ["features".toList, doc_id] ∧ doc_id ≠ []
  | .explainGet => method = .Get ∧ rest = ["autocomplete-explain".toList]
  | .explainPost => method = .Post ∧ rest = ["autocomplete-explain".toList]
  | .status => method = .Get ∧ ∃ tail, rest = "status".toList :: tail
  | .metrics => method = .Get ∧ rest = ["metrics".toList]

theorem askedUnder_iff {method : HttpMethod} {rest : List Text} {a : Asked} :
    askedUnder method rest = some a ↔ a.In method rest := by
  constructor
  · intro h
    unfold askedUnder at h
    split at h
    · next segment rest =>
      split at h
      · next he =>
        obtain rfl := Option.some.inj h
        exact ⟨rfl, rest, by rw [he]⟩
      split at h
      · next he =>
        obtain rfl := Option.some.inj h
        exact ⟨rfl, rest, by rw [he]⟩
      split at h
      · split at h
        · next he => obtain rfl := Option.some.inj h; exact ⟨rfl, by rw [he]⟩
        split at h
        · next he => obtain rfl := Option.some.inj h; exact ⟨rfl, by rw [he]⟩
        split at h
        · next he => obtain rfl := Option.some.inj h; exact ⟨rfl, by rw [he]⟩
        · cases h
      · next doc_id =>
        split at h
        · next he => obtain rfl := Option.some.inj h; exact ⟨rfl, by rw [he.1], he.2⟩
        · cases h
      · cases h
    · next segment =>
      split at h
      · next he => obtain rfl := Option.some.inj h; exact ⟨rfl, by rw [he]⟩
      split at h
      · next he => obtain rfl := Option.some.inj h; exact ⟨rfl, by rw [he]⟩
      · cases h
    · cases h
  · intro h
    cases a with
    | reverse => obtain ⟨rfl, tail, rfl⟩ := h; rfl
    | status => obtain ⟨rfl, tail, rfl⟩ := h; rfl
    | features doc_id =>
      obtain ⟨rfl, rfl, hid⟩ := h
      simp [askedUnder, hid]
    | _ => obtain ⟨rfl, rfl⟩ := h; rfl

theorem asked_iff {request : HttpRequest} {a : Asked} : asked request = some a ↔
    ∃ rest, request.path = "api".toList :: "v1".toList :: rest ∧ a.In request.method rest := by
  rw [asked]
  constructor
  · intro h
    split at h
    · next hp =>
      refine ⟨request.path.drop 2, ?_, askedUnder_iff.mp h⟩
      have hpath := List.take_append_drop 2 request.path
      rw [hp] at hpath
      exact hpath.symm
    · cases h
  · rintro ⟨rest, hpath, hin⟩
    rw [hpath]
    exact askedUnder_iff.mpr hin

section Filters

variable {α β : Type} {request : HttpRequest} {P : Asked → Prop} {method : HttpMethod}
  {read : Asked → Except Rejection α} {x : Except Rejection α} {segment : Text} {a : Asked}

-- A filter reads the requests that ask for what is its own. Of the others it says that the method
-- is not its own, and where the method is, that it has nothing under the path.
inductive Filters (P : Asked → Prop) (method : HttpMethod) (request : HttpRequest)
    (read : Asked → Except Rejection α) (x : Except Rejection α) : Prop
  | own {a : Asked} : asked request = some a → P a → request.method = method → x = read a →
      Filters P method request read x
  | method : (∀ a, P a → asked request ≠ some a) → request.method ≠ method →
      x = .error .methodNotAllowed → Filters P method request read x
  | path : (∀ a, P a → asked request ≠ some a) → request.method = method →
      x = .error .notFound → Filters P method request read x

theorem filters_of_path {k : List Text → Except Rejection α}
    (hmethod : ∀ a m rest, P a → a.In m rest → m = method)
    (hk : ∀ rest, (∃ a, P a ∧ a.In method rest ∧ k rest = read a) ∨
      (∀ a, P a → ¬ a.In method rest) ∧ k rest = .error .notFound) :
    Filters P method request read
      (withMethod method request >>= fun _ => pathPrefix request >>= k) := by
  by_cases hm : request.method = method
  · rw [show withMethod method request = .ok () from withMethod_ok.mpr hm]
    by_cases hp : request.path.take 2 = ["api".toList, "v1".toList]
    · have hasked : asked request = askedUnder method (request.path.drop 2) := by
        rw [asked, if_pos hp, hm]
      rw [show pathPrefix request = .ok (request.path.drop 2) by rw [pathPrefix, if_pos hp]]
      rcases hk (request.path.drop 2) with ⟨a, ha, hin, hread⟩ | ⟨hnot, herror⟩
      · exact .own (hasked.trans (askedUnder_iff.mpr hin)) ha hm hread
      · refine .path (fun a ha h => hnot a ha ?_) hm herror
        exact askedUnder_iff.mp (hasked.symm.trans h)
    · rw [show pathPrefix request = .error .notFound by rw [pathPrefix, if_neg hp]]
      refine .path (fun a _ h => ?_) hm rfl
      rw [asked, if_neg hp] at h
      cases h
  · rw [show withMethod method request = .error .methodNotAllowed by rw [withMethod, if_neg hm]]
    refine .method (fun a ha h => ?_) hm rfl
    obtain ⟨rest, _, hin⟩ := asked_iff.mp h
    exact hm (hmethod a _ _ ha hin)

theorem filters_addressed (hin : ∀ m rest, a.In m rest ↔ m = method ∧ rest = [segment]) :
    Filters (· = a) method request read (addressed method segment request >>= fun _ => read a) := by
  have hassoc : (addressed method segment request >>= fun _ => read a) =
      withMethod method request >>= fun _ => pathPrefix request >>= fun rest =>
        pathSegment segment rest >>= fun tail => pathEnd tail >>= fun _ => read a := by
    simp only [addressed, bind_assoc]
  rw [hassoc]
  refine filters_of_path (fun _ m rest ha h => ((hin m rest).mp (ha ▸ h)).1) fun rest => ?_
  simp only [exists_eq_left, forall_eq, hin, true_and]
  cases rest with
  | nil => exact .inr ⟨by simp, rfl⟩
  | cons first tail =>
    by_cases hs : first = segment
    · subst hs
      rw [show pathSegment first (first :: tail) = .ok tail from pathSegment_ok.mpr rfl]
      cases tail with
      | nil => exact .inl ⟨rfl, rfl⟩
      | cons second tail => exact .inr ⟨by simp, rfl⟩
    · refine .inr ⟨by simp [hs], ?_⟩
      rw [pathSegment, if_neg hs]
      rfl

theorem filters_open (hin : ∀ m rest, a.In m rest ↔ m = method ∧ ∃ tail, rest = segment :: tail) :
    Filters (· = a) method request read (withMethod method request >>= fun _ =>
      pathPrefix request >>= fun rest => pathSegment segment rest >>= fun _ => read a) := by
  refine filters_of_path (fun _ m rest ha h => ((hin m rest).mp (ha ▸ h)).1) fun rest => ?_
  simp only [exists_eq_left, forall_eq, hin, true_and]
  cases rest with
  | nil => exact .inr ⟨by simp, rfl⟩
  | cons first tail =>
    by_cases hs : first = segment
    · subst hs
      rw [show pathSegment first (first :: tail) = .ok tail from pathSegment_ok.mpr rfl]
      exact .inl ⟨⟨tail, rfl⟩, rfl⟩
    · refine .inr ⟨by simp [hs], ?_⟩
      rw [pathSegment, if_neg hs]
      rfl

theorem map_bind_error {y : Except Rejection β} {k : β → Except Rejection α} {γ : Type}
    (f : α → γ) : (y >>= k).map f = y >>= fun b => (k b).map f := by
  cases y <;> rfl

end Filters

variable {Shape Geometry Color : Type}

def Server.read (self : Server Shape Geometry Color) (request : HttpRequest) :
    Asked → Except Rejection (Called Geometry)
  | .reverse => (self.reader.reverseGeocoderQuery request).map .reverse
  | .forwardGet => (self.reader.forwardGeocoderQuery request).map (.forward · none)
  | .forwardPost => do
      return .forward (← self.reader.forwardGeocoderQuery request)
        (← self.reader.forwardGeocoderBody request)
  | .features doc_id => do
      return .features doc_id (← cannotDeserialize (self.readFeatures (← rawQuery request)))
  | .explainGet => (self.reader.forwardGeocoderExplainQuery request).map (.explain · none)
  | .explainPost => do
      return .explain (← self.reader.forwardGeocoderExplainQuery request)
        (← self.reader.forwardGeocoderBody request)
  | .status => .ok .status
  | .metrics => .ok .metrics

namespace Server

variable (self : Server Shape Geometry Color) (request : HttpRequest)

theorem filters_reverse : Filters (· = .reverse) .Get request (self.read request)
    ((self.reader.reverseGeocoder request).map .reverse) := by
  have hshape : (self.reader.reverseGeocoder request).map .reverse =
      withMethod .Get request >>= fun _ => pathPrefix request >>= fun rest =>
        pathSegment "reverse".toList rest >>= fun _ => self.read request .reverse := by
    simp only [Reader.reverseGeocoder, map_bind_error, read]
  rw [hshape]
  exact filters_open fun _ _ => Iff.rfl

theorem filters_status : Filters (· = .status) .Get request (self.read request)
    ((statusFilter request).map fun _ => .status) := by
  have hshape : (statusFilter request).map (fun _ => .status) =
      withMethod .Get request >>= fun _ => pathPrefix request >>= fun rest =>
        pathSegment "status".toList rest >>= fun _ => self.read request .status := by
    simp only [statusFilter, map_bind_error]
    rfl
  rw [hshape]
  exact filters_open fun _ _ => Iff.rfl

theorem filters_metrics : Filters (· = .metrics) .Get request (self.read request)
    ((metricsFilter request).map fun _ => .metrics) := by
  have hshape : (metricsFilter request).map (fun _ => Called.metrics) =
      addressed .Get "metrics".toList request >>= fun _ => self.read request .metrics := by
    rw [metricsFilter]
    cases addressed .Get "metrics".toList request <;> rfl
  rw [hshape]
  exact filters_addressed fun _ _ => Iff.rfl

theorem filters_forwardGet : Filters (· = .forwardGet) .Get request (self.read request)
    ((self.reader.forwardGeocoderGet request).map fun r => .forward r.1 r.2) := by
  have hshape : (self.reader.forwardGeocoderGet request).map (fun r => .forward r.1 r.2) =
      addressed .Get "autocomplete".toList request >>= fun _ => self.read request .forwardGet := by
    simp only [Reader.forwardGeocoderGet, getFilter, map_bind_error, read]
    congr 1
  rw [hshape]
  exact filters_addressed fun _ _ => Iff.rfl

theorem filters_forwardPost : Filters (· = .forwardPost) .Post request (self.read request)
    ((self.reader.forwardGeocoderPost request).map fun r => .forward r.1 r.2) := by
  have hshape : (self.reader.forwardGeocoderPost request).map (fun r => .forward r.1 r.2) =
      addressed .Post "autocomplete".toList request >>= fun _ => self.read request .forwardPost := by
    simp only [Reader.forwardGeocoderPost, postFilter, map_bind_error, read]
    rfl
  rw [hshape]
  exact filters_addressed fun _ _ => Iff.rfl

theorem filters_explainGet : Filters (· = .explainGet) .Get request (self.read request)
    ((self.reader.forwardGeocoderExplainGet request).map fun r => .explain r.1 r.2) := by
  have hshape : (self.reader.forwardGeocoderExplainGet request).map (fun r => .explain r.1 r.2) =
      addressed .Get "autocomplete-explain".toList request >>= fun _ =>
        self.read request .explainGet := by
    simp only [Reader.forwardGeocoderExplainGet, getFilter, map_bind_error, read]
    congr 1
  rw [hshape]
  exact filters_addressed fun _ _ => Iff.rfl

theorem filters_explainPost : Filters (· = .explainPost) .Post request (self.read request)
    ((self.reader.forwardGeocoderExplainPost request).map fun r => .explain r.1 r.2) := by
  have hshape : (self.reader.forwardGeocoderExplainPost request).map (fun r => .explain r.1 r.2) =
      addressed .Post "autocomplete-explain".toList request >>= fun _ =>
        self.read request .explainPost := by
    simp only [Reader.forwardGeocoderExplainPost, postFilter, map_bind_error, read]
    rfl
  rw [hshape]
  exact filters_addressed fun _ _ => Iff.rfl

theorem filters_features : Filters (∃ doc_id, · = .features doc_id) .Get request (self.read request)
    ((self.featuresFilter request).map fun r => .features r.1 r.2) := by
  have hshape : (self.featuresFilter request).map (fun r => .features r.1 r.2) =
      withMethod .Get request >>= fun _ => pathPrefix request >>= fun rest =>
        pathSegment "features".toList rest >>= pathParam >>= fun p => pathEnd p.2 >>= fun _ =>
          self.read request (.features p.1) := by
    simp only [featuresFilter, map_bind_error, read, bind_assoc]
    rfl
  rw [hshape]
  refine filters_of_path ?_ fun rest => ?_
  · rintro _ m rest ⟨doc_id, rfl⟩ h
    exact h.1
  have hother (h : ∀ doc_id, rest ≠ ["features".toList, doc_id]) :
      ∀ a : Asked, (∃ doc_id, a = .features doc_id) → ¬ a.In .Get rest := by
    rintro _ ⟨doc_id, rfl⟩ ⟨_, hrest, _⟩
    exact h doc_id hrest
  cases rest with
  | nil => exact .inr ⟨hother (by simp), rfl⟩
  | cons first tail =>
    by_cases hs : first = "features".toList
    · subst hs
      rw [show pathSegment _ (_ :: tail) = .ok tail from pathSegment_ok.mpr rfl]
      match tail with
      | [] => exact .inr ⟨hother (by simp), rfl⟩
      | [] :: tail =>
        refine .inr ⟨?_, rfl⟩
        rintro _ ⟨doc_id, rfl⟩ ⟨_, h, hid⟩
        cases h
        exact hid rfl
      | [c :: cs] => exact .inl ⟨_, ⟨_, rfl⟩, ⟨rfl, rfl, List.cons_ne_nil _ _⟩, rfl⟩
      | (c :: cs) :: second :: tail => exact .inr ⟨hother (by simp), rfl⟩
    · refine .inr ⟨hother fun _ h => hs (List.cons.inj h).1, ?_⟩
      rw [pathSegment, if_neg hs]
      rfl

end Server

def Strays (es : List Cause) : Prop := ∀ e ∈ es, e = .filter .methodNotAllowed

theorem Strays.append {es es' : List Cause} (h : Strays es) (h' : Strays es') :
    Strays (es ++ es') := by
  intro e he
  exact (List.mem_append.mp he).elim (h e) (h' e)

theorem strays_methodNotAllowed : Strays [.filter .methodNotAllowed] :=
  fun _ he => List.mem_singleton.mp he

theorem strays_nil : Strays [] := fun _ he => absurd he List.not_mem_nil

section Courses

variable {self : Server Shape Geometry Color} {request : HttpRequest} {P Q : Asked → Prop}
  {c : Route Geometry Color} {x y : Except Rejection (Called Geometry)} {a : Asked}

def Server.core (self : Server Shape Geometry Color) (request : HttpRequest) (a : Asked) :
    Route Geometry Color :=
  andThen ((self.read request a).mapError Cause.ofRejection) self.handle

def Foreign (methods : HttpMethod → Prop) (request : HttpRequest) (es : List Cause) : Prop :=
  ∀ m, methods m → request.method ≠ m → .filter .methodNotAllowed ∈ es

theorem foreign_of_method {method : HttpMethod} (hm : request.method = method) :
    Foreign (· = method) request [] :=
  fun _ hmethod hne => absurd (hm.trans hmethod.symm) hne

theorem foreign_refused (methods : HttpMethod → Prop) :
    Foreign methods request [.filter .methodNotAllowed] :=
  fun _ _ _ => List.mem_singleton_self _

theorem Foreign.append {ms ms' : HttpMethod → Prop} {es es' : List Cause}
    (h : Foreign ms request es) (h' : Foreign ms' request es') :
    Foreign (fun m => ms m ∨ ms' m) request (es ++ es') := by
  intro m hm hne
  rcases hm with hm | hm
  · exact List.mem_append_left _ (h m hm hne)
  · exact List.mem_append_right _ (h' m hm hne)

-- A route runs what is asked of it, among what its filters say, and declines anything else.
inductive Course (self : Server Shape Geometry Color) (request : HttpRequest) (P : Asked → Prop)
    (methods : HttpMethod → Prop) (c : Route Geometry Color) : Prop
  | own {a : Asked} {es es' : List Cause} : asked request = some a → P a → Strays es →
      Strays es' → (∀ r, self.read request a = .error r → Foreign methods request (es ++ es')) →
      c = (self.core request a).bind (Client.amid es es') → Course self request P methods c
  | other {es : List Cause} : (∀ a, P a → asked request ≠ some a) → Strays es →
      Foreign methods request es → c = Client.declines es → Course self request P methods c

theorem course_of_filters {method : HttpMethod}
    (h : Filters P method request (self.read request) x) :
    Course self request P (· = method) (andThen (x.mapError Cause.ofRejection) self.handle) := by
  cases h with
  | own ha hP hm hx =>
    refine .own ha hP strays_nil strays_nil (fun _ _ => foreign_of_method hm) ?_
    rw [hx, Client.bind_amid_nil, Server.core]
  | method hnot _ hx =>
    refine .other hnot strays_methodNotAllowed (foreign_refused _) ?_
    rw [hx]
    rfl
  | path hnot hm hx =>
    refine .other hnot strays_nil (foreign_of_method hm) ?_
    rw [hx]
    rfl

theorem Course.orElse {ms ms' : HttpMethod → Prop} {c' : Route Geometry Color}
    (h : Course self request P ms c) (h' : Course self request Q ms' c')
    (hPQ : ∀ a, P a → ¬ Q a) :
    Course self request (fun a => P a ∨ Q a) (fun m => ms m ∨ ms' m) (c.orElse c') := by
  cases h with
  | @own a es es' ha hP hes hes' hforeign hc =>
    cases h' with
    | own hb hQ =>
      obtain rfl := Option.some.inj (ha.symm.trans hb)
      exact absurd hQ (hPQ _ hP)
    | @other es'' hnot hes'' hforeign' hc' =>
      refine .own ha (.inl hP) hes (hes'.append hes'') (fun r hr => ?_) ?_
      · rw [← List.append_assoc]
        exact (hforeign r hr).append hforeign'
      · rw [hc, hc', Client.orElse_declines, Client.bind_amid, List.nil_append]
  | @other es hnot hes hforeign hc =>
    cases h' with
    | @own a es' es'' ha hQ hes' hes'' hforeign' hc' =>
      refine .own ha (.inr hQ) (hes.append hes') hes'' (fun r hr => ?_) ?_
      · rw [List.append_assoc]
        exact hforeign.append (hforeign' r hr)
      · rw [hc, hc', Client.declines_orElse, Client.bind_amid, List.append_nil]
    | @other es' hnot' hes' hforeign' hc' =>
      refine .other (fun a ha => ha.elim (hnot a) (hnot' a)) (hes.append hes')
        (hforeign.append hforeign') ?_
      rw [hc, hc', Client.declines_orElse]
      simp only [Client.declines, Client.bind, Client.amid, List.append_nil]

def eitherOf (x y : Except Rejection (Called Geometry)) : Except (List Cause) (Called Geometry) :=
  match x.mapError Cause.ofRejection with
  | .ok called => .ok called
  | .error es => match y.mapError Cause.ofRejection with
      | .ok called => .ok called
      | .error es' => .error (es ++ es')

theorem refused_by_filters {method : HttpMethod}
    (h : Filters P method request (self.read request) x)
    (hnot : ∀ a, P a → asked request ≠ some a) :
    ∃ es, x.mapError Cause.ofRejection = .error es ∧ Strays es ∧
      Foreign (· = method) request es := by
  cases h with
  | own ha hP => exact absurd ha (hnot _ hP)
  | method _ _ hx => exact ⟨_, by rw [hx]; rfl, strays_methodNotAllowed, foreign_refused _⟩
  | path _ hm hx => exact ⟨_, by rw [hx]; rfl, strays_nil, foreign_of_method hm⟩

section Either

variable {method method' : HttpMethod}

theorem course_of_first (ha : asked request = some a) (hP : P a) (hm : request.method = method)
    (hx : x = self.read request a) (hy : Filters Q method' request (self.read request) y)
    (hQ : ¬ Q a) :
    Course self request (fun a => P a ∨ Q a) (fun m => m = method ∨ m = method')
      (andThen (eitherOf x y) self.handle) := by
  cases hr : self.read request a with
  | ok called =>
    refine .own ha (.inl hP) strays_nil strays_nil (fun r h => by rw [hr] at h; cases h) ?_
    rw [eitherOf, hx, hr, Client.bind_amid_nil, Server.core, hr]
    rfl
  | error r =>
    obtain ⟨es, hes, hstray, hforeign⟩ := refused_by_filters hy fun b hb hasked => by
      obtain rfl := Option.some.inj (ha.symm.trans hasked)
      exact hQ hb
    refine .own ha (.inl hP) strays_nil hstray
      (fun _ _ => (foreign_of_method hm).append hforeign) ?_
    rw [eitherOf, hx, hr, hes, Server.core, hr]
    rfl

theorem course_of_second (ha : asked request = some a) (hQ : Q a) (hm : request.method = method')
    (hy : y = self.read request a) (hx : Filters P method request (self.read request) x)
    (hnot : ∀ a, P a → asked request ≠ some a) :
    Course self request (fun a => P a ∨ Q a) (fun m => m = method ∨ m = method')
      (andThen (eitherOf x y) self.handle) := by
  obtain ⟨es, hes, hstray, hforeign⟩ := refused_by_filters hx hnot
  cases hr : self.read request a with
  | ok called =>
    refine .own ha (.inr hQ) strays_nil strays_nil (fun r h => by rw [hr] at h; cases h) ?_
    rw [eitherOf, hes, hy, hr, Client.bind_amid_nil, Server.core, hr]
    rfl
  | error r =>
    refine .own ha (.inr hQ) hstray strays_nil
      (fun _ _ => hforeign.append (foreign_of_method hm)) ?_
    rw [eitherOf, hes, hy, hr, Server.core, hr]
    simp [andThen, Except.mapError, Client.declines, Client.bind, Client.amid]

theorem course_of_neither (hx : Filters P method request (self.read request) x)
    (hy : Filters Q method' request (self.read request) y)
    (hP : ∀ a, P a → asked request ≠ some a) (hQ : ∀ a, Q a → asked request ≠ some a) :
    Course self request (fun a => P a ∨ Q a) (fun m => m = method ∨ m = method')
      (andThen (eitherOf x y) self.handle) := by
  obtain ⟨es, hes, hstray, hforeign⟩ := refused_by_filters hx hP
  obtain ⟨es', hes', hstray', hforeign'⟩ := refused_by_filters hy hQ
  refine .other (fun a ha => ha.elim (hP a) (hQ a)) (hstray.append hstray')
    (hforeign.append hforeign') ?_
  rw [eitherOf, hes, hes']
  rfl

theorem course_of_two (hx : Filters P method request (self.read request) x)
    (hy : Filters Q method' request (self.read request) y) (hPQ : ∀ a, P a → ¬ Q a) :
    Course self request (fun a => P a ∨ Q a) (fun m => m = method ∨ m = method')
      (andThen (eitherOf x y) self.handle) := by
  have hsecond (hP : ∀ a, P a → asked request ≠ some a) :
      Course self request (fun a => P a ∨ Q a) (fun m => m = method ∨ m = method')
        (andThen (eitherOf x y) self.handle) := by
    match hy with
    | .own ha hQ hm hread => exact course_of_second ha hQ hm hread hx hP
    | .method hQ _ _ | .path hQ _ _ => exact course_of_neither hx hy hP hQ
  match hx with
  | .own ha hP hm hread => exact course_of_first ha hP hm hread hy (hPQ _ hP)
  | .method hP _ _ | .path hP _ _ => exact hsecond hP

end Either

theorem reverse_course :
    Course self request (· = .reverse) (· = .Get) (self.reverseRoute request) := by
  have hroute : self.reverseRoute request =
      andThen (((self.reader.reverseGeocoder request).map .reverse).mapError Cause.ofRejection)
        self.handle := by
    rw [Server.reverseRoute, filtered]
    cases self.reader.reverseGeocoder request <;> rfl
  rw [hroute]
  exact course_of_filters (self.filters_reverse request)

theorem features_course :
    Course self request (∃ doc_id, · = .features doc_id) (· = .Get) (self.featuresRoute request) := by
  have hroute : self.featuresRoute request =
      andThen (((self.featuresFilter request).map fun r => .features r.1 r.2).mapError
        Cause.ofRejection) self.handle := by
    rw [Server.featuresRoute, filtered]
    cases self.featuresFilter request <;> rfl
  rw [hroute]
  exact course_of_filters (self.filters_features request)

theorem status_course :
    Course self request (· = .status) (· = .Get) (self.statusRoute request) := by
  have hroute : self.statusRoute request =
      andThen (((Server.statusFilter request).map fun _ => .status).mapError Cause.ofRejection)
        self.handle := by
    rw [Server.statusRoute, filtered]
    cases Server.statusFilter request <;> rfl
  rw [hroute]
  exact course_of_filters (self.filters_status request)

theorem metrics_course :
    Course self request (· = .metrics) (· = .Get) (self.metricsRoute request) := by
  have hroute : self.metricsRoute request =
      andThen (((Server.metricsFilter request).map fun _ => .metrics).mapError Cause.ofRejection)
        self.handle := by
    rw [Server.metricsRoute, filtered]
    cases Server.metricsFilter request <;> rfl
  rw [hroute]
  exact course_of_filters (self.filters_metrics request)

theorem forwardRoute_eq : self.forwardRoute request =
    andThen (eitherOf ((self.reader.forwardGeocoderGet request).map fun r => .forward r.1 r.2)
      ((self.reader.forwardGeocoderPost request).map fun r => .forward r.1 r.2)) self.handle := by
  rw [Server.forwardRoute, orFilter, eitherOf, filtered, filtered]
  cases self.reader.forwardGeocoderGet request with
  | ok r => rfl
  | error e => cases self.reader.forwardGeocoderPost request <;> rfl

theorem explainRoute_eq : self.explainRoute request =
    andThen (eitherOf ((self.reader.forwardGeocoderExplainGet request).map fun r => .explain r.1 r.2)
      ((self.reader.forwardGeocoderExplainPost request).map fun r => .explain r.1 r.2))
      self.handle := by
  rw [Server.explainRoute, orFilter, eitherOf, filtered, filtered]
  cases self.reader.forwardGeocoderExplainGet request with
  | ok r => rfl
  | error e => cases self.reader.forwardGeocoderExplainPost request <;> rfl

theorem forward_course : Course self request (fun a => a = .forwardGet ∨ a = .forwardPost)
    (fun m => m = .Get ∨ m = .Post) (self.forwardRoute request) := by
  rw [forwardRoute_eq]
  refine course_of_two (self.filters_forwardGet request) (self.filters_forwardPost request) ?_
  rintro _ rfl
  exact nofun

theorem explain_course : Course self request (fun a => a = .explainGet ∨ a = .explainPost)
    (fun m => m = .Get ∨ m = .Post) (self.explainRoute request) := by
  rw [explainRoute_eq]
  refine course_of_two (self.filters_explainGet request) (self.filters_explainPost request) ?_
  rintro _ rfl
  exact nofun

theorem Course.covers {ms ms' : HttpMethod → Prop} (h : Course self request P ms c)
    (hP : ∀ a, P a) (hms : ∀ m, ms' m → ms m) : Course self request (fun _ => True) ms' c := by
  cases h with
  | own ha _ hes hes' hforeign hc =>
    exact .own ha trivial hes hes' (fun r hr m hm => hforeign r hr m (hms m hm)) hc
  | other hnot hes hforeign hc =>
    exact .other (fun a _ => hnot a (hP a)) hes (fun m hm => hforeign m (hms m hm)) hc

theorem routes_course : Course self request (fun _ => True) (fun m => m = .Get ∨ m = .Post)
    (Client.firstOf [self.reverseRoute request, self.forwardRoute request,
      self.featuresRoute request, self.explainRoute request, self.statusRoute request,
      self.metricsRoute request]) := by
  have forward : Course self request _ _ _ := reverse_course.orElse forward_course
    (by rintro _ rfl; simp)
  have features := forward.orElse features_course (by rintro _ (rfl | rfl | rfl) <;> simp)
  have explain := features.orElse explain_course
    (by rintro _ ((rfl | rfl | rfl) | ⟨_, rfl⟩) <;> simp)
  have status := explain.orElse status_course
    (by rintro _ (((rfl | rfl | rfl) | ⟨_, rfl⟩) | rfl | rfl) <;> simp)
  have metrics := status.orElse metrics_course
    (by rintro _ ((((rfl | rfl | rfl) | ⟨_, rfl⟩) | rfl | rfl) | rfl) <;> simp)
  exact metrics.covers (fun a => by cases a <;> simp) (fun m hm => by simp [hm])

end Courses

namespace Server

variable (self : Server Shape Geometry Color)

def noRoute : Reply Geometry Color :=
  .json 404 (.error ⟨"no route".toList, self.methodNotAllowed⟩)

def refusal : Rejection → Reply Geometry Color
  | .invalidQuery => .json 400 (.error ⟨"invalid query".toList, self.invalidQuery⟩)
  | .invalidRequest _ info => .json 400 (.error ⟨"validation error".toList, info⟩)
  | _ => self.noRoute

def answer (request : HttpRequest) :
    Client (ReadRequest Float) (ReadResponse Float) (Except Text (Reply Geometry Color)) :=
  match asked request with
  | none => .done (.ok (self.cacheFilter self.noRoute))
  | some a => match self.read request a with
      | .error rejection => .done (.ok (self.cacheFilter (self.refusal rejection)))
      | .ok called => (self.handle called).bind fun x => .done (self.recover x)

variable {self} {es es' : List Cause}

theorem findSome?_strays {γ : Type} {f : Cause → Option γ} (hf : f (.filter .methodNotAllowed) = none)
    (h : Strays es) (h' : Strays es') (own : List Cause) :
    (es ++ own ++ es').findSome? f = own.findSome? f := by
  have hnone {es : List Cause} (h : Strays es) : es.findSome? f = none :=
    List.findSome?_eq_none_iff.mpr fun e he => by rw [h e he, hf]
  rw [List.findSome?_append, List.findSome?_append, hnone h, hnone h', Option.none_or,
    Option.or_none]

theorem invalidQuery_strays (h : Strays es) (h' : Strays es') (own : List Cause) :
    .filter .invalidQuery ∈ es ++ own ++ es' ↔ .filter .invalidQuery ∈ own := by
  have hnot {es : List Cause} (h : Strays es) : .filter .invalidQuery ∉ es := by
    intro hm
    cases h _ hm
  simp only [List.mem_append, hnot h, hnot h', false_or, or_false]

theorem reportInvalid_untold {own : List Cause} (h : Strays es) (h' : Strays es')
    (hquery : .filter .invalidQuery ∉ own) (hinvalid : own.findSome? Cause.invalid = none)
    (hfailure : own.findSome? Cause.failure = none)
    (hm : .filter .methodNotAllowed ∈ es ++ es') :
    (self.reportInvalid (es ++ own ++ es') : Reply Geometry Color) = self.noRoute := by
  have hall : .filter .methodNotAllowed ∈ es ++ own ++ es' :=
    (List.sublist_append_left es own).append (.refl es') |>.subset hm
  rw [reportInvalid, if_neg ((invalidQuery_strays h h' own).not.mpr hquery),
    findSome?_strays rfl h h', hinvalid, findSome?_strays rfl h h', hfailure]
  exact if_pos hall

theorem reportInvalid_refusal (rejection : Rejection) (h : Strays es) (h' : Strays es')
    (hm : .filter .methodNotAllowed ∈ es ++ es') :
    (self.reportInvalid (es ++ Cause.ofRejection rejection ++ es') : Reply Geometry Color) =
      self.refusal rejection := by
  cases rejection with
  | invalidQuery =>
    exact if_pos ((invalidQuery_strays h h' _).mpr List.mem_cons_self)
  | invalidRequest reason info =>
    rw [reportInvalid, if_neg ((invalidQuery_strays h h' _).not.mpr (by simp [Cause.ofRejection])),
      findSome?_strays rfl h h']
    rfl
  | _ => exact reportInvalid_untold h h' (by simp [Cause.ofRejection]) rfl rfl hm

theorem reportInvalid_strays (h : Strays es) (hm : .filter .methodNotAllowed ∈ es) :
    (self.reportInvalid es : Reply Geometry Color) = self.noRoute := by
  have hnothing : self.reportInvalid (es ++ Cause.ofRejection .notFound ++ []) =
      self.refusal .notFound :=
    reportInvalid_refusal .notFound h strays_nil (by rwa [List.append_nil])
  rwa [Cause.ofRejection, List.append_nil, List.append_nil] at hnothing

theorem reportInvalid_internal (err : InternalError) (h : Strays es) (h' : Strays es') :
    (self.reportInvalid (es ++ [.internal err] ++ es') : Reply Geometry Color) =
      self.reportInvalid [.internal err] := by
  rw [reportInvalid, if_neg ((invalidQuery_strays h h' _).not.mpr (by simp)),
    findSome?_strays rfl h h', findSome?_strays rfl h h']
  rfl

theorem replied_amid {γ : Type} (f : γ → Reply Geometry Color) (handled : Handled γ)
    (h : Strays es) (h' : Strays es') :
    ((replied f handled).bind (Client.amid es es')).bind (fun x => .done (self.recover x)) =
      (replied f handled).bind fun x => .done (self.recover x) := by
  simp only [replied, Client.bind_assoc]
  congr 1
  funext result
  rcases result with (err | message) | a
  · simp only [Client.bind, Client.amid, recover, reportInvalid_internal err h h']
  · rfl
  · rfl

theorem handle_amid (called : Called Geometry) (h : Strays es) (h' : Strays es') :
    ((self.handle called).bind (Client.amid es es')).bind (fun x => .done (self.recover x)) =
      (self.handle called).bind fun x => .done (self.recover x) := by
  cases called with
  | metrics => rfl
  | _ => exact replied_amid _ _ h h'

theorem exists_other_method (request : HttpRequest) :
    ∃ m, (m = HttpMethod.Get ∨ m = .Post) ∧ request.method ≠ m := by
  by_cases hget : request.method = .Get
  · exact ⟨.Post, .inr rfl, by rw [hget]; exact nofun⟩
  · exact ⟨.Get, .inl rfl, hget⟩

theorem api_eq (self : Server Shape Geometry Color) (request : HttpRequest) :
    self.api request = self.answer request := by
  obtain ⟨m, hm, hne⟩ := exists_other_method request
  have hcourse : Course self request _ _ _ := routes_course
  rw [api]
  cases hcourse with
  | @own a es es' ha _ hes hes' hforeign hc =>
    rw [hc, core]
    cases hread : self.read request a with
    | ok called =>
      simp only [answer, ha, hread]
      exact handle_amid called hes hes'
    | error rejection =>
      have hrefused : self.reportInvalid (es ++ Cause.ofRejection rejection ++ es') =
          self.refusal rejection :=
        reportInvalid_refusal rejection hes hes' (hforeign rejection hread m hm hne)
      simp only [answer, ha, hread, ← hrefused]
      rfl
  | @other es hnot hes hforeign hc =>
    have hnone : asked request = none :=
      Option.eq_none_iff_forall_ne_some.mpr fun a => hnot a trivial
    simp only [hc, answer, hnone, ← reportInvalid_strays hes (hforeign m hm hne)]
    rfl

def Tells (reply : Reply Geometry Color) : Prop :=
  (reply.status = 200 ∨ reply.status = 400 ∨ reply.status = 404) ∧
    reply.cache_control = some ("max-age=".toList ++ Nat.toDigits 10 self.http_cache_duration)

theorem tells_refusal (rejection : Rejection) :
    self.Tells (self.cacheFilter (self.refusal rejection)) := by
  refine ⟨?_, rfl⟩
  cases rejection with
  | invalidQuery => exact .inr (.inl rfl)
  | invalidRequest => exact .inr (.inl rfl)
  | _ => exact .inr (.inr rfl)

theorem tells_replied {γ : Type} {f : γ → Reply Geometry Color} {handled : Handled γ}
    {good : ReadRequest Float → ReadResponse Float → Prop} {reply : Reply Geometry Color}
    (hf : ∀ a, (f a).status = 200)
    (h : ((replied f handled).bind fun x => .done (self.recover x)).Answered good (.ok reply)) :
    self.Tells reply := by
  rw [replied, Client.bind_assoc] at h
  obtain ⟨result, _, h⟩ := Client.answered_bind h
  rcases result with (err | message) | a
  · obtain rfl := Except.ok.inj (Client.answered_done.mp h)
    exact ⟨.inr (.inl rfl), rfl⟩
  · cases Client.answered_done.mp h
  · obtain rfl := Except.ok.inj (Client.answered_done.mp h)
    exact ⟨.inl (hf a), rfl⟩

theorem api_answers (self : Server Shape Geometry Color) (request : HttpRequest) :
    self.api request = self.answer request ∧
    ∀ good reply, (self.api request).Answered good (.ok reply) → self.Tells reply := by
  refine ⟨api_eq self request, fun good reply h => ?_⟩
  rw [api_eq, answer] at h
  cases ha : asked request with
  | none =>
    rw [ha] at h
    obtain rfl := Except.ok.inj (Client.answered_done.mp h)
    exact ⟨.inr (.inr rfl), rfl⟩
  | some a =>
    rw [ha] at h
    cases hread : self.read request a with
    | error rejection =>
      simp only [hread] at h
      obtain rfl := Except.ok.inj (Client.answered_done.mp h)
      exact tells_refusal rejection
    | ok called =>
      simp only [hread] at h
      cases called with
      | metrics =>
        obtain rfl := Except.ok.inj (Client.answered_done.mp h)
        exact ⟨.inl rfl, rfl⟩
      | _ => exact tells_replied (fun _ => rfl) h

end Server

end Mimirsbrunn.Places
