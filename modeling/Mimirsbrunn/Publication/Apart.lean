import Mimirsbrunn.Elasticsearch.Frames
import Mimirsbrunn.Publication.Concurrent
import Mimirsbrunn.Publication.Promises

namespace Mimirsbrunn
open Regex Std Internal

variable {D : Type}

def Import.Covers (i : Import D) (m : Text) : Prop := Matches i.config.name i.config.dataset m

structure Separate {ι : Type} (runs : ι → Import D) : Prop where
  name : ∀ k, Piece (runs k).config.name
  dataset : ∀ k, Piece (runs k).config.dataset
  literal : ∀ k, '*' ∉ (runs k).config.name ∧ '*' ∉ (runs k).config.dataset
  distinct : ∀ j k, (runs j).config.name = (runs k).config.name →
    (runs j).config.dataset = (runs k).config.dataset → j = k

theorem splitIndexName_of_matches {docType dataset m : Text} (ht : Piece docType)
    (hd : Piece dataset) (hstar : '*' ∉ docType ∧ '*' ∉ dataset) (h : Matches docType dataset m) :
    splitIndexName m = .ok (docType, dataset) := by
  obtain ⟨w, rfl⟩ := (matches_iff_stem hstar.1 hstar.2).mp h
  have hr : Piece indexRoot := by decide
  have hname : rootDoctypeDataset docType dataset ++ ['_'] ++ w =
      indexRoot ++ '_' :: docType ++ '_' :: dataset ++ ('_' :: w) := by
    simp [rootDoctypeDataset]
  rw [hname]
  exact splitIndexName_three _ hr ht hd (by simp)

theorem Separate.covers {ι : Type} {runs : ι → Import D} (h : Separate runs) {j k : ι} {m : Text}
    (hj : (runs j).Covers m) (hk : (runs k).Covers m) : j = k := by
  have hsplit := splitIndexName_of_matches (h.name j) (h.dataset j) (h.literal j) hj
  rw [splitIndexName_of_matches (h.name k) (h.dataset k) (h.literal k) hk] at hsplit
  obtain ⟨hname, hdataset⟩ := Prod.mk.inj (Except.ok.inj hsplit)
  exact h.distinct j k hname.symm hdataset.symm

theorem Import.covers_indexName (i : Import D) : i.Covers i.indexName :=
  MadeFor.matches ⟨i.now, rfl⟩

namespace Phase

variable {E : Engine D} {i : Import D} {s s' : Store D} {r : Request D} {x : Response}
  {ph ph' : Phase D} {index : Index}

theorem named_config (ht : Piece i.config.name) (hd : Piece i.config.dataset) (h : Named i index) :
    index.doc_type = i.config.name ∧ index.dataset = i.config.dataset := by
  have hs := h.2
  rw [Import.indexName, splitIndexName_ts _ ht hd] at hs
  obtain ⟨hname, hdataset⟩ := Prod.mk.inj (Except.ok.inj hs)
  exact ⟨hname.symm, hdataset.symm⟩

theorem doomed_startDeleting (i : Import D) (index : Index) (todo : List Text) :
    (i.startDeleting index todo).doomed = todo := by
  cases todo with
  | nil =>
      simp only [Import.startDeleting, Import.startMerging]
      split <;> rfl
  | cons n todo => rfl

theorem doomed_startMoving (i : Import D) (index : Index) (previous todo : List Text) :
    (i.startMoving index previous todo).doomed = previous := by
  cases todo with
  | nil => exact doomed_startDeleting i index previous
  | cons a todo => rfl

theorem doomed_early {ph : Phase D} (h : ph.Early) : ph.doomed = [] :=
  doomed_of_not_publishing h.not_publishing

variable [Document D]

structure Owned (i : Import D) (ph : Phase D) : Prop where
  addressed : ph.Addressed i
  doomed : ∀ m ∈ ph.doomed, i.Covers m

theorem doomed_next (ht : Piece i.config.name) (hd : Piece i.config.dataset)
    (hr : ph.request i = some r) (ha : (elasticsearch E).Answer r s s' x) (h : ph.Owned i) :
    ∀ m ∈ (ph.next i x).doomed, i.Covers m := by
  have hstop (wrap : Error → ModelError) (e : Failure Error) :
      ∀ m ∈ (Import.stop wrap e : Phase D).doomed, i.Covers m := by
    rw [doomed_early (early_stop wrap e)]
    exact List.forall_mem_nil _
  cases ph with
  | filling => cases hr
  | ended => cases hr
  | creating =>
    rw [next]
    split
    · exact List.forall_mem_nil _
    · exact hstop _ _
  | finding =>
    rw [next]
    split
    · exact List.forall_mem_nil _
    · exact List.forall_mem_nil _
    · exact hstop _ _
  | piping index =>
    rw [next]
    split
    · rw [doomed_early (early_startFilling i index)]
      exact List.forall_mem_nil _
    · exact hstop _ _
  | refreshing index =>
    rw [next]
    split
    · exact List.forall_mem_nil _
    · exact hstop _ _
  | listing index =>
    obtain rfl := Option.some.inj hr
    rw [next]
    split
    · next found hx =>
      rw [doomed_startMoving]
      intro m hm
      obtain ⟨hdoc, hset⟩ := named_config ht hd h.addressed
      have hglob := ((listed ha hx m).mp (mem_previousOf.mp hm).1).2
      rwa [hdoc, hset] at hglob
    · exact hstop _ _
  | moving index previous a todo =>
    rw [next]
    split
    · rw [doomed_startMoving]
      exact h.doomed
    · exact hstop _ _
  | deleting index n todo =>
    rw [next]
    split
    · rw [doomed_startDeleting]
      exact fun m hm => h.doomed m (List.mem_cons_of_mem _ hm)
    · exact hstop _ _
  | merging index =>
    rw [next]
    split
    · exact List.forall_mem_nil _
    · exact hstop _ _
  | locating index =>
    rw [next]
    split
    · exact List.forall_mem_nil _
    · exact List.forall_mem_nil _
    · exact hstop _ _

theorem owned_step (ht : Piece i.config.name) (hd : Piece i.config.dataset)
    (hs : Step E i s ph r x s' ph') (h : ph.Owned i) : ph'.Owned i := by
  refine ⟨addressed_step hs h.addressed, ?_⟩
  cases hs with
  | call hr ha => exact doomed_next ht hd hr ha h
  | fill hw ha hsp =>
    rw [doomed_early (early_resumeFilling ..)]
    exact List.forall_mem_nil _

omit [Document D] in
theorem within_aliasActions {a : Text} {previous : List Text} (hn : Named i index)
    (hprevious : ∀ m ∈ previous, i.Covers m) :
    (Request.updateAliases (aliasActions a [index.name] previous) : Request D).Within i.Covers := by
  intro action haction n hn'
  rcases List.mem_append.mp haction with hadd | hremove
  · obtain rfl := List.mem_singleton.mp hadd
    obtain rfl := List.mem_singleton.mp hn'
    rw [hn.1]
    exact i.covers_indexName
  · split at hremove
    · cases hremove
    · obtain rfl := List.mem_singleton.mp hremove
      exact hprevious n hn'

theorem within_request (ht : Piece i.config.name) (hd : Piece i.config.dataset)
    (hr : ph.request i = some r) (h : ph.Owned i) : r.Within i.Covers := by
  have hown := i.covers_indexName
  obtain ⟨hph, hdoomed⟩ := h
  cases ph with
  | filling => cases hr
  | ended => cases hr
  | creating => obtain rfl := Option.some.inj hr; exact hown
  | finding => obtain rfl := Option.some.inj hr; exact hown
  | piping index => obtain rfl := Option.some.inj hr; trivial
  | refreshing index => obtain rfl := Option.some.inj hr; exact hph.1 ▸ hown
  | listing index =>
    obtain rfl := Option.some.inj hr
    obtain ⟨hdoc, hset⟩ := named_config ht hd hph
    intro m hm
    rwa [hdoc, hset] at hm
  | moving index previous a todo =>
    obtain rfl := Option.some.inj hr
    exact within_aliasActions hph.1 hdoomed
  | deleting index n todo =>
    obtain rfl := Option.some.inj hr
    exact hdoomed n List.mem_cons_self
  | merging index =>
    obtain rfl := Option.some.inj hr
    intro m hm
    obtain rfl := List.mem_singleton.mp hm
    exact hph.1 ▸ hown
  | locating index => obtain rfl := Option.some.inj hr; exact hph.1 ▸ hown

theorem sends_client (ht : Piece i.config.name) (hd : Piece i.config.dataset) (h : ph.Owned i) :
    Client.Sends (Request.Within i.Covers) (ph.client i) := by
  cases hr : ph.request i with
  | some r =>
    rw [client_of_request i hr]
    exact within_request ht hd hr h
  | none =>
    cases ph with
    | filling index pending answers =>
      intro q hq
      obtain ⟨ops, _, rfl⟩ := List.mem_map.mp (h.addressed.2 q hq)
      show i.Covers index.name
      rw [h.addressed.1.1]
      exact i.covers_indexName
    | ended result => trivial
    | _ => cases hr

end Phase

variable {E : Engine D} [Document D] {ι : Type} [DecidableEq ι] {runs : ι → Import D}
  {s₀ s : Store D} {clients : ι → Es D ModelError Index}

theorem goes_as_alone (hruns : Separate runs)
    (h : (elasticsearch E).ThrongReach (s₀, fun k => (runs k).run) (s, clients)) (k : ι) :
    ∃ t, (elasticsearch E).Reach (s₀, (runs k).run) (t, clients k) ∧
      ∀ m, Matches (runs k).config.name (runs k).config.dataset m →
        s.indices[m]? = t.indices[m]? := by
  have hapart : (elasticsearch E).Apart (fun k => Request.Within (runs k).Covers)
      (fun k => Store.Same (runs k).Covers) :=
    elasticsearch_apart fun _ _ _ hj hk => hruns.covers hj hk
  refine Service.throng_alone hapart
    (fun k c => ∃ ph : Phase D, c = ph.client (runs k) ∧ ph.Owned (runs k)) ?_ ?_ h
    (fun k => ⟨.creating, rfl, trivial, List.forall_mem_nil _⟩) k
  · rintro j _ ⟨ph, rfl, hph⟩
    exact Phase.sends_client (hruns.name j) (hruns.dataset j) hph
  · rintro j s _ r x s' c' ⟨ph, rfl, hph⟩ hs
    obtain ⟨ph', rfl, hs'⟩ := Phase.step_of_client hs
    exact ⟨ph', rfl, Phase.owned_step (hruns.name j) (hruns.dataset j) hs' hph⟩

def frAndEs : Bool → Import Poi
  | false => frImport (.utc 2021 5 5 0 0 0 0)
  | true =>
    .plain "poi".toList "es".toList (.utc 2021 5 5 0 0 0 0) [⟨"poi:2".toList, "Plaza".toList⟩]

theorem frAndEs_separate : Separate frAndEs where
  name k := by cases k <;> decide
  dataset k := by cases k <;> decide
  literal k := by cases k <;> decide
  distinct j k := by revert j k; decide

def byTurns : List (Bool × Nat) :=
  (List.replicate 10 [(false, 0), (true, 0)]).flatten ++ [(false, 0)]

theorem frAndEs_run : ∃ p, (elasticsearch (Engine.permissive Poi)).ThrongReach
      (frPublished, fun k => (frAndEs k).run) p ∧
    ∀ k, ∃ index, p.2 k = Client.done (.ok index) := by
  have hrun : ((elasticsearch (Engine.permissive Poi)).drive (fun _ _ _ => true) byTurns
      (Import.starts frAndEs frPublished)).map
        (fun p => isOk (p.2 false) && isOk (p.2 true)) = some true := by decide +kernel
  obtain ⟨p, hp, hok⟩ := Option.map_eq_some_iff.mp hrun
  rw [Bool.and_eq_true] at hok
  refine ⟨p, Service.throng_of_crowd (Service.drive_reach hp), fun k => ?_⟩
  cases k
  · exact of_isOk hok.1
  · exact of_isOk hok.2

theorem fr_goes_as_alone : ∃ (s t : Store Poi) (index : Index),
    (elasticsearch (Engine.permissive Poi)).Reach
      (frPublished, (frImport (.utc 2021 5 5 0 0 0 0)).run) (t, .done (.ok index)) ∧
    ∀ m, Matches "poi".toList "fr".toList m → s.indices[m]? = t.indices[m]? := by
  obtain ⟨⟨s, clients⟩, hrun, hdone⟩ := frAndEs_run
  obtain ⟨t, hreach, hsame⟩ := goes_as_alone frAndEs_separate hrun false
  obtain ⟨index, hindex⟩ := hdone false
  exact ⟨s, t, index, hindex ▸ hreach, hsame⟩

end Mimirsbrunn
