import Mimirsbrunn.Elasticsearch.Bulk
import Mimirsbrunn.Library.Crowd
import Mimirsbrunn.Publication.Readers

namespace Mimirsbrunn
open Regex Std Internal

variable {D : Type} {E : Engine D} {fits : Text → D → Prop}

structure Store.Keeps (fits : Text → D → Prop) (s : Store D) : Prop where
  documents : s.AllDocs fits
  aliases : ∀ a n, s.Aliased a n → ∀ d, fits n d → fits a d

def AliasAction.Keeps (fits : Text → D → Prop) : AliasAction → Prop
  | .add a ns => ∀ n ∈ ns, ∀ d, fits n d → fits a d
  | .remove .. => True

def Request.Keeps (fits : Text → D → Prop) : Request D → Prop
  | .updateAliases actions => ∀ action ∈ actions, action.Keeps fits
  | r => r.Inserts fits

def Import.Keeps (fits : Text → D → Prop) (i : Import D) : Prop :=
  (∀ d ∈ i.documents, fits i.indexName d) ∧
    ∀ index, Phase.Named i index → ∀ a ∈ i.plan index, ∀ d, fits i.indexName d → fits a d

namespace Store

variable {s s' : Store D} {r : Request D} {x : Response} {a n : Text} {d : D}

theorem Keeps.behind (h : s.Keeps fits) (hn : s.Stands a n) (hd : s.Searchable n d) : fits a d := by
  obtain ⟨docs, searchable, id, hc, hd⟩ := hd
  have hfits : fits n d := h.documents n docs searchable hc id d (.inr hd)
  rcases hn.2 with rfl | ha
  · exact hfits
  · exact h.aliases a n ha d hfits

theorem keeps_act {action : AliasAction} (haction : action.Keeps fits)
    (h : ∀ a n, s.Aliased a n → ∀ d, fits n d → fits a d) :
    ∀ a n, (s.act action).Aliased a n → ∀ d, fits n d → fits a d := by
  intro a n ha
  cases action with
  | add b ns =>
    rcases aliased_add.mp ha with hold | ⟨rfl, hn, _⟩
    · exact h a n hold
    · exact haction n hn
  | remove b ns => exact h a n (aliased_remove.mp ha).1

theorem keeps_foldl_act {actions : List AliasAction} (hactions : ∀ action ∈ actions, action.Keeps fits)
    (h : ∀ a n, s.Aliased a n → ∀ d, fits n d → fits a d) :
    ∀ a n, (actions.foldl act s).Aliased a n → ∀ d, fits n d → fits a d := by
  induction actions generalizing s with
  | nil => exact h
  | cons action actions ih =>
    rw [List.forall_mem_cons] at hactions
    exact ih hactions.2 (keeps_act hactions.1 h)

theorem Keeps.serve (h : s.Keeps fits) (hr : r.Keeps fits) : (s.serve E r).1.Keeps fits := by
  have hinserts : r.Inserts fits := by
    cases r with
    | updateAliases actions => trivial
    | _ => exact hr
  refine ⟨h.documents.serve hinserts, fun a n ha => ?_⟩
  cases r with
  | createIndex k shards replicas => exact h.aliases a n ((aliased_createIndex ..).mp ha)
  | bulk k ops => exact h.aliases a n ((aliased_bulk ops).mp ha)
  | refresh k => exact h.aliases a n (aliased_refresh.mp ha)
  | deleteIndex k => exact h.aliases a n (aliased_deleteIndex.mp ha).1
  | updateAliases actions =>
    rcases updateAliases_cases actions s with ⟨k, he, _⟩ | ⟨he, _⟩
    · have hsame : (s.serve E (.updateAliases actions)).1 = s := congrArg Prod.fst he
      exact h.aliases a n (hsame ▸ ha)
    · have hacted : (s.serve E (.updateAliases actions)).1 = actions.foldl act s :=
        congrArg Prod.fst he
      exact keeps_foldl_act hr h.aliases a n (hacted ▸ ha)
  | catIndices k => exact h.aliases a n ha
  | putPipeline name => exact h.aliases a n ha
  | getAlias pattern => exact h.aliases a n ha
  | forcemerge ns max => exact h.aliases a n ha

theorem Keeps.answer (h : s.Keeps fits) (ha : (elasticsearch E).Answer r s s' x)
    (hr : r.Keeps fits) : s'.Keeps fits := by
  rcases answer_cases ha with rfl | rfl | ⟨k, ops, j, rfl, rfl⟩
  · exact h
  · exact h.serve hr
  · refine h.serve (E := E) (r := .bulk k (ops.take j)) fun op hop => ?_
    exact hr op (List.mem_of_mem_take hop)

end Store

namespace Phase

variable [Document D] {i : Import D} {s s' : Store D} {r : Request D} {x : Response}
  {ph ph' : Phase D} {index : Index}

def Addressed (i : Import D) : Phase D → Prop
  | .creating => True
  | .finding => True
  | .piping index => Named i index
  | .filling index pending _ => Named i index ∧ ∀ q ∈ pending, q ∈ i.chunkRequests index
  | .refreshing index => Named i index
  | .listing index => Named i index
  | .moving index _ a todo => Named i index ∧ ∀ b ∈ a :: todo, b ∈ i.plan index
  | .deleting index _ _ => Named i index
  | .merging index => Named i index
  | .locating index => Named i index
  | .ended _ => True

theorem addressed_stop {wrap : Error → ModelError} {e : Failure Error} :
    (Import.stop wrap e : Phase D).Addressed i := by
  cases e <;> trivial

theorem addressed_startMerging (h : Named i index) : (i.startMerging index).Addressed i := by
  rw [Import.startMerging]
  split <;> exact h

theorem addressed_startDeleting (h : Named i index) (todo : List Text) :
    (i.startDeleting index todo).Addressed i := by
  cases todo with
  | nil => exact addressed_startMerging h
  | cons n todo => exact h

theorem addressed_startMoving (h : Named i index) (previous : List Text) {todo : List Text}
    (htodo : ∀ a ∈ todo, a ∈ i.plan index) : (i.startMoving index previous todo).Addressed i := by
  cases todo with
  | nil => exact addressed_startDeleting h previous
  | cons a todo => exact ⟨h, htodo⟩

theorem addressed_resumeFilling (h : Named i index) (good : Bool) {pending : List (Request D)}
    (hpending : ∀ q ∈ pending, q ∈ i.chunkRequests index) (answers : List Response) :
    (Import.resumeFilling index good pending answers).Addressed i := by
  rw [Import.resumeFilling]
  split
  · exact ⟨h, hpending⟩
  · split
    · exact h
    · exact addressed_stop

theorem addressed_startFilling (h : Named i index) : (i.startFilling index).Addressed i := by
  rw [Import.startFilling]
  split
  · trivial
  · exact addressed_resumeFilling h true (fun _ hq => hq) []

theorem addressed_next (hr : ph.request i = some r) (ha : (elasticsearch E).Answer r s s' x)
    (h : ph.Addressed i) : (ph.next i x).Addressed i := by
  cases ph with
  | filling => cases hr
  | ended => cases hr
  | creating =>
    rw [next]
    split
    · trivial
    · exact addressed_stop
  | finding =>
    obtain rfl := Option.some.inj hr
    rw [next]
    split
    · next hx => exact (found ha hx).2
    · exact addressed_stop
    · exact addressed_stop
  | piping index =>
    rw [next]
    split
    · exact addressed_startFilling h
    · exact addressed_stop
  | refreshing index =>
    rw [next]
    split
    · exact h
    · exact addressed_stop
  | listing index =>
    rw [next]
    split
    · exact addressed_startMoving h _ fun _ ha => ha
    · exact addressed_stop
  | moving index previous a todo =>
    rw [next]
    split
    · exact addressed_startMoving h.1 previous fun b hb => h.2 b (List.mem_cons_of_mem _ hb)
    · exact addressed_stop
  | deleting index n todo =>
    rw [next]
    split
    · exact addressed_startDeleting h todo
    · exact addressed_stop
  | merging index =>
    rw [next]
    split
    · exact h
    · exact addressed_stop
  | locating index =>
    rw [next]
    split
    · trivial
    · trivial
    · exact addressed_stop

theorem addressed_step (hs : Step E i s ph r x s' ph') (h : ph.Addressed i) : ph'.Addressed i := by
  cases hs with
  | call hr ha => exact addressed_next hr ha h
  | fill hw ha hsp =>
    refine addressed_resumeFilling h.1 _ (fun q hq => h.2 q ?_) _
    rw [List.mem_append] at hq
    exact List.mem_append.mpr (hq.imp_right (List.mem_cons_of_mem _))

omit [Document D] in
theorem keeps_aliasActions {a : Text} {previous : List Text} (hi : i.Keeps fits)
    (h : Named i index) (ha : a ∈ i.plan index) :
    (Request.updateAliases (aliasActions a [index.name] previous) : Request D).Keeps fits := by
  intro action haction
  rcases List.mem_append.mp haction with hadd | hremove
  · obtain rfl := List.mem_singleton.mp hadd
    intro n hn d hd
    obtain rfl := List.mem_singleton.mp hn
    exact hi.2 index h a ha d (h.1 ▸ hd)
  · split at hremove
    · cases hremove
    · obtain rfl := List.mem_singleton.mp hremove
      trivial

theorem keeps_request (hi : i.Keeps fits) (hr : ph.request i = some r) (h : ph.Addressed i) :
    r.Keeps fits := by
  cases ph with
  | filling => cases hr
  | ended => cases hr
  | moving index previous a todo =>
    obtain rfl := Option.some.inj hr
    exact keeps_aliasActions hi h.1 (h.2 a List.mem_cons_self)
  | _ => obtain rfl := Option.some.inj hr; trivial

theorem keeps_chunk (hi : i.Keeps fits) (h : Named i index) (hr : r ∈ i.chunkRequests index) :
    r.Keeps fits := by
  obtain ⟨ops, hops, rfl⟩ := List.mem_map.mp hr
  intro op hop
  obtain ⟨d, hd, rfl⟩ := List.mem_map.mp (mem_chunks hops hop)
  exact ⟨_, d, rfl, h.1 ▸ hi.1 d hd⟩

theorem keeps_step (hi : i.Keeps fits) (hs : Step E i s ph r x s' ph') (h : ph.Addressed i)
    (hk : s.Keeps fits) : s'.Keeps fits := by
  cases hs with
  | call hr ha => exact hk.answer ha (keeps_request hi hr h)
  | fill hw ha hsp =>
    exact Service.window_invariant (Store.Keeps fits)
      (fun q hq t t' y hy hI => hI.answer hy (keeps_chunk hi h.1 (h.2 q hq)))
      (fun _ _ _ => answer_of_cut) ha hsp hk

end Phase

variable [Document D] {ι : Type} [DecidableEq ι] {runs : ι → Import D} {s₀ s : Store D}
  {clients : ι → Es D ModelError Index}

theorem throng_keeps (hruns : ∀ k, (runs k).Keeps fits)
    (h : (elasticsearch E).ThrongReach (s₀, fun k => (runs k).run) (s, clients))
    (h₀ : s₀.Keeps fits) : s.Keeps fits := by
  have hboth := Service.throng_invariant (Store.Keeps fits)
    (fun k c => ∃ ph : Phase D, c = ph.client (runs k) ∧ ph.Addressed (runs k)) ?_ h h₀
    (fun k => ⟨.creating, rfl, trivial⟩)
  · exact hboth.1
  rintro j s _ r x s' c' hI ⟨ph, rfl, hph⟩ hs
  obtain ⟨ph', rfl, hs'⟩ := Phase.step_of_client hs
  exact ⟨Phase.keeps_step (hruns j) hs' hph hI, ph', rfl, Phase.addressed_step hs' hph⟩

end Mimirsbrunn
