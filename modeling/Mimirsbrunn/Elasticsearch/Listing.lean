import Mathlib.Data.List.Chain
import Mathlib.Data.List.Sort
import Mimirsbrunn.Elasticsearch.Internal
import Mimirsbrunn.Library.Keyset
import Mimirsbrunn.Library.Stream

namespace Mimirsbrunn
open Regex Internal

inductive Value where
  | u64 (n : UInt64)
  | other
  deriving DecidableEq, Repr

def Value.asU64 : Value → Option UInt64
  | .u64 n => some n
  | .other => none

structure ElasticsearchHit (D : Type) where
  source : D
  sort : List Value

structure ElasticsearchSearchResponse (D : Type) where
  pit_id : Option Text
  hits : List (ElasticsearchHit D)

def ElasticsearchSearchResponse.intoHits {D : Type} (body : ElasticsearchSearchResponse D) :
    List D :=
  body.hits.map ElasticsearchHit.source

inductive SortOrder where
  | asc
  | desc
  deriving DecidableEq, Repr

structure Query where
  size : Nat
  pit_id : Text
  keep_alive : Text
  track_total_hits : Bool
  shard_doc : SortOrder
  search_after : Option UInt64
  deriving DecidableEq, Repr

inductive PitRequest where
  | openPointInTime (index keep_alive : Text)
  | search (query : Query)
  | closePointInTime (id : Text)
  deriving DecidableEq, Repr

inductive PitResponse (D : Type) where
  | transport
  | rejected
  | unparsable
  | opened (id : Text)
  | page (body : ElasticsearchSearchResponse D)
  | closed

structure ContinuationToken where
  pit : Text
  tiebreaker : UInt64
  deriving DecidableEq, Repr

inductive State where
  | Start
  | Next (token : ContinuationToken)
  | End (pit : Text)
  deriving DecidableEq, Repr

namespace Internal

variable {D : Type}

def unwrapErr : Text := "called `Result::unwrap()` on an `Err` value".toList

def openReply (index : Text) : PitResponse D → Except (Failure Error) Text
  | .transport => fail (.elasticsearchClient ("failed to query PIT for ".toList ++ index))
  | .rejected => fail (.elasticsearchClient ("failed to open PIT for ".toList ++ index))
  | .opened id => .ok id
  | _ => fail .elasticsearchDeserialization

def buildQuery (config : ElasticsearchStorageConfig) (pit_id : Text)
    (search_after : Option UInt64) : Query :=
  ⟨config.scroll_chunk_size, pit_id, config.scroll_pit_alive, false, .desc, search_after⟩

def nextState (pit : Text) : Option (ElasticsearchHit D) → Except (Failure Error) State
  | some last_hit =>
      match last_hit.sort.head? with
      | some value =>
          match value.asU64 with
          | some tiebreaker => .ok (.Next ⟨pit, tiebreaker⟩)
          | none => .error (.panicked unwrapNone)
      | none => .error (.panicked unwrapNone)
  | none => .ok (.End pit)

def searchReply (index : Text) :
    PitResponse D → Except (Failure Error) (Option (List D × State))
  | .transport => fail (.elasticsearchClient ("failed to search for ".toList ++ index))
  | .page body =>
      match body.pit_id with
      | some pit => (nextState pit body.hits.getLast?).map (fun next => some (body.intoHits, next))
      | none => fail .elasticsearchResponseMissingPIT
  | _ => fail .elasticsearchDeserialization

def closeReply : PitResponse D → Except (Failure Error) (Option (List D × State))
  | .transport => .error (.panicked unwrapErr)
  | .unparsable => .error (.panicked unwrapErr)
  | _ => .ok none

def readResponse (index : Text) (query : Query) :
    Client PitRequest (PitResponse D) (Except (Failure Error) (Option (List D × State))) :=
  .call (.search query) (fun x => .done (searchReply index x))

def unfold (config : ElasticsearchStorageConfig) (index init_pit : Text) :
    State → Client PitRequest (PitResponse D) (Except (Failure Error) (Option (List D × State)))
  | .Start => readResponse index (buildQuery config init_pit none)
  | .Next token => readResponse index (buildQuery config token.pit (some token.tiebreaker))
  | .End pit => .call (.closePointInTime pit) (fun x => .done (closeReply x))

inductive Ending where
  | finished
  | failed (e : Failure Error)
  | unpolled
  deriving DecidableEq, Repr

def tryFlatten (unfold : State → Client PitRequest (PitResponse D)
      (Except (Failure Error) (Option (List D × State)))) :
    Nat → List D → State → Client PitRequest (PitResponse D) (List D × Ending)
  | 0, docs, _ => .done (docs, .unpolled)
  | pulls + 1, docs, state =>
      (unfold state).bind (fun
        | .ok (some (page, next)) => tryFlatten unfold pulls (docs ++ page) next
        | .ok none => .done (docs, .finished)
        | .error e => .done (docs, .failed e))

def listDocuments (config : ElasticsearchStorageConfig) (index : Text) (pulls : Nat) :
    Client PitRequest (PitResponse D) (Except (Failure Error) (List D × Ending)) :=
  .call (.openPointInTime index config.scroll_pit_alive) (fun x =>
    match openReply index x with
    | .ok init_pit =>
        (tryFlatten (unfold config index init_pit) pulls [] .Start).bind (fun r => .done (.ok r))
    | .error e => .done (.error e))

end Internal

structure Snapshot (D : Type) where
  docs : List (UInt64 × D)
  nodup : (docs.map Prod.fst).Nodup

abbrev Conversation (D : Type) := List (PitRequest × PitResponse D)

namespace Snapshot

variable {D : Type}

def descending (s : Snapshot D) : List (UInt64 × D) := s.docs.mergeSort (fun a b => b.1 ≤ a.1)

def below (s : Snapshot D) : Option UInt64 → List (UInt64 × D)
  | none => s.descending
  | some after => s.descending.filter (fun d => d.1 < after)

def above (s : Snapshot D) : Option UInt64 → List (UInt64 × D)
  | none => s.descending.reverse
  | some after => s.descending.reverse.filter (fun d => after < d.1)

def hit (d : UInt64 × D) : ElasticsearchHit D := ⟨d.2, [.u64 d.1]⟩

def search (s : Snapshot D) (q : Query) : List (ElasticsearchHit D) :=
  match q.shard_doc with
  | .desc => ((s.below q.search_after).take q.size).map hit
  | .asc => ((s.above q.search_after).take q.size).map hit

def respond (s : Snapshot D) (id : Text) : PitRequest → PitResponse D
  | .openPointInTime _ _ => .opened id
  | .search q => .page ⟨some id, s.search q⟩
  | .closePointInTime _ => .closed

-- Every response may carry a new id for the point in time.
def pointInTime (s : Snapshot D) (id : Conversation D → Text) :
    Service PitRequest (PitResponse D) (Conversation D) where
  serve r log := (log ++ [(r, s.respond (id log) r)], s.respond (id log) r)
  cut _ _ _ := False
  fault _ _ := False

theorem descending_perm (s : Snapshot D) : s.descending.Perm s.docs := List.mergeSort_perm _ _

theorem descending_sorted (s : Snapshot D) :
    s.descending.Pairwise (fun a b => b.1 < a.1) := by
  have hle : s.descending.Pairwise (fun a b => decide (b.1 ≤ a.1) = true) := by
    refine List.pairwise_mergeSort (fun a b c hab hbc => ?_) (fun a b => ?_) s.docs
    · exact decide_eq_true (UInt64.le_trans (of_decide_eq_true hbc) (of_decide_eq_true hab))
    · rw [Bool.or_eq_true, decide_eq_true_eq, decide_eq_true_eq]
      exact UInt64.le_total _ _
  have hne : s.descending.Pairwise (fun a b => a.1 ≠ b.1) :=
    List.pairwise_map.mp ((s.descending_perm.map Prod.fst).nodup_iff.mpr s.nodup)
  exact (hle.and hne).imp (fun h => UInt64.lt_of_le_of_ne (of_decide_eq_true h.1) (Ne.symm h.2))

theorem below_sorted (s : Snapshot D) (after : Option UInt64) :
    (s.below after).Pairwise (fun a b => b.1 < a.1) := by
  cases after with
  | none => exact s.descending_sorted
  | some after => exact s.descending_sorted.filter _

theorem below_last (s : Snapshot D) {after : Option UInt64} {n : Nat} {last : UInt64 × D}
    (hl : ((s.below after).take n).getLast? = some last) :
    s.below (some last.1) = (s.below after).drop n := by
  rw [← Keyset.filter_lt_last Prod.fst (s.below_sorted after) hl]
  cases after with
  | none => rfl
  | some after =>
      have hlast : last.1 < after := by
        have hm := List.mem_of_mem_take (List.mem_of_getLast? hl)
        exact of_decide_eq_true (List.mem_filter.mp hm).2
      simp only [below, List.filter_filter]
      refine List.filter_congr (fun d _ => ?_)
      by_cases hd : d.1 < last.1
      · simp [hd, UInt64.lt_trans hd hlast]
      · simp [hd]

theorem below_length (s : Snapshot D) (after : Option UInt64) :
    (s.below after).length ≤ s.docs.length := by
  rw [← s.descending_perm.length_eq]
  cases after with
  | none => exact Nat.le_refl _
  | some after => exact List.length_filter_le _ _

end Snapshot

def PitRequest.pit : PitRequest → Option Text
  | .openPointInTime _ _ => none
  | .search q => some q.pit_id
  | .closePointInTime id => some id

def PitResponse.pit {D : Type} : PitResponse D → Option Text
  | .opened id => some id
  | .page body => body.pit_id
  | _ => none

namespace Conversation

variable {D : Type}

def Chained (log : Conversation D) : Prop := log.IsChain (fun e e' => e'.1.pit = e.2.pit)

def Unclosed (log : Conversation D) : Prop := ∀ e ∈ log, ∀ id, e.1 ≠ .closePointInTime id

structure Open (log : Conversation D) (pit : Text) : Prop where
  chained : Chained log
  unclosed : Unclosed log
  last : ∀ e ∈ log.getLast?, e.2.pit = some pit

def ClosedOnce (log : Conversation D) : Prop :=
  ∃ pages query id id', Unclosed pages ∧ log =
    pages ++ [(.search query, .page ⟨some id, []⟩), (.closePointInTime id', .closed)]

variable {log : Conversation D} {pit : Text}

theorem Open.chained_append (h : Open log pit) {r : PitRequest} (hr : r.pit = some pit)
    (x : PitResponse D) : Chained (log ++ [(r, x)]) := by
  refine List.isChain_append.mpr ⟨h.chained, .singleton _, ?_⟩
  intro e he e' he'
  obtain rfl := Option.some.inj he'
  exact hr.trans (h.last e he).symm

theorem Open.start (index keep_alive id : Text) :
    Open [(.openPointInTime index keep_alive, (.opened id : PitResponse D))] id where
  chained := .singleton _
  unclosed := by
    intro e he
    obtain rfl := List.mem_singleton.mp he
    exact fun _ hc => by cases hc
  last := by
    intro e he
    obtain rfl := Option.some.inj he
    rfl

theorem Open.search (h : Open log pit) {q : Query} (hq : q.pit_id = pit)
    {body : ElasticsearchSearchResponse D} {id : Text} (hid : body.pit_id = some id) :
    Open (log ++ [(.search q, .page body)]) id where
  chained := h.chained_append (show (PitRequest.search q).pit = some pit from congrArg some hq) _
  unclosed := by
    intro e he
    rcases List.mem_append.mp he with he | he
    · exact h.unclosed e he
    · obtain rfl := List.mem_singleton.mp he
      exact fun _ hc => by cases hc
  last := by
    intro e he
    rw [List.getLast?_concat] at he
    obtain rfl := Option.some.inj he
    exact hid

end Conversation

namespace Internal

variable {D : Type} {s : Snapshot D} {id : Conversation D → Text}
  {config : ElasticsearchStorageConfig} {index : Text}

theorem searchReply_hits (pit : Text) (page : List (UInt64 × D)) :
    searchReply index (.page ⟨some pit, page.map Snapshot.hit⟩) =
      .ok (some (page.map Prod.snd, page.getLast?.elim (.End pit) (fun d => .Next ⟨pit, d.1⟩))) := by
  have hhits : (⟨some pit, page.map Snapshot.hit⟩ : ElasticsearchSearchResponse D).intoHits =
      page.map Prod.snd := by
    simp [ElasticsearchSearchResponse.intoHits, Snapshot.hit, Function.comp_def]
  simp only [searchReply, hhits, List.getLast?_map]
  cases page.getLast? <;> rfl

theorem pointInTime_never_fails (r : PitRequest) (x : PitResponse D) :
    ¬ (s.pointInTime id).fault r x := not_false

theorem tryFlatten_close {init_pit : Text} {pulls : Nat} {docs : List D} {log : Conversation D}
    {pit : Text} (log' : Conversation D) (r : List D × Ending) :
    (s.pointInTime id).Reach (log, tryFlatten (unfold config index init_pit) (pulls + 1) docs
        (.End pit)) (log', Client.done r) ↔
      log' = log ++ [(.closePointInTime pit, .closed)] ∧ r = (docs, .finished) := by
  rw [tryFlatten, unfold, Client.bind, Service.reach_call_iff pointInTime_never_fails]
  exact Service.reach_done_iff

theorem tryFlatten_exact (hsize : 0 < config.scroll_chunk_size) {init_pit pit : Text}
    {pulls : Nat} {state : State} {after : Option UInt64} (docs : List D) {log : Conversation D}
    (hstate : unfold (D := D) config index init_pit state =
      readResponse index (buildQuery config pit after))
    (hp : (s.below after).length + 2 ≤ pulls) (hlog : Conversation.Open log pit) :
    ∃ log', Conversation.Chained log' ∧ Conversation.ClosedOnce log' ∧ ∀ log'' r,
      (s.pointInTime id).Reach (log, tryFlatten (unfold config index init_pit) pulls docs state)
          (log'', Client.done r) ↔
        log'' = log' ∧ r = (docs ++ (s.below after).map Prod.snd, .finished) := by
  induction pulls generalizing pit state after docs log with
  | zero => omega
  | succ pulls ih =>
      have hserve : (s.pointInTime id).serve (.search (buildQuery config pit after)) log =
          (log ++ [(.search (buildQuery config pit after), .page ⟨some (id log),
            ((s.below after).take config.scroll_chunk_size).map Snapshot.hit⟩)],
            .page ⟨some (id log),
              ((s.below after).take config.scroll_chunk_size).map Snapshot.hit⟩) := rfl
      generalize hpage : (s.below after).take config.scroll_chunk_size = page at hserve
      have hopen : Conversation.Open (log ++ [(.search (buildQuery config pit after),
          .page ⟨some (id log), page.map Snapshot.hit⟩)]) (id log) := hlog.search rfl rfl
      simp only [tryFlatten, hstate, readResponse, Client.bind,
        Service.reach_call_iff pointInTime_never_fails, hserve, searchReply_hits]
      rcases List.eq_nil_or_concat page with rfl | ⟨init, last, rfl⟩
      · have hnil : s.below after = [] :=
          (List.take_eq_nil_iff.mp hpage).resolve_left (Nat.pos_iff_ne_zero.mp hsize)
        obtain ⟨pulls, rfl⟩ := Nat.exists_eq_add_of_le' (show 1 ≤ pulls by omega)
        refine ⟨_, hopen.chained_append (show (PitRequest.closePointInTime (id log)).pit = _ from rfl)
          .closed, ⟨log, buildQuery config pit after, id log, id log, hlog.unclosed, ?_⟩, ?_⟩
        · rw [List.append_assoc]
          rfl
        · intro log'' r
          rw [hnil]
          exact tryFlatten_close log'' r
      · have hlast : ((s.below after).take config.scroll_chunk_size).getLast? = some last := by
          rw [hpage, List.concat_eq_append, List.getLast?_concat]
        have hrest := s.below_last hlast
        have hshort : (s.below (some last.1)).length + 2 ≤ pulls := by
          have hlen := congrArg List.length hpage
          rw [List.length_take, List.length_concat] at hlen
          rw [hrest, List.length_drop]
          omega
        obtain ⟨log', hchained, hclosed, hreach⟩ := ih (docs ++ (init.concat last).map Prod.snd)
          (show unfold config index init_pit (.Next ⟨id log, last.1⟩) =
            readResponse index (buildQuery config (id log) (some last.1)) from rfl) hshort hopen
        refine ⟨log', hchained, hclosed, fun log'' r => ?_⟩
        have hnext : ((init.concat last).getLast?.elim (State.End (id log))
            (fun d => .Next ⟨id log, d.1⟩)) = .Next ⟨id log, last.1⟩ := by
          rw [List.concat_eq_append, List.getLast?_concat]
          rfl
        have hall : docs ++ (init.concat last).map Prod.snd ++ (s.below (some last.1)).map Prod.snd =
            docs ++ (s.below after).map Prod.snd := by
          rw [hrest, List.append_assoc, ← hpage, ← List.map_append, List.take_append_drop]
        rw [hnext, hreach, hall]

theorem listDocuments_exact (hsize : 0 < config.scroll_chunk_size) {pulls : Nat}
    (hp : s.docs.length + 2 ≤ pulls) :
    (∃ log result, (s.pointInTime id).Reach ([], listDocuments config index pulls)
      (log, Client.done result)) ∧
    ∀ log result, (s.pointInTime id).Reach ([], listDocuments config index pulls)
        (log, Client.done result) →
      ∃ items : List (UInt64 × D), result = .ok (items.map Prod.snd, .finished) ∧ items.Perm s.docs ∧
        items.Pairwise (fun a b => b.1 < a.1) ∧ Conversation.Chained log ∧
        Conversation.ClosedOnce log := by
  have hstart : unfold (D := D) config index (id []) .Start =
    readResponse index (buildQuery config (id []) none) := rfl
  obtain ⟨log, hchained, hclosed, hreach⟩ := tryFlatten_exact hsize []
    hstart ((Nat.add_le_add_right (s.below_length none) 2).trans hp)
    (.start index config.scroll_pit_alive (id []))
  have hcall : ∀ log' result, (s.pointInTime id).Reach ([], listDocuments config index pulls)
      (log', Client.done result) ↔ (s.pointInTime id).Reach
        ([(.openPointInTime index config.scroll_pit_alive, .opened (id []))],
          (tryFlatten (unfold config index (id [])) pulls [] .Start).bind
            (fun r => Client.done (.ok r))) (log', Client.done result) := fun _ _ => by
    rw [listDocuments, Service.reach_call_iff pointInTime_never_fails]
    rfl
  constructor
  · exact ⟨log, _, (hcall _ _).mpr (Service.bind_reach ((hreach _ _).mpr ⟨rfl, rfl⟩) .refl)⟩
  · intro log' result h
    obtain ⟨t, r, hr, hdone⟩ := Service.reach_bind ((hcall _ _).mp h)
    obtain ⟨rfl, rfl⟩ := (hreach _ _).mp hr
    obtain ⟨rfl, rfl⟩ := Service.reach_done_iff.mp hdone
    exact ⟨s.descending, rfl, s.descending_perm, s.descending_sorted, hchained, hclosed⟩

def twoGares : Snapshot Text :=
  ⟨[(3, "Gare de l'Est".toList), (7, "Gare du Nord".toList)], by decide⟩

theorem two_pages_listed :
    ∃ log, ∃ items : List (UInt64 × Text),
      (twoGares.pointInTime (fun log => List.replicate log.length 'p')).Reach
        ([], listDocuments ⟨1, "1m".toList, 8, 100, ⟨false, 1⟩⟩ "munin_poi".toList 4)
        (log, Client.done (.ok (items.map Prod.snd, .finished))) ∧
      items.Perm twoGares.docs ∧ Conversation.Chained log ∧ Conversation.ClosedOnce log := by
  obtain ⟨⟨log, result, hrun⟩, hall⟩ := @listDocuments_exact Text twoGares
    (fun log => List.replicate log.length 'p') ⟨1, "1m".toList, 8, 100, ⟨false, 1⟩⟩
    "munin_poi".toList (by decide) 4 (by decide)
  obtain ⟨items, rfl, hperm, _, hchained, hclosed⟩ := hall log result hrun
  exact ⟨log, items, hrun, hperm, hchained, hclosed⟩

end Internal

end Mimirsbrunn
