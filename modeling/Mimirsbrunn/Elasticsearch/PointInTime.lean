import Mimirsbrunn.Elasticsearch.Documents
import Mimirsbrunn.Library.Watching

namespace Mimirsbrunn
open Regex Std Internal

namespace Store

variable {D : Type}

def listed (s : Store D) (name : Text) : List (Text × D) :=
  (s.indices.toList.filter (fun e => s.Stands name e.1)).flatMap (fun e =>
    e.2.searchable.toList.map (fun d => (e.1, d.2)))

end Store

variable {D D' α : Type} {read : D → Option D'}

def readHit (read : D → Option D') (hit : ElasticsearchHit D) : Option (ElasticsearchHit D') :=
  (read hit.source).map (fun d => ⟨d, hit.sort⟩)

-- A point in time is taken of one state of the store, and every page is one of it. A page can be
-- told only where each of its documents can be read.
inductive Store.Pages (read : D → Option D') (s : Store D) :
    Option (Snapshot D) → PitRequest → PitResponse D' → Option (Snapshot D) → Prop
  | transport {t : Option (Snapshot D)} {r : PitRequest} : Pages read s t r .transport t
  | rejected {t : Option (Snapshot D)} {r : PitRequest} : Pages read s t r .rejected t
  | unparsable {t : Option (Snapshot D)} {r : PitRequest} : Pages read s t r .unparsable t
  | opened {t : Option (Snapshot D)} {index keep_alive id : Text} (snapshot : Snapshot D) :
      (snapshot.docs.map Prod.snd).Perm ((s.listed index).map Prod.snd) →
      Pages read s t (.openPointInTime index keep_alive) (.opened id) (some snapshot)
  | page {snapshot : Snapshot D} {query : Query} {id : Text} (hits : List (ElasticsearchHit D')) :
      hits.map some = (snapshot.search query).map (readHit read) →
      Pages read s (some snapshot) (.search query) (.page ⟨some id, hits⟩) (some snapshot)
  | closed {t : Option (Snapshot D)} {id : Text} : Pages read s t (.closePointInTime id) .closed t

def listing (moves : Store D × α → Store D × α → Prop) (read : D → Option D') :
    Watching PitRequest (PitResponse D') (Store D × α) (Option (Snapshot D)) where
  moves := moves
  reads p t r x t' := p.1.Pages read t r x t'

section Page

variable {snapshot : Snapshot D} {page : List (UInt64 × D)} {hits : List (ElasticsearchHit D')}

theorem sources_of_hits (h : hits.map some = (page.map Snapshot.hit).map (readHit read)) :
    (hits.map ElasticsearchHit.source).map some = page.map (fun d => read d.2) := by
  have hsources := congrArg (List.map (Option.map ElasticsearchHit.source)) h
  simpa [readHit, Snapshot.hit, Function.comp_def, Option.map_map] using hsources

theorem nextState_of_hits (pit : Text)
    (h : hits.map some = (page.map Snapshot.hit).map (readHit read)) :
    Internal.nextState pit hits.getLast? =
      .ok (page.getLast?.elim (.End pit) (fun d => .Next ⟨pit, d.1⟩)) := by
  have hlast := congrArg List.getLast? h
  simp only [List.getLast?_map] at hlast
  cases hpage : page.getLast? with
  | none =>
    rw [hpage] at hlast
    rw [Option.map_eq_none_iff.mp hlast]
    rfl
  | some d =>
    rw [hpage] at hlast
    obtain ⟨last, hhits, hread⟩ := Option.map_eq_some_iff.mp hlast
    obtain ⟨source, _, rfl⟩ := Option.map_eq_some_iff.mp hread.symm
    rw [hhits]
    rfl

theorem searchReply_of_hits (index pit : Text)
    (h : hits.map some = (page.map Snapshot.hit).map (readHit read)) :
    Internal.searchReply index (.page ⟨some pit, hits⟩) = .ok (some (hits.map
      ElasticsearchHit.source, page.getLast?.elim (.End pit) (fun d => .Next ⟨pit, d.1⟩))) := by
  simp only [Internal.searchReply, nextState_of_hits pit h]
  rfl

end Page

section Session

variable {P : Store D × α → Prop} {moves : Store D × α → Store D × α → Prop}
  {config : ElasticsearchStorageConfig} {index : Text} {snapshot : Snapshot D}

structure Listed (read : D → Option D') (rest : List (UInt64 × D)) (pulls : Nat) (docs : List D')
    (r : List D' × Ending) : Prop where
  told : ∃ k, r.1.map some = docs.map some ++ (rest.take k).map (fun d => read d.2) ∧
    (r.2 = .finished → rest.length ≤ k)
  polled : r.2 = .unpolled → pulls < rest.length + 2

theorem Listed.stop {rest : List (UInt64 × D)} {pulls : Nat} {docs : List D'} (e : Failure Error) :
    Listed read rest pulls docs (docs, .failed e) :=
  ⟨⟨0, by simp, by rintro ⟨⟩⟩, by rintro ⟨⟩⟩

theorem session_close {init_pit pit : Text} {pulls : Nat} {docs : List D'}
    {t t' : Option (Snapshot D)} {r : List D' × Ending}
    (h : (listing moves read).Session P
      (t, tryFlatten (unfold config index init_pit) pulls docs (.End pit)) (t', .done r)) :
    r.1 = docs ∧ (r.2 = .unpolled → pulls = 0) := by
  cases pulls with
  | zero =>
    obtain ⟨_, rfl⟩ := Watching.session_done h
    exact ⟨rfl, fun _ => rfl⟩
  | succ pulls =>
    simp only [tryFlatten, unfold, Client.bind] at h
    obtain ⟨s, x, u, _, hread, hrest⟩ := Watching.session_call h
    cases hread <;> obtain ⟨_, rfl⟩ := Watching.session_done hrest <;> exact ⟨rfl, by rintro ⟨⟩⟩

theorem session_tryFlatten {init_pit pit : Text} {pulls : Nat} {state : State}
    {after : Option UInt64} {docs : List D'} {t : Option (Snapshot D)} {r : List D' × Ending}
    (hsize : 0 < config.scroll_chunk_size)
    (hstate : unfold (D := D') config index init_pit state =
      readResponse index (Internal.buildQuery config pit after))
    (h : (listing moves read).Session P
      (some snapshot, tryFlatten (unfold config index init_pit) pulls docs state) (t, .done r)) :
    Listed read (snapshot.below after) pulls docs r := by
  induction pulls generalizing state pit after docs with
  | zero =>
    obtain ⟨_, rfl⟩ := Watching.session_done h
    exact ⟨⟨0, by simp, by rintro ⟨⟩⟩, fun _ => by omega⟩
  | succ pulls ih =>
    simp only [tryFlatten, hstate, readResponse, Client.bind] at h
    obtain ⟨s, x, u, _, hread, hrest⟩ := Watching.session_call h
    cases hread with
    | transport =>
      obtain ⟨_, rfl⟩ := Watching.session_done hrest
      exact .stop _
    | rejected =>
      obtain ⟨_, rfl⟩ := Watching.session_done hrest
      exact .stop _
    | unparsable =>
      obtain ⟨_, rfl⟩ := Watching.session_done hrest
      exact .stop _
    | @page _ _ id hits hhits =>
      have hpage : snapshot.search (Internal.buildQuery config pit after) =
        ((snapshot.below after).take config.scroll_chunk_size).map Snapshot.hit := rfl
      rw [hpage] at hhits
      rw [searchReply_of_hits index id hhits] at hrest
      generalize htake : (snapshot.below after).take config.scroll_chunk_size = page at hhits hrest
      have hsources := sources_of_hits hhits
      rcases List.eq_nil_or_concat page with rfl | ⟨init, last, rfl⟩
      · have hnil : snapshot.below after = [] :=
          (List.take_eq_nil_iff.mp htake).resolve_left (Nat.pos_iff_ne_zero.mp hsize)
        have hnone : hits = [] := by simpa using hhits
        subst hnone
        obtain ⟨hdocs, hpolled⟩ := session_close hrest
        refine ⟨⟨0, by simp [hdocs], fun _ => by simp [hnil]⟩, fun hr => ?_⟩
        rw [hpolled hr, hnil, List.length_nil]
        decide
      · have hlast : ((snapshot.below after).take config.scroll_chunk_size).getLast? =
            some last := by
          rw [htake, List.concat_eq_append, List.getLast?_concat]
        have hnext : (init.concat last).getLast? = some last := by
          rw [List.concat_eq_append, List.getLast?_concat]
        rw [hnext] at hrest
        have hlisted := ih (show unfold (D := D') config index init_pit (.Next ⟨id, last.1⟩) =
          readResponse index (Internal.buildQuery config id (some last.1)) from rfl) hrest
        rw [snapshot.below_last hlast] at hlisted
        obtain ⟨⟨k, htold, hfinished⟩, hpolled⟩ := hlisted
        have hlength := congrArg List.length htake
        rw [List.length_take, List.length_concat] at hlength
        refine ⟨⟨config.scroll_chunk_size + k, ?_, fun hr => ?_⟩, fun hr => ?_⟩
        · rw [htold, List.map_append, hsources, ← htake, List.take_add, List.map_append,
            List.append_assoc]
        · have hrest := hfinished hr
          rw [List.length_drop] at hrest
          omega
        · have hrest := hpolled hr
          rw [List.length_drop] at hrest
          omega

theorem session_listDocuments {pulls : Nat} {t : Option (Snapshot D)}
    {result : Except (Failure Error) (List D' × Ending)} (hsize : 0 < config.scroll_chunk_size)
    (h : (listing moves read).Session P (none, listDocuments config index pulls)
      (t, .done result)) :
    (∃ e, result = .error e) ∨ ∃ (s : Store D) (c : α) (snapshot : Snapshot D)
      (r : List D' × Ending), P (s, c) ∧
      (snapshot.docs.map Prod.snd).Perm ((s.listed index).map Prod.snd) ∧ result = .ok r ∧
      Listed read snapshot.descending pulls [] r := by
  obtain ⟨⟨s, c⟩, x, u, hs, hread, hrest⟩ := Watching.session_call h
  cases hread with
  | transport => exact .inl ⟨_, (Watching.session_done hrest).2⟩
  | rejected => exact .inl ⟨_, (Watching.session_done hrest).2⟩
  | unparsable => exact .inl ⟨_, (Watching.session_done hrest).2⟩
  | opened snapshot hperm =>
    simp only [openReply] at hrest
    obtain ⟨u, r, hlist, hdone⟩ := Watching.session_bind hrest
    have hlisted : Listed read (snapshot.below none) pulls [] r :=
      session_tryFlatten hsize rfl hlist
    exact .inr ⟨s, c, snapshot, r, hs, hperm, (Watching.session_done hdone).2, hlisted⟩

end Session

end Mimirsbrunn
