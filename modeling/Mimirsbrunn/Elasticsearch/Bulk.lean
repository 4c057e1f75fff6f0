import Mathlib.Data.List.Induction
import Mathlib.Data.List.Pairwise
import Mathlib.Data.List.Perm.Lattice
import Mathlib.Logic.Function.Basic
import Mimirsbrunn.Library.Chunks
import Mimirsbrunn.Library.Crowd
import Mimirsbrunn.Library.Stream
import Mimirsbrunn.Publication.Completion

namespace Mimirsbrunn
open Regex Std Internal

variable {D : Type}

def BulkOperation.onDocument (E : Engine D) : BulkOperation D → Option D → Option D
  | .index _ d, v => if E.parses d then some d else v
  | .update _ op, v => v.map (fun d => (E.script op d).getD d)

def write (E : Engine D) (content : Text → Option D) (op : BulkOperation D) : Text → Option D :=
  Function.update content op.id (op.onDocument E (content op.id))

def writeAll (E : Engine D) (content : Text → Option D) (ops : List (BulkOperation D)) :
    Text → Option D :=
  ops.foldl (write E) content

def documentAfter (E : Engine D) (k : Text) (ops : List (BulkOperation D)) (v : Option D) :
    Option D :=
  (ops.filter (·.id = k)).foldl (fun v op => op.onDocument E v) v

def Interchangeable (E : Engine D) (x y : List (BulkOperation D)) : Prop :=
  ∀ k, k ∈ x.map BulkOperation.id → k ∈ y.map BulkOperation.id → ∀ v,
    documentAfter E k y (documentAfter E k x v) = documentAfter E k x (documentAfter E k y v)

def Ordered (E : Engine D) (storage : ElasticsearchStorageConfig)
    (ops : List (BulkOperation D)) : Prop :=
  storage.insertion_concurrent_requests = 1 ∨
    ∀ x ∈ Chunks.chunks storage.insertion_chunk_size ops,
      ∀ y ∈ Chunks.chunks storage.insertion_chunk_size ops, Interchangeable E x y

def insertions [Document D] (documents : List D) : List (BulkOperation D) :=
  documents.map (fun doc => .index (Document.id doc) doc)

def updates (operations : List (Text × UpdateOperation)) : List (BulkOperation D) :=
  operations.map (fun u => .update u.1 u.2)

def Store.content (s : Store D) (n k : Text) : Option D :=
  (s.indices[n]?).bind (fun i => i.docs[k]?)

variable {E : Engine D}

theorem writeAll_apply (ops : List (BulkOperation D)) (content : Text → Option D) (k : Text) :
    writeAll E content ops k = documentAfter E k ops (content k) := by
  induction ops generalizing content with
  | nil => rfl
  | cons op ops ih =>
      have hcons : writeAll E content (op :: ops) = writeAll E (write E content op) ops := rfl
      rw [hcons, ih, documentAfter, documentAfter, write]
      by_cases hk : op.id = k
      · subst hk
        simp
      · rw [Function.update_of_ne (Ne.symm hk), List.filter_cons_of_neg (by simpa using hk)]

theorem writeAll_append (content : Text → Option D) (xs ys : List (BulkOperation D)) :
    writeAll E content (xs ++ ys) = writeAll E (writeAll E content xs) ys :=
  List.foldl_append

theorem writeAll_flatten (content : Text → Option D) (chunks : List (List (BulkOperation D))) :
    chunks.foldl (writeAll E) content = writeAll E content chunks.flatten := by
  induction chunks generalizing content with
  | nil => rfl
  | cons chunk chunks ih => rw [List.foldl_cons, ih, List.flatten_cons, writeAll_append]

theorem documentAfter_of_notMem {k : Text} {ops : List (BulkOperation D)}
    (h : k ∉ ops.map BulkOperation.id) (v : Option D) : documentAfter E k ops v = v := by
  have hnil : ops.filter (·.id = k) = [] := by
    refine List.filter_eq_nil_iff.mpr (fun op hop => ?_)
    rw [decide_eq_true_eq]
    exact fun he => h (List.mem_map.mpr ⟨op, hop, he⟩)
  rw [documentAfter, hnil, List.foldl_nil]

theorem Interchangeable.writeAll {x y : List (BulkOperation D)} (h : Interchangeable E x y)
    (content : Text → Option D) :
    writeAll E (writeAll E content x) y = writeAll E (writeAll E content y) x := by
  funext k
  simp only [writeAll_apply]
  by_cases hx : k ∈ x.map BulkOperation.id
  · by_cases hy : k ∈ y.map BulkOperation.id
    · exact h k hx hy _
    · rw [documentAfter_of_notMem hy, documentAfter_of_notMem hy]
  · rw [documentAfter_of_notMem hx, documentAfter_of_notMem hx]

theorem docs_apply (i : EsIndex D) (op : BulkOperation D) :
    (fun k => (i.apply E op).1.docs[k]?) = write E (fun k => i.docs[k]?) op := by
  funext k
  cases op with
  | index id d =>
      simp only [EsIndex.apply, write, BulkOperation.onDocument, BulkOperation.id]
      split
      · rw [Store.getElem?_insert, Function.update_apply]
      · rw [Function.update_eq_self]
  | update id op =>
      have hsame : Function.update (fun k => i.docs[k]?) id (i.docs[id]?) k = i.docs[k]? := by
        rw [Function.update_eq_self]
      simp only [EsIndex.apply, write, BulkOperation.onDocument, BulkOperation.id]
      cases hd : i.docs[id]? with
      | none =>
          rw [hd] at hsame
          exact hsame.symm
      | some d =>
          cases hs : E.script op d with
          | none =>
              rw [hd] at hsame
              simp only [Option.map_some, hs, Option.getD_none]
              exact hsame.symm
          | some d' =>
              simp only [Option.map_some, hs, Option.getD_some]
              rw [Store.getElem?_insert, Function.update_apply]

theorem docs_applyAll (i : EsIndex D) (ops : List (BulkOperation D)) :
    (fun k => (i.applyAll E ops).1.docs[k]?) = writeAll E (fun k => i.docs[k]?) ops := by
  induction ops generalizing i with
  | nil => rfl
  | cons op ops ih =>
      have hcons : writeAll E (fun k => i.docs[k]?) (op :: ops) =
        writeAll E (write E (fun k => i.docs[k]?) op) ops := rfl
      rw [hcons, ← docs_apply, ← ih]
      rfl

theorem content_bulk {s : Store D} {n : Text} (ops : List (BulkOperation D))
    (hn : n ∈ s.indices ∨ E.accepts n = true) :
    (s.bulk E n ops).1.content n = writeAll E (s.content n) ops := by
  have hempty : s.content n = fun k => ((s.indices[n]?).getD (.empty 1 1)).docs[k]? := by
    funext k
    cases hi : s.indices[n]? with
    | none => simp [Store.content, hi, EsIndex.empty]
    | some i => simp [Store.content, hi]
  rw [hempty, ← docs_applyAll]
  funext k
  rw [Store.content, Store.getElem?_bulk, if_pos ⟨rfl, hn⟩, Option.bind_some]

theorem joined_content {s s' : Store D} {n : Text} {x : Response} {ops : List (BulkOperation D)}
    (h : (elasticsearch E).Answer (.bulk n ops) s s' x) (hx : (joinBlock x).toBool = true) :
    s'.content n = writeAll E (s.content n) ops := by
  obtain ⟨items, stats, rfl, _⟩ := joinBlock_ok hx
  obtain ⟨rfl, hs⟩ := answer_served h (by simp [Request.Fault])
  refine content_bulk ops ?_
  by_contra hn
  simp [Store.serve, Store.bulk, hn, noSuchIndex, Response.exception] at hs

theorem trace_content {s s' : Store D} {n : Text} {order : List (List (BulkOperation D))}
    {xs : List Response} (h : (elasticsearch E).Trace s (order.map (Request.bulk n)) xs s')
    (hx : ∀ x ∈ xs, (joinBlock x).toBool = true) :
    s'.content n = order.foldl (writeAll E) (s.content n) := by
  induction order generalizing s xs with
  | nil =>
      cases h with
      | nil => rfl
  | cons chunk order ih =>
      cases h with
      | cons ha ht =>
          rw [ih ht (fun x hm => hx x (List.mem_cons_of_mem _ hm)),
            joined_content ha (hx _ List.mem_cons_self), List.foldl_cons]

namespace Es

variable {ε ε' α β : Type} {s s' : Store D}

theorem reach_bind {x : Es D ε α} {f : α → Es D ε β} {b : β}
    (h : (elasticsearch E).Reach (s, (x >>= f).run) (s', Client.done (.ok b))) :
    ∃ t a, (elasticsearch E).Reach (s, x.run) (t, Client.done (.ok a)) ∧
      (elasticsearch E).Reach (t, (f a).run) (s', Client.done (.ok b)) := by
  obtain ⟨t, r, hx, hf⟩ := Service.reach_bind h
  cases r with
  | ok a => exact ⟨t, a, hx, hf⟩
  | error e => cases Service.reach_done hf

theorem reach_mapErr {x : Es D ε α} {f : ε → ε'} {a : α}
    (h : (elasticsearch E).Reach (s, (x.mapErr f).run) (s', Client.done (.ok a))) :
    (elasticsearch E).Reach (s, x.run) (s', Client.done (.ok a)) := by
  obtain ⟨t, r, hx, hf⟩ := Service.reach_bind h
  cases r with
  | ok b =>
      cases Service.reach_done hf
      exact hx
  | error e => cases e <;> cases Service.reach_done hf

theorem reach_ofReply {r : Request D} {reply : Response → Except (Failure ε) α} {a : α}
    (h : (elasticsearch E).Reach (s, (ofReply r reply).run) (s', Client.done (.ok a))) :
    ∃ x, (elasticsearch E).Answer r s s' x ∧ reply x = .ok a := by
  obtain ⟨x, t, ha, hr⟩ := Service.reach_call h
  have he := Service.reach_done hr
  simp only [Prod.mk.injEq, Client.done.injEq] at he
  exact ⟨x, he.1 ▸ ha, he.2.symm⟩

theorem bind_reach {x : Es D ε α} {f : α → Es D ε β} {a : α} {t : Store D}
    {q : Store D × Client (Request D) Response (Except (Failure ε) β)}
    (hx : (elasticsearch E).Reach (s, x.run) (t, Client.done (.ok a)))
    (hf : (elasticsearch E).Reach (t, (f a).run) q) : (elasticsearch E).Reach (s, (x >>= f).run) q :=
  Service.bind_reach hx hf

theorem mapErr_reach {x : Es D ε α} (f : ε → ε') {a : α}
    (h : (elasticsearch E).Reach (s, x.run) (s', Client.done (.ok a))) :
    (elasticsearch E).Reach (s, (x.mapErr f).run) (s', Client.done (.ok a)) :=
  Service.bind_reach h .refl

end Es

variable {storage : ElasticsearchStorageConfig} {n : Text} {s s' t : Store D}

theorem bulk_order {ops : List (BulkOperation D)} {stats : InsertStats}
    (h : (elasticsearch E).Reach (s, (Internal.bulk storage n ops).run)
      (s', Client.done (.ok stats))) :
    ∃ order, Windowed storage.insertion_concurrent_requests
        (Chunks.chunks storage.insertion_chunk_size ops) order ∧
      s'.content n = order.foldl (writeAll E) (s.content n) := by
  rw [Internal.bulk] at h
  split at h
  · cases Service.reach_done h
  · change (elasticsearch E).Reach (s, (Client.resume _ _ true _ [] Client.done).bind _) _ at h
    rw [Client.resume_bind] at h
    obtain ⟨xs, t, hk, hxs⟩ := Service.reach_resume h
    have he := Service.reach_done hk
    simp only [List.nil_append, Prod.mk.injEq, Client.done.injEq] at he
    obtain ⟨rfl, hstats⟩ := he
    have hok := foldStats_ok hstats.symm
    rcases hxs with (hg | ⟨x, hm, hx⟩) | ⟨order, hw, ht⟩
    · cases hg
    · rw [hok x hm] at hx
      cases hx
    · obtain ⟨chunks, hw', rfl⟩ := hw.of_map
      exact ⟨chunks, hw', trace_content ht hok⟩

theorem ordered_fold {ops : List (BulkOperation D)} {order : List (List (BulkOperation D))}
    (ho : Ordered E storage ops) (hw : Windowed storage.insertion_concurrent_requests
      (Chunks.chunks storage.insertion_chunk_size ops) order) (content : Text → Option D) :
    order.foldl (writeAll E) content = writeAll E content ops := by
  have hflat : (Chunks.chunks storage.insertion_chunk_size ops).foldl (writeAll E) content =
      writeAll E content ops := by rw [writeAll_flatten, Chunks.chunks_flatten]
  rcases ho with hone | hall
  · rw [hone] at hw
    rw [hw.one, hflat]
  · rw [← hflat]
    exact hw.perm.foldl_eq' (fun x hx y hy => (hall x (hw.perm.mem_iff.mp hx) y
      (hw.perm.mem_iff.mp hy)).writeAll) content

theorem mem_chunks {α : Type} {capacity : Nat} {xs chunk : List α} {x : α}
    (hc : chunk ∈ Chunks.chunks capacity xs) (hx : x ∈ chunk) : x ∈ xs := by
  rw [← Chunks.chunks_flatten capacity xs]
  exact List.mem_flatten_of_mem hc hx

theorem trace_served {order : List (List (BulkOperation D))} (hn : n ∈ s.indices)
    (h : ∀ chunk ∈ order, ∀ op ∈ chunk, ∃ id d, op = .index id d ∧ E.parses d = true) :
    ∃ xs t, (elasticsearch E).Trace s (order.map (Request.bulk n)) xs t ∧
      ∀ x ∈ xs, (joinBlock x).toBool = true := by
  induction order generalizing s with
  | nil => exact ⟨[], s, .nil, by simp⟩
  | cons chunk order ih =>
      have hserved : (joinBlock (s.bulk E n chunk).2).toBool = true :=
        bulk_served hn (h chunk List.mem_cons_self)
      obtain ⟨xs, t, ht, hok⟩ := ih ((Store.mem_bulk chunk).mpr (.inl hn))
        (fun c hc => h c (List.mem_cons_of_mem _ hc))
      refine ⟨_ :: xs, t, .cons .served ht, ?_⟩
      simp only [List.mem_cons, forall_eq_or_imp]
      exact ⟨hserved, hok⟩

theorem ordered_of_nodup {ops : List (BulkOperation D)} (h : (ops.map BulkOperation.id).Nodup) :
    Ordered E storage ops := by
  have hflat := h
  rw [← Chunks.chunks_flatten storage.insertion_chunk_size ops, List.map_flatten,
    List.nodup_flatten] at hflat
  have hdisjoint := List.pairwise_map.mp hflat.2
  have hsymm : Std.Symm (fun x y : List (BulkOperation D) =>
      (x.map BulkOperation.id).Disjoint (y.map BulkOperation.id)) := ⟨fun _ _ h => h.symm⟩
  refine .inr (fun x hx y hy k hkx hky v => ?_)
  by_cases he : x = y
  · rw [he]
  · exact absurd hky (hdisjoint.forall hx hy he hkx)

theorem of_toBool {α ε : Type} {x : Except ε α} (h : x.toBool = true) : ∃ a, x = .ok a := by
  cases x with
  | ok a => exact ⟨a, rfl⟩
  | error e => cases h

section Sequential

variable [Document D]

theorem insertDocuments_order {documents : List D} {stats : InsertStats}
    (h : (elasticsearch E).Reach (s, (Storage.insertDocuments storage n documents).run)
      (s', Client.done (.ok stats))) :
    ∃ order, Windowed storage.insertion_concurrent_requests
        (Chunks.chunks storage.insertion_chunk_size (insertions documents)) order ∧
      s'.content n = order.foldl (writeAll E) (s.content n) := by
  obtain ⟨t, u, hpipe, hbulk⟩ := Es.reach_bind h
  obtain ⟨x, ha, hx⟩ := Es.reach_ofReply (Es.reach_mapErr hpipe)
  obtain ⟨order, hw, hc⟩ := bulk_order (Es.reach_mapErr hbulk)
  refine ⟨order, hw, ?_⟩
  have hsame : t.content n = s.content n := by
    funext k
    rw [Store.content, Store.content, piped ha hx]
  rw [hc, hsame]

theorem bulk_refines_sequential {documents : List D} {operations : List (Text × UpdateOperation)}
    {inserted updated : InsertStats} (hi : Ordered E storage (insertions documents))
    (hu : Ordered E storage (updates operations))
    (hinsert : (elasticsearch E).Reach (s, (Storage.insertDocuments storage n documents).run)
      (t, Client.done (.ok inserted)))
    (hupdate : (elasticsearch E).Reach (t, (Storage.updateDocuments storage n operations).run)
      (s', Client.done (.ok updated))) :
    s'.content n = writeAll E (s.content n) (insertions documents ++ updates operations) := by
  obtain ⟨first, hfirst, hcontent⟩ := insertDocuments_order hinsert
  obtain ⟨second, hsecond, hcontent'⟩ := bulk_order (Es.reach_mapErr hupdate)
  rw [hcontent', hcontent, ordered_fold hi hfirst, ordered_fold hu hsecond, writeAll_append]

theorem mem_insertions {documents : List D} {op : BulkOperation D}
    (h : op ∈ insertions documents) : ∃ d ∈ documents, op = .index (Document.id d) d := by
  obtain ⟨d, hd, rfl⟩ := List.mem_map.mp h
  exact ⟨d, hd, rfl⟩

theorem insertDocuments_reordered {documents : List D} {order : List (List (BulkOperation D))}
    (hn : n ∈ s.indices) (hc : storage.insertion_chunk_size ≠ 0)
    (hparses : ∀ d ∈ documents, E.parses d = true)
    (hw : Windowed storage.insertion_concurrent_requests
      (Chunks.chunks storage.insertion_chunk_size (insertions documents)) order) :
    ∃ s' stats, (elasticsearch E).Reach (s, (Storage.insertDocuments storage n documents).run)
        (s', Client.done (.ok stats)) ∧
      s'.content n = order.foldl (writeAll E) (s.content n) := by
  let piped : Store D := { s with pipelines := "indexed_at".toList :: s.pipelines }
  have hpipe : (elasticsearch E).Reach (s, (addPipeline (D := D) "indexed_at".toList).run)
      (piped, Client.done (.ok ())) := Service.reach_served .refl
  have hindex : ∀ chunk ∈ order, ∀ op ∈ chunk, ∃ id d, op = .index id d ∧ E.parses d = true := by
    intro chunk hchunk op hop
    obtain ⟨d, hd, rfl⟩ := mem_insertions (mem_chunks (hw.perm.mem_iff.mp hchunk) hop)
    exact ⟨_, d, rfl, hparses d hd⟩
  obtain ⟨xs, t, ht, hok⟩ := trace_served (s := piped) (n := n) hn hindex
  obtain ⟨stats, hstats⟩ := foldStats_total hok .default
  have hbulk : (elasticsearch E).Reach (piped, (insertDocumentsInIndex storage n documents).run)
      (t, Client.done (.ok stats)) := by
    unfold insertDocumentsInIndex Internal.bulk
    rw [if_neg hc]
    change (elasticsearch E).Reach (piped, (Client.resume _ _ true _ [] Client.done).bind _) _
    rw [Client.resume_bind]
    refine Service.reach_windowed (hw.map _) ht hok ?_
    rw [List.nil_append, ← hstats]
    exact .refl
  have hcontent : t.content n = order.foldl (writeAll E) (piped.content n) := trace_content ht hok
  exact ⟨t, stats, Es.bind_reach (Es.mapErr_reach _ hpipe) (Es.mapErr_reach _ hbulk), hcontent⟩

theorem documentAfter_insertions {k : Text} {documents : List D}
    (hparses : ∀ d ∈ documents, E.parses d = true) {ops : List (BulkOperation D)}
    (hops : ∀ op ∈ ops, op ∈ insertions documents) (hk : k ∈ ops.map BulkOperation.id)
    (v w : Option D) : documentAfter E k ops v = documentAfter E k ops w := by
  induction ops using List.reverseRecOn with
  | nil => simp at hk
  | append_singleton ops op ih =>
      obtain ⟨d, hd, rfl⟩ := mem_insertions (hops op (by simp))
      by_cases he : Document.id d = k
      · simp [documentAfter, List.filter_append, BulkOperation.id, he, BulkOperation.onDocument,
          hparses d hd]
      · have hk' : k ∈ ops.map BulkOperation.id := by
          simpa [BulkOperation.id, Ne.symm he] using hk
        have hrest := ih (fun op hop => hops op (List.mem_append_left _ hop)) hk'
        simpa [documentAfter, List.filter_append, BulkOperation.id, he] using hrest

theorem insertions_ordered_iff {documents : List D} (hn : n ∈ s.indices)
    (hc : storage.insertion_chunk_size ≠ 0) (hw : 2 ≤ storage.insertion_concurrent_requests)
    (hparses : ∀ d ∈ documents, E.parses d = true) :
    (∀ s' stats, (elasticsearch E).Reach (s, (Storage.insertDocuments storage n documents).run)
        (s', Client.done (.ok stats)) →
      s'.content n = writeAll E (s.content n) (insertions documents)) ↔
      Ordered E storage (insertions documents) := by
  constructor
  · intro h
    have hlast : ∀ x ∈ Chunks.chunks storage.insertion_chunk_size (insertions documents), ∀ k,
        k ∈ x.map BulkOperation.id → ∀ v, documentAfter E k x v =
          writeAll E (s.content n) (insertions documents) k := by
      intro x hx k hk v
      obtain ⟨pre, post, hsplit⟩ := List.append_of_mem hx
      obtain ⟨s', stats, hr, hcontent⟩ := insertDocuments_reordered hn hc hparses
        (hsplit ▸ Windowed.delay hw pre x post)
      rw [← h s' stats hr, hcontent, ← List.append_assoc, List.foldl_append, List.foldl_cons,
        List.foldl_nil, writeAll_apply]
      exact documentAfter_insertions hparses (fun op hop => mem_chunks hx hop) hk _ _
    exact .inr (fun x hx y hy k hkx hky v =>
      (hlast y hy k hky _).trans (hlast x hx k hkx _).symm)
  · intro ho s' stats h
    obtain ⟨order, horder, hcontent⟩ := insertDocuments_order h
    rw [hcontent, ordered_fold ho horder]

def Engine.renaming : Engine Poi :=
  { Engine.permissive Poi with script := fun | .set _ value, d => some { d with label := value } }

def pois : Text := "munin_poi_fr".toList

def twoAtATime : ElasticsearchStorageConfig := ⟨1000, "1m".toList, 2, 1, ⟨false, 1⟩⟩

-- Both streams answer their second chunk before the first one.
theorem pois_updated_out_of_order :
    ∃ (t s' : Store Poi) (inserted updated : InsertStats),
      (elasticsearch Engine.renaming).Reach (Store.published pois [],
        (Storage.insertDocuments twoAtATime pois
          [⟨"poi:1".toList, "Gare".toList⟩, ⟨"poi:2".toList, "Gare".toList⟩]).run)
        (t, Client.done (.ok inserted)) ∧
      (elasticsearch Engine.renaming).Reach (t,
        (Storage.updateDocuments twoAtATime pois
          [("poi:1".toList, .set "label".toList "Gare de l'Est".toList),
            ("poi:2".toList, .set "label".toList "Gare du Nord".toList)]).run)
        (s', Client.done (.ok updated)) ∧
      s'.content pois = writeAll Engine.renaming ((Store.published pois []).content pois)
        (insertions [⟨"poi:1".toList, "Gare".toList⟩, ⟨"poi:2".toList, "Gare".toList⟩] ++
          updates [("poi:1".toList, .set "label".toList "Gare de l'Est".toList),
            ("poi:2".toList, .set "label".toList "Gare du Nord".toList)]) := by
  let insert : Es Poi StorageError InsertStats := Storage.insertDocuments twoAtATime pois
    [⟨"poi:1".toList, "Gare".toList⟩, ⟨"poi:2".toList, "Gare".toList⟩]
  let update : Es Poi StorageError InsertStats := Storage.updateDocuments twoAtATime pois
    [("poi:1".toList, .set "label".toList "Gare de l'Est".toList),
      ("poi:2".toList, .set "label".toList "Gare du Nord".toList)]
  have hrun : (((elasticsearch Engine.renaming).follow [0, 1, 0] (Store.published pois [])
      insert.run).bind (fun p => ((elasticsearch Engine.renaming).follow [1, 0] p.1 update.run).map
        (fun q => p.2.toBool && q.2.toBool))) = some true := by decide +kernel
  obtain ⟨⟨t, r⟩, hinsert, hrest⟩ := Option.bind_eq_some_iff.mp hrun
  obtain ⟨⟨s', r'⟩, hupdate, hok⟩ := Option.map_eq_some_iff.mp hrest
  obtain ⟨hok, hok'⟩ := Bool.and_eq_true_iff.mp hok
  obtain ⟨inserted, rfl⟩ := of_toBool hok
  obtain ⟨updated, rfl⟩ := of_toBool hok'
  have hi := Service.follow_reach hinsert
  have hu := Service.follow_reach hupdate
  exact ⟨t, s', inserted, updated, hi, hu, bulk_refines_sequential
    (ordered_of_nodup (by decide)) (ordered_of_nodup (by decide)) hi hu⟩

theorem last_insertion_overtaken :
    ∃ (t s' : Store Poi) (inserted updated : InsertStats),
      (elasticsearch Engine.renaming).Reach (Store.published pois [],
        (Storage.insertDocuments twoAtATime pois
          [⟨"poi:1".toList, "Gare".toList⟩, ⟨"poi:1".toList, "Gare du Nord".toList⟩]).run)
        (t, Client.done (.ok inserted)) ∧
      (elasticsearch Engine.renaming).Reach (t, (Storage.updateDocuments twoAtATime pois []).run)
        (s', Client.done (.ok updated)) ∧
      s'.content pois ≠ writeAll Engine.renaming ((Store.published pois []).content pois)
        (insertions [⟨"poi:1".toList, "Gare".toList⟩, ⟨"poi:1".toList, "Gare du Nord".toList⟩] ++
          updates []) := by
  let insert : Es Poi StorageError InsertStats := Storage.insertDocuments twoAtATime pois
    [⟨"poi:1".toList, "Gare".toList⟩, ⟨"poi:1".toList, "Gare du Nord".toList⟩]
  have hrun : ((elasticsearch Engine.renaming).follow [0, 1, 0] (Store.published pois [])
      insert.run).map (fun p => p.2.toBool && (p.1.content pois "poi:1".toList ==
        some ⟨"poi:1".toList, "Gare".toList⟩)) = some true := by decide +kernel
  obtain ⟨⟨t, r⟩, hinsert, hok⟩ := Option.map_eq_some_iff.mp hrun
  obtain ⟨hok, hcontent⟩ := Bool.and_eq_true_iff.mp hok
  obtain ⟨inserted, rfl⟩ := of_toBool hok
  refine ⟨t, t, inserted, .default, Service.follow_reach hinsert, .refl, fun he => ?_⟩
  have hlast := congrFun he "poi:1".toList
  rw [beq_iff_eq.mp hcontent] at hlast
  exact absurd hlast (by decide +kernel)

end Sequential

end Mimirsbrunn
