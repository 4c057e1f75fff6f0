import Mimirsbrunn.Publication.Filling

namespace Mimirsbrunn
open Regex Std Internal

variable {D : Type}

structure Store.Agree (s s' : Store D) : Prop where
  mem : ∀ m, m ∈ s'.indices ↔ m ∈ s.indices
  aliased : ∀ a m, s'.Aliased a m ↔ s.Aliased a m

structure Moved (n : Text) (s₀ s : Store D) (previous moved dropped : List Text) : Prop where
  mem : ∀ m, m ∈ s.indices ↔ (m ∈ s₀.indices ∨ m = n) ∧ m ∉ dropped
  aliased : ∀ a m, s.Aliased a m ↔
    ((s₀.Aliased a m ∨ (a ∈ moved ∧ m = n)) ∧ ¬ (a ∈ moved ∧ m ∈ previous)) ∧ m ∉ dropped

namespace Store

variable {E : Engine D} {s s' s'' : Store D} {n m : Text}

theorem Agree.refl (s : Store D) : s.Agree s := ⟨fun _ => Iff.rfl, fun _ _ => Iff.rfl⟩

theorem Agree.trans (h : s.Agree s') (h' : s'.Agree s'') : s.Agree s'' :=
  ⟨fun m => (h'.mem m).trans (h.mem m), fun a m => (h'.aliased a m).trans (h.aliased a m)⟩

theorem agree_bulk (ops : List (BulkOperation D)) (hn : n ∈ s.indices) :
    s.Agree (s.bulk E n ops).1 := by
  refine ⟨fun m => ?_, fun a m => aliased_bulk ops⟩
  rw [mem_bulk]
  exact ⟨fun h => h.elim id (fun h => h.1 ▸ hn), Or.inl⟩

theorem agree_refresh : s.Agree (s.refresh n).1 :=
  ⟨fun _ => mem_refresh, fun _ _ => aliased_refresh⟩

theorem agree_of_indices (h : s'.indices = s.indices) : s.Agree s' := by
  refine ⟨fun m => by rw [h], fun a m => ?_⟩
  rw [aliased_iff, aliased_iff, h]

end Store

namespace Moved

variable {E : Engine D} {n : Text} {s₀ s s' : Store D} {previous moved dropped : List Text}

theorem agree (h : Moved n s₀ s previous moved dropped) (ha : s.Agree s') :
    Moved n s₀ s' previous moved dropped :=
  ⟨fun m => (ha.mem m).trans (h.mem m), fun a m => (ha.aliased a m).trans (h.aliased a m)⟩

theorem create (shards replicas : Nat) (ha : E.accepts n = true) :
    Moved n s₀ (s₀.createIndex E n shards replicas).1 [] [] [] := by
  refine ⟨fun m => ?_, fun a m => ?_⟩
  · simp [Store.mem_createIndex, ha]
  · simp [Store.aliased_createIndex]

theorem switch {a : Text} (h : Moved n s₀ s previous moved []) (hn : n ∈ s.indices)
    (hp : n ∉ previous) :
    Moved n s₀ ((aliasActions a [n] previous).foldl Store.act s) previous (moved ++ [a]) [] := by
  refine ⟨fun m => (Store.foldl_act_mem _ s).trans (h.mem m), fun b m => ?_⟩
  have hm : m = n → m ∉ previous := fun he => he ▸ hp
  rw [Store.aliased_aliasActions hn, h.aliased b m, List.mem_append, List.mem_singleton]
  tauto

theorem delete {k : Text} (h : Moved n s₀ s previous moved dropped) :
    Moved n s₀ (s.deleteIndex k).1 previous moved (dropped ++ [k]) := by
  refine ⟨fun m => ?_, fun b m => ?_⟩
  · rw [Store.mem_deleteIndex, h.mem, List.mem_append, List.mem_singleton]
    tauto
  · rw [Store.aliased_deleteIndex, h.aliased, List.mem_append, List.mem_singleton]
    tauto

theorem relist (h : Moved n s₀ s [] [] []) (previous : List Text) : Moved n s₀ s previous [] [] := by
  refine ⟨h.mem, fun a m => ?_⟩
  rw [h.aliased]
  simp

end Moved

namespace Phase

variable {E : Engine D} {i : Import D} {s₀ s s' s'' : Store D} {r : Request D} {x : Response}

def pattern (index : Index) : Text := aliasPattern (rootDoctypeDataset index.doc_type index.dataset)

structure Listed (i : Import D) (s₀ : Store D) (index : Index) (previous : List Text) : Prop where
  mem : ∀ m, m ∈ previous ↔ m ∈ s₀.indices ∧ glob (pattern index) m = true
  nodup : previous.Nodup

structure Switched (i : Import D) (s₀ s : Store D) (index : Index)
    (previous done rest gone left : List Text) : Prop where
  named : Named i index
  fresh : i.indexName ∉ s₀.indices
  listed : Listed i s₀ index previous
  plan : i.plan index = done ++ rest
  split : previous = gone ++ left
  order : gone = [] ∨ rest = []
  moved : Moved i.indexName s₀ s previous done gone

def Created (i : Import D) (s₀ s : Store D) : Prop :=
  i.indexName ∉ s₀.indices ∧ Moved i.indexName s₀ s [] [] []

theorem listed_previousOf {index : Index} {found : TreeMap Text (List Text)}
    (hi : Named i index) (hc : Created i s₀ s)
    (hf : ∀ m, m ∈ found ↔ m ∈ s.indices ∧ glob (pattern index) m = true) :
    Listed i s₀ index (previousOf index found) := by
  refine ⟨fun m => ?_, nodup_previousOf index found⟩
  rw [mem_previousOf, hf, hc.2.mem, hi.1]
  constructor
  · rintro ⟨⟨⟨hm | hm, _⟩, hg⟩, hne⟩
    · exact ⟨hm, hg⟩
    · exact absurd hm hne
  · rintro ⟨hm, hg⟩
    exact ⟨⟨⟨.inl hm, List.not_mem_nil⟩, hg⟩, fun he => hc.1 (he ▸ hm)⟩

theorem created_agree (h : Created i s₀ s) (ha : s.Agree s') : Created i s₀ s' :=
  ⟨h.1, h.2.agree ha⟩

theorem created_mem (h : Created i s₀ s) : i.indexName ∈ s.indices := by simp [h.2.mem]

theorem not_mem_listed {index : Index} {previous : List Text} (hl : Listed i s₀ index previous)
    (hf : i.indexName ∉ s₀.indices) : i.indexName ∉ previous := fun h => hf ((hl.mem _).mp h).1

theorem switched_mem {index : Index} {previous done rest gone left : List Text}
    (h : Switched i s₀ s index previous done rest gone left) : i.indexName ∈ s.indices := by
  refine (h.moved.mem _).mpr ⟨.inr rfl, fun hg => not_mem_listed h.listed h.fresh ?_⟩
  rw [h.split]
  exact List.mem_append_left _ hg

theorem named_unique {index index' : Index} (h : Named i index) (h' : Named i index') :
    index'.doc_type = index.doc_type ∧ index'.dataset = index.dataset :=
  Prod.mk.inj (Except.ok.inj (h'.2.symm.trans h.2))

theorem switched_named {index index' : Index} {previous done rest gone left : List Text}
    (h : Switched i s₀ s index previous done rest gone left) (hi : Named i index') :
    Switched i s₀ s index' previous done rest gone left := by
  obtain ⟨hdoc, hset⟩ := named_unique h.named hi
  refine ⟨hi, h.fresh, ⟨?_, h.listed.nodup⟩, ?_, h.split, h.order, h.moved⟩
  · rw [pattern, hdoc, hset]
    exact h.listed.mem
  · rw [Import.plan, hdoc, hset]
    exact h.plan

theorem answer_bulk {n : Text} {ops : List (BulkOperation D)}
    (ha : (elasticsearch E).Answer (.bulk n ops) s s' x) (hn : n ∈ s.indices) : s.Agree s' := by
  rcases answer_cases ha with rfl | rfl | ⟨m, ops', k, he, rfl⟩
  · exact .refl s'
  · exact Store.agree_bulk ops hn
  · obtain ⟨rfl, rfl⟩ := Request.bulk.inj he
    exact Store.agree_bulk _ hn

theorem switched_switch {index : Index} {previous done todo : List Text} {a : Text}
    (h : Switched i s₀ s index previous done (a :: todo) [] previous) :
    Switched i s₀ ((aliasActions a [index.name] previous).foldl Store.act s) index previous
      (done ++ [a]) todo [] previous := by
  have hp := not_mem_listed h.listed h.fresh
  refine ⟨h.named, h.fresh, h.listed, by simp [h.plan], rfl, .inl rfl, ?_⟩
  rw [h.named.1]
  exact h.moved.switch (switched_mem h) hp

theorem switched_delete {index : Index} {previous done gone left : List Text} {n : Text}
    (h : Switched i s₀ s index previous done [] gone (n :: left)) :
    Switched i s₀ (s.deleteIndex n).1 index previous done [] (gone ++ [n]) left :=
  ⟨h.named, h.fresh, h.listed, h.plan, by simp [h.split], .inr rfl, h.moved.delete⟩

variable [Document D]

inductive Stopped (i : Import D) (s₀ s : Store D) : Prop
  | untouched : s = s₀ → Stopped i s₀ s
  | created : Created i s₀ s → Stopped i s₀ s
  | switched {index : Index} {previous done rest gone left : List Text} :
      Switched i s₀ s index previous done rest gone left →
      Ready i index (s.contentOf i.indexName) → Stopped i s₀ s

def Progress (i : Import D) (s₀ s : Store D) : Phase D → Prop
  | .creating => s = s₀
  | .finding => Created i s₀ s
  | .piping _ => Created i s₀ s
  | .filling .. => Created i s₀ s
  | .refreshing _ => Created i s₀ s
  | .listing _ => Created i s₀ s
  | .moving index previous a todo =>
      ∃ done, Switched i s₀ s index previous done (a :: todo) [] previous
  | .deleting index n todo =>
      ∃ previous gone, Switched i s₀ s index previous (i.plan index) [] gone (n :: todo)
  | .merging index => ∃ previous, Switched i s₀ s index previous (i.plan index) [] previous []
  | .locating index => ∃ previous, Switched i s₀ s index previous (i.plan index) [] previous []
  | .ended (.ok index) => ∃ previous, Switched i s₀ s index previous (i.plan index) [] previous []
  | .ended (.error _) => Stopped i s₀ s

theorem progress_stop {wrap : Error → ModelError} {e : Failure Error} (h : Stopped i s₀ s) :
    (Import.stop wrap e : Phase D).Progress i s₀ s := by
  cases e <;> exact h

theorem progress_startMerging {index : Index} {previous : List Text}
    (h : Switched i s₀ s index previous (i.plan index) [] previous []) :
    (i.startMerging index).Progress i s₀ s := by
  rw [Import.startMerging]
  split <;> exact ⟨previous, h⟩

theorem progress_startDeleting {index : Index} {previous gone todo : List Text}
    (h : Switched i s₀ s index previous (i.plan index) [] gone todo) :
    (i.startDeleting index todo).Progress i s₀ s := by
  cases todo with
  | nil =>
      have hp : previous = gone := by simpa using h.split
      exact progress_startMerging (hp ▸ h)
  | cons n todo => exact ⟨previous, gone, h⟩

theorem progress_startMoving {index : Index} {previous done todo : List Text}
    (h : Switched i s₀ s index previous done todo [] previous) :
    (i.startMoving index previous todo).Progress i s₀ s := by
  cases todo with
  | nil =>
      have hd : i.plan index = done := by simpa using h.plan
      exact progress_startDeleting (hd ▸ h)
  | cons a todo => exact ⟨done, h⟩

theorem progress_resumeFilling {index : Index} {good : Bool} {pending : List (Request D)}
    {answers : List Response} (h : Created i s₀ s) :
    (Import.resumeFilling index good pending answers).Progress i s₀ s := by
  rw [Import.resumeFilling]
  split
  · exact h
  · split
    · exact h
    · exact progress_stop (.created h)

theorem progress_fill {index : Index} {pre post : List (Request D)} {answers : List Response}
    (hh : (Phase.filling index (pre ++ r :: post) answers).Holding i (s.contentOf i.indexName))
    (hp : Created i s₀ s) (ha : (elasticsearch E).Answer r s s' x)
    (hsp : (elasticsearch E).Spill (if (joinBlock x).toBool then [] else
        (pre ++ post).take (i.storage.insertion_concurrent_requests - 1)) s' s'') :
    (Import.resumeFilling index (joinBlock x).toBool (pre ++ post) (answers ++ [x])).Progress
      i s₀ s'' := by
  have hn : index.name ∈ s.indices := hh.1.1 ▸ created_mem hp
  refine progress_resumeFilling (created_agree hp (Service.window_invariant (fun t => s.Agree t)
    (fun q hq t t' y hy hag => ?_) (fun _ _ _ => answer_of_cut) ha hsp (.refl s)))
  obtain ⟨ops, rfl⟩ := bulk_of_filling hh q hq
  exact hag.trans (answer_bulk hy ((hag.mem _).mpr hn))

theorem progress_step {ph ph' : Phase D} (h : Step E i s ph r x s' ph')
    (hh : ph.Holding i (s.contentOf i.indexName)) (hp : ph.Progress i s₀ s) :
    ph'.Progress i s₀ s' := by
  cases h with
  | fill hw ha hsp => exact progress_fill hh hp ha hsp
  | call hr ha =>
    cases ph with
    | filling => simp [request] at hr
    | ended => simp [request] at hr
    | creating =>
        obtain rfl := Option.some.inj hr
        obtain rfl : s = s₀ := hp
        simp only [next]
        split
        · next hx =>
          obtain ⟨hn, hacc, rfl⟩ := created ha hx
          exact ⟨hn, .create _ _ hacc⟩
        · refine progress_stop ?_
          rcases answer_plain ha (by simp) with rfl | rfl
          · exact .untouched rfl
          · by_cases hc : i.indexName ∉ s.indices ∧ E.accepts i.indexName = true
            · exact .created ⟨hc.1, .create _ _ hc.2⟩
            · exact .untouched (Store.createIndex_refused _ _ hc)
    | finding =>
        obtain rfl := Option.some.inj hr
        obtain rfl : s' = s := (answer_plain ha (by simp)).elim id id
        simp only [next]
        split
        · exact hp
        · exact progress_stop (.created hp)
        · exact progress_stop (.created hp)
    | piping index =>
        obtain rfl := Option.some.inj hr
        have hag : s.Agree s' := by
          rcases answer_plain ha (by simp) with rfl | rfl
          · exact .refl s'
          · exact Store.agree_of_indices rfl
        simp only [next]
        split
        · rw [Import.startFilling]
          split
          · exact .created (created_agree hp hag)
          · exact progress_resumeFilling (created_agree hp hag)
        · exact progress_stop (.created (created_agree hp hag))
    | refreshing index =>
        obtain rfl := Option.some.inj hr
        have hag : s.Agree s' := by
          rcases answer_plain ha (by simp) with rfl | rfl
          · exact .refl s'
          · exact Store.agree_refresh
        simp only [next]
        split
        · exact created_agree hp hag
        · exact progress_stop (.created (created_agree hp hag))
    | listing index =>
        obtain rfl := Option.some.inj hr
        obtain rfl : s' = s := (answer_plain ha (by simp)).elim id id
        simp only [next]
        split
        · next found' hx =>
          have hsw : Switched i s₀ s' index (previousOf index found') [] (i.plan index) []
              (previousOf index found') :=
            ⟨hh.1, hp.1, listed_previousOf hh.1 hp (listed ha hx), rfl, rfl, .inl rfl,
              hp.2.relist _⟩
          exact progress_startMoving hsw
        · exact progress_stop (.created hp)
    | moving index previous a todo =>
        obtain rfl := Option.some.inj hr
        obtain ⟨done, hsw⟩ := hp
        have hready := hh.1
        simp only [next]
        split
        · next hx =>
          obtain ⟨rfl, _⟩ := aliased ha hx
          exact progress_startMoving (switched_switch hsw)
        · refine progress_stop ?_
          rcases answer_plain ha (by simp) with rfl | rfl
          · exact .switched hsw hready
          · simp only [Store.serve]
            rcases Store.updateAliases_cases (aliasActions a [index.name] previous) s with
              ⟨k, he, _⟩ | ⟨he, _⟩
            · rw [he]; exact .switched hsw hready
            · rw [he]
              exact .switched (switched_switch hsw) (by rw [Store.foldl_act_contentOf]; exact hready)
    | deleting index n todo =>
        obtain rfl := Option.some.inj hr
        obtain ⟨previous, gone, hsw⟩ := hp
        obtain ⟨hready, hn⟩ := hh
        simp only [List.mem_cons, not_or] at hn
        simp only [next]
        split
        · next hx =>
          obtain ⟨_, rfl⟩ := deleted ha hx
          exact progress_startDeleting (switched_delete hsw)
        · refine progress_stop ?_
          rcases answer_plain ha (by simp) with rfl | rfl
          · exact .switched hsw hready
          · refine .switched (switched_delete hsw) ?_
            simp only [Store.serve]
            rw [Store.contentOf_deleteIndex, if_neg hn.1]
            exact hready
    | merging index =>
        obtain rfl := Option.some.inj hr
        obtain ⟨previous, hsw⟩ := hp
        obtain rfl : s' = s := (answer_plain ha (by simp)).elim id id
        simp only [next]
        split
        · exact ⟨previous, hsw⟩
        · exact progress_stop (.switched hsw hh)
    | locating index =>
        obtain rfl := Option.some.inj hr
        obtain ⟨previous, hsw⟩ := hp
        obtain rfl : s' = s := (answer_plain ha (by simp)).elim id id
        simp only [next]
        split
        · next index' hx =>
          obtain ⟨_, hname, hsplit⟩ := found ha hx
          rw [hh.1.1] at hname hsplit
          have hplan : i.plan index' = i.plan index := by
            obtain ⟨hdoc, hset⟩ := named_unique hsw.named ⟨hname, hsplit⟩
            rw [Import.plan, Import.plan, hdoc, hset]
          exact ⟨previous, hplan ▸ switched_named hsw ⟨hname, hsplit⟩⟩
        · exact .switched hsw hh
        · exact progress_stop (.switched hsw hh)

theorem client_done {ph : Phase D} {result : Except (Failure ModelError) Index}
    (h : ph.client i = Client.done result) : ph = .ended result := by
  cases hr : ph.request i with
  | some r => rw [client_of_request i hr] at h; cases h
  | none =>
      cases ph with
      | ended result' => cases h; rfl
      | filling => cases h
      | _ => cases hr

theorem reach_progress {c : Es D ModelError Index}
    (h : (elasticsearch E).Reach (s₀, i.run) (s, c)) :
    ∃ ph : Phase D, c = ph.client i ∧ ph.Holding i (s.contentOf i.indexName) ∧
      ph.Progress i s₀ s := by
  refine reach_phase (fun s ph => ph.Holding i (s.contentOf i.indexName) ∧ ph.Progress i s₀ s)
    ⟨trivial, rfl⟩ ?_ h
  rintro s ph r x s' ph' ⟨hh, hp⟩ hs
  exact ⟨holding_step hs hh, progress_step hs hh hp⟩

theorem reach_ended {result : Except (Failure ModelError) Index}
    (h : (elasticsearch E).Reach (s₀, i.run) (s, Client.done result)) :
    (Phase.ended result).Holding i (s.contentOf i.indexName) ∧
      (Phase.ended result).Progress i s₀ s := by
  obtain ⟨ph, hc, hI⟩ := reach_progress h
  rwa [client_done hc.symm] at hI

end Phase

end Mimirsbrunn
