import Mimirsbrunn.Publication.Isolation

namespace Mimirsbrunn
open Regex Std Internal Phase

variable {D : Type}

namespace Moved

variable {n : Text} {s : Store D}

theorem refl (hn : n ∈ s.indices) : Moved n s s [] [] [] := by
  refine ⟨fun m => ?_, fun a m => by simp⟩
  simp only [List.not_mem_nil, not_false_eq_true, and_true]
  exact ⟨Or.inl, fun h => h.elim id (fun h => h ▸ hn)⟩

theorem rebase {s' s₀ : Store D} {previous moved dropped : List Text} (ha : s₀.Agree s)
    (h : Moved n s s' previous moved dropped) : Moved n s₀ s' previous moved dropped :=
  ⟨fun m => by rw [h.mem, ha.mem], fun a m => by rw [h.aliased, ha.aliased]⟩

end Moved

namespace Import

variable {i : Import D} {index : Index}

theorem drop_cons (n : Text) (todo : List Text) :
    (i.drop index (n :: todo) : Es D StorageError Unit) = Client.call (.deleteIndex n) (fun x =>
      match deleteIndexReply n x with
      | .ok () => i.drop index todo
      | .error e => Client.done (Es.mapFailure .containerDeletionError (.error e))) := by
  show Client.call _ _ = _
  congr 1; funext x
  simp only [Client.bind]
  cases deleteIndexReply n x with
  | ok => rfl
  | error e => cases e <;> rfl

theorem move_cons (previous : List Text) (a : Text) (todo : List Text) :
    (i.move index previous (a :: todo) : Es D StorageError Unit) =
      Client.call (.updateAliases (aliasActions a [index.name] previous)) (fun x =>
        match updateAliasReply a x with
        | .ok () => i.move index previous todo
        | .error e => Client.done (Es.mapFailure .indexPublicationError (.error e))) := by
  show Client.call _ _ = _
  congr 1; funext x
  simp only [Client.bind]
  cases updateAliasReply a x with
  | ok => rfl
  | error e => cases e <;> rfl

theorem list_call :
    (i.list index : Es D StorageError Unit) =
      Client.call (.getAlias (pattern index)) (fun x =>
        match findAliasesReply (pattern index) x with
        | .ok found => i.move index (previousOf index found) (i.plan index)
        | .error e => Client.done (Es.mapFailure .indexPublicationError (.error e))) := by
  show Client.call _ _ = _
  congr 1; funext x
  simp only [Client.bind, pattern]
  cases findAliasesReply (aliasPattern (rootDoctypeDataset index.doc_type index.dataset)) x with
  | ok => rfl
  | error e => cases e <;> rfl

theorem publishIndex_call :
    (Storage.publishIndex i.storage index i.config.visibility : Es D StorageError Unit) =
      Client.call (.refresh index.name) (fun x =>
        match refreshIndexReply index.name x with
        | .ok () => i.list index
        | .error e => Client.done (Es.mapFailure .indexPublicationError (.error e))) := by
  rw [publishIndex_eq]
  show Client.call _ _ = _
  congr 1; funext x
  simp only [Client.bind]
  cases refreshIndexReply index.name x with
  | ok => rfl
  | error e => cases e <;> rfl

end Import

section

variable {E : Engine D} {i : Import D} {index : Index} {s₀ s s' : Store D}
  {fate : Nat → Service.Fate Response} {n p : Nat} {e : Failure StorageError}
  {previous done gone todo : List Text}

def effective (fate : Nat → Service.Fate Response) (p : Nat) : Nat :=
  if (fate p).applies then p + 1 else p

theorem not_exec_done {c : Except (Failure StorageError) Unit} (hn : n ≤ p) :
    (elasticsearch E).exec fate n s (Client.done c) ≠ (p + 1, s', .error e) := by
  intro h
  have := congrArg Prod.fst h
  simp only [Service.exec] at this
  omega

theorem merge_stops (hp : ∀ j < p, fate j = .served)
    (h : (elasticsearch E).exec fate n s (i.merge index) = (p + 1, s', .error e)) : s' = s := by
  rw [Import.merge] at h
  split at h
  · rcases Service.exec_stop
      (r := Request.forcemerge [index.name] i.storage.force_merge.max_number_segments) h hp with
      ⟨_, h⟩ | ⟨_, rfl⟩
    · exact (congrArg (fun a => a.2.1) h).symm
    · split <;> rfl
  · cases h

theorem drop_stops (hp : ∀ j < p, fate j = .served) (hn : n ≤ p)
    (hm : Moved index.name s₀ s previous done gone)
    (h : (elasticsearch E).exec fate n s (i.drop index todo) = (p + 1, s', .error e)) :
    Moved index.name s₀ s' previous done (gone ++ todo.take (effective fate p - n)) := by
  induction todo generalizing n s gone with
  | nil =>
      rw [merge_stops hp h, List.take_nil, List.append_nil]
      exact hm
  | cons k todo ih =>
      rw [Import.drop_cons] at h
      rcases Service.exec_stop h hp with ⟨hlt, h⟩ | ⟨rfl, rfl⟩
      · cases hx : deleteIndexReply k ((elasticsearch E).serve (.deleteIndex k) s).2 with
        | error err => rw [hx] at h; exact absurd h (not_exec_done (by omega))
        | ok =>
            rw [hx] at h
            have hd := ih hlt hm.delete h
            have heff : effective fate p - n = effective fate p - (n + 1) + 1 := by
              rw [effective]; split <;> omega
            rwa [List.append_assoc, List.singleton_append, ← List.take_succ_cons, ← heff] at hd
      · rw [effective]
        split
        · have hone : n + 1 - n = 1 := by omega
          rw [hone]
          exact hm.delete
        · simpa using hm

theorem move_stops (hp : ∀ j < p, fate j = .served) (hn : n ≤ p)
    (hm : Moved index.name s₀ s previous done []) (hin : index.name ∈ s.indices)
    (hprev : ∀ m ∈ previous, m ∈ s.indices) (hnot : index.name ∉ previous)
    (h : (elasticsearch E).exec fate n s (i.move index previous todo) = (p + 1, s', .error e)) :
    Moved index.name s₀ s' previous (done ++ todo.take (effective fate p - n))
      (previous.take (effective fate p - n - todo.length)) := by
  induction todo generalizing n s done with
  | nil =>
      have := drop_stops hp hn hm h
      simpa using this
  | cons a todo ih =>
      rw [Import.move_cons] at h
      have hserved := updateAliases_served (a := a) hin hprev
      have hfold : (s.updateAliases (aliasActions a [index.name] previous)).1 =
          (aliasActions a [index.name] previous).foldl Store.act s :=
        (aliased (E := E) .served hserved).1
      rcases Service.exec_stop h hp with ⟨hlt, h⟩ | ⟨rfl, rfl⟩
      · simp only [elasticsearch, Store.serve, hserved, hfold] at h
        have hd := ih hlt (hm.switch hin hnot) ((Store.foldl_act_mem _ s).mpr hin)
          (fun m hmem => (Store.foldl_act_mem _ s).mpr (hprev m hmem)) h
        have heff : effective fate p - n = effective fate p - (n + 1) + 1 := by
          rw [effective]; split <;> omega
        have hlen : effective fate p - n - (a :: todo).length =
            effective fate p - (n + 1) - todo.length := by simp only [List.length_cons]; omega
        rw [hlen]
        rwa [List.append_assoc, List.singleton_append, ← List.take_succ_cons, ← heff] at hd
      · rw [effective]
        split
        · have hone : n + 1 - n = 1 := by omega
          simp only [elasticsearch, Store.serve, hfold, hone, List.length_cons]
          simpa using hm.switch hin hnot
        · simpa using hm

theorem getAlias_served (s : Store D) (index : Index) :
    ∃ found, findAliasesReply (pattern index) (s.getAlias (pattern index)) = .ok found ∧
      ∀ m, m ∈ previousOf index found ↔
        m ∈ s.indices ∧ glob (pattern index) m = true ∧ m ≠ index.name := by
  obtain ⟨found, hx⟩ : ∃ found, findAliasesReply (pattern index)
      (s.getAlias (pattern index)) = .ok found := ⟨_, rfl⟩
  refine ⟨found, hx, fun m => ?_⟩
  rw [mem_previousOf, listed (E := Engine.permissive D) .served hx]
  exact and_assoc

theorem list_stops (hp : ∀ j < p, fate j = .served) (hn : n ≤ p)
    (hin : index.name ∈ s.indices)
    (h : (elasticsearch E).exec fate n s (i.list index) = (p + 1, s', .error e)) :
    ∃ previous : List Text,
      (∀ m, m ∈ previous ↔ m ∈ s.indices ∧ glob (pattern index) m = true ∧ m ≠ index.name) ∧
      Moved index.name s s' previous ((i.plan index).take (effective fate p - (n + 1)))
        (previous.take (effective fate p - (n + 1) - (i.plan index).length)) := by
  rw [Import.list_call] at h
  obtain ⟨found', hx, hmem⟩ := getAlias_served s index
  have hrefl := (Moved.refl hin).relist (previousOf index found')
  refine ⟨previousOf index found', hmem, ?_⟩
  rcases Service.exec_stop h hp with ⟨hlt, h⟩ | ⟨rfl, rfl⟩
  · simp only [elasticsearch, Store.serve, hx] at h
    exact move_stops hp hlt hrefl hin (fun m hm => ((hmem m).mp hm).1)
      (fun hm => ((hmem _).mp hm).2.2 rfl) h
  · have heff : effective fate n - (n + 1) = 0 := by rw [effective]; split <;> omega
    have hsame : (if (fate n).applies then ((elasticsearch E).serve (.getAlias (pattern index)) s).1
        else s) = s := by split <;> rfl
    rw [heff, hsame]
    simpa using hrefl

theorem publish_stops (hp : ∀ j < p, fate j = .served) (hin : index.name ∈ s.indices)
    (h : (elasticsearch E).exec fate 0 s
      (Storage.publishIndex i.storage index i.config.visibility) = (p + 1, s', .error e)) :
    ∃ previous : List Text,
      (∀ m, m ∈ previous ↔ m ∈ s.indices ∧ glob (pattern index) m = true ∧ m ≠ index.name) ∧
      Moved index.name s s' previous ((i.plan index).take (effective fate p - 2))
        (previous.take (effective fate p - 2 - (i.plan index).length)) := by
  rw [Import.publishIndex_call] at h
  have hag : s.Agree (s.refresh index.name).1 := Store.agree_refresh
  rcases Service.exec_stop h hp with ⟨hlt, h⟩ | ⟨rfl, rfl⟩
  · simp only [elasticsearch, Store.serve, refresh_served hin] at h
    obtain ⟨previous, hmem, hm⟩ := list_stops hp hlt ((hag.mem _).mpr hin) h
    exact ⟨previous, fun m => by rw [hmem, hag.mem], hm.rebase hag⟩
  · obtain ⟨previous, hprev⟩ : ∃ previous : List Text, ∀ m, m ∈ previous ↔
        m ∈ s.indices ∧ glob (pattern index) m = true ∧ m ≠ index.name := by
      refine ⟨s.indices.keys.filter (fun m => glob (pattern index) m && decide (m ≠ index.name)),
        fun m => ?_⟩
      simp [TreeMap.mem_keys]
    refine ⟨previous, hprev, ?_⟩
    have heff : effective fate 0 - 2 = 0 := by rw [effective]; split <;> rfl
    rw [heff]
    have hm := (Moved.refl hin).relist previous
    simp only [List.take_zero, Nat.zero_sub]
    split
    · exact hm.agree hag
    · exact hm

theorem publish_missing (hp : ∀ j < p, fate j = .served) (hin : index.name ∉ s.indices)
    (h : (elasticsearch E).exec fate 0 s
      (Storage.publishIndex i.storage index i.config.visibility) = (p + 1, s', .error e)) :
    s' = s := by
  rw [Import.publishIndex_call] at h
  have hsame : s.refresh index.name = (s, noSuchIndex index.name) := by
    simp [Store.refresh, TreeMap.getElem?_eq_none hin]
  rcases Service.exec_stop h hp with ⟨hlt, h⟩ | ⟨rfl, rfl⟩
  · have hx : ∃ err, refreshIndexReply index.name (noSuchIndex index.name) = .error err :=
      ⟨_, rfl⟩
    obtain ⟨err, hx⟩ := hx
    simp only [elasticsearch, Store.serve, hsame, hx] at h
    exact absurd h (not_exec_done hlt)
  · simp only [elasticsearch, Store.serve, hsame]
    split <;> rfl

def Among (index : Index) (m : Text) : Prop := m = index.name ∨ glob (pattern index) m = true

structure Unchanged (index : Index) (s s' : Store D) : Prop where
  aliases : ∀ a ∈ aliases index.doc_type index.dataset,
    s'.resolves a (Among index) = s.resolves a (Among index)
  kept : ∀ m ∈ s.indices, Among index m → m ≠ index.name → m ∈ s'.indices

def publicPlan (index : Index) : List Text :=
  [rootDoctypeDataset index.doc_type index.dataset, rootDoctype index.doc_type, root]

-- What took effect of the publication had no effect: the moved aliases resolved to the index
-- already and there was no previous index to delete.
def Harmless (index : Index) (s : Store D) (took : Nat) : Prop :=
  (∀ a ∈ (publicPlan index).take (took - 2), s.resolves a (Among index) = {index.name}) ∧
    (took ≤ 5 ∨ ∀ m ∈ s.indices, Among index m → m = index.name)

theorem unchanged_iff {took : Nat}
    (hprev : ∀ m, m ∈ previous ↔ m ∈ s.indices ∧ glob (pattern index) m = true ∧ m ≠ index.name)
    (hm : Moved index.name s s' previous ((publicPlan index).take (took - 2))
      (previous.take (took - 5))) :
    Unchanged index s s' ↔ Harmless index s took := by
  have hnot : index.name ∉ previous := fun h => ((hprev _).mp h).2.2 rfl
  have hmoved : ∀ a ∈ (publicPlan index).take (took - 2),
      s'.resolves a (Among index) = {index.name} := by
    intro a ha
    ext m
    simp only [Store.mem_resolves, Set.mem_singleton_iff, hm.aliased, ha, true_and]
    constructor
    · rintro ⟨⟨⟨hal | he, hp⟩, _⟩, hamong⟩
      · by_contra hne
        exact hp ((hprev m).mpr ⟨hal.mem, hamong.resolve_left hne, hne⟩)
      · exact he
    · rintro rfl
      exact ⟨⟨⟨.inr rfl, hnot⟩, fun h => hnot (List.mem_of_mem_take h)⟩, .inl rfl⟩
  have hmem : ∀ a, a ∈ publicPlan index ↔ a ∈ aliases index.doc_type index.dataset := by
    intro a
    simp only [publicPlan, aliases, List.mem_cons, List.not_mem_nil, or_false]
    tauto
  constructor
  · rintro ⟨hal, hkept⟩
    refine ⟨fun a ha => ?_, ?_⟩
    · rw [← hal a ((hmem a).mp (List.mem_of_mem_take ha)), hmoved a ha]
    · by_contra hc
      simp only [not_or, Nat.not_le, not_forall] at hc
      obtain ⟨htook, m, hms, hamong, hne⟩ := hc
      obtain ⟨k, ks, rfl⟩ := List.exists_cons_of_ne_nil (List.ne_nil_of_mem
        ((hprev m).mpr ⟨hms, hamong.resolve_left hne, hne⟩))
      obtain ⟨hk, hglob, hkne⟩ := (hprev k).mp (by simp)
      refine ((hm.mem k).mp (hkept k hk (.inr hglob) hkne)).2 ?_
      obtain ⟨j, hj⟩ : ∃ j, took - 5 = j + 1 := ⟨took - 6, by omega⟩
      simp [hj]
  · rintro ⟨hal, hnone⟩
    have hgone : previous.take (took - 5) = [] := by
      rcases hnone with hle | hnone
      · have : took - 5 = 0 := by omega
        simp [this]
      · have : previous = [] := by
          refine List.eq_nil_iff_forall_not_mem.mpr (fun m h => ?_)
          obtain ⟨hms, hglob, hne⟩ := (hprev m).mp h
          exact hne (hnone m hms (.inr hglob))
        simp [this]
    rw [hgone] at hm
    refine ⟨fun a _ => ?_, fun m hms _ _ => (hm.mem m).mpr ⟨.inl hms, by simp⟩⟩
    by_cases ha : a ∈ (publicPlan index).take (took - 2)
    · rw [hmoved a ha, hal a ha]
    · exact Store.resolves_congr (fun m _ => by simp [hm.aliased, ha])

theorem stopped_unchanged_iff (hv : i.config.visibility = .Public)
    (hp : ∀ j < p, fate j = .served)
    (h : (elasticsearch E).exec fate 0 s
      (Storage.publishIndex i.storage index i.config.visibility) = (p + 1, s', .error e)) :
    Unchanged index s s' ↔ index.name ∉ s.indices ∨ Harmless index s (effective fate p) := by
  by_cases hin : index.name ∈ s.indices
  · obtain ⟨previous, hprev, hm⟩ := publish_stops hp hin h
    have hplan : i.plan index = publicPlan index := by simp [Import.plan, publicPlan, hv]
    have hlen : effective fate p - 2 - (publicPlan index).length = effective fate p - 5 := by
      simp only [publicPlan, List.length_cons, List.length_nil]
      omega
    rw [hplan, hlen] at hm
    simp only [hin, not_true_eq_false, false_or]
    exact unchanged_iff hprev hm
  · obtain rfl := publish_missing hp hin h
    simp only [hin, not_false_eq_true, true_or, iff_true]
    exact ⟨fun _ _ => rfl, fun m hm _ _ => hm⟩

theorem publish_rollback_iff {storage : ElasticsearchStorageConfig}
    (hp : ∀ j < p, fate j = .served)
    (h : (elasticsearch E).exec fate 0 s (Storage.publishIndex storage index .Public) =
      (p + 1, s', .error e)) :
    Unchanged index s s' ↔ index.name ∉ s.indices ∨ Harmless index s (effective fate p) :=
  stopped_unchanged_iff (i := ⟨storage, ⟨[], [], .Public, 1, 1⟩, (.utc 2021 5 4 0 0 0 0), []⟩) rfl
    hp h

end

def lostAt (p : Nat) (n : Nat) : Service.Fate Response :=
  if n = p then .dropped .transport else .served

def oldFr : Text := rootDoctypeDatasetTs "poi".toList "fr".toList (.utc 2021 5 4 0 0 0 0)

def newFr : Index :=
  ⟨rootDoctypeDatasetTs "poi".toList "fr".toList (.utc 2021 5 5 0 0 0 0), "fr".toList,
    "poi".toList, 0, .Available⟩

def twoVersions : Store Poi :=
  ((Store.published oldFr (aliases "poi".toList "fr".toList)).createIndex
    (Engine.permissive Poi) newFr.name 1 1).1

def publishNewFr (p : Nat) : Nat × Store Poi × Except (Failure StorageError) Unit :=
  (elasticsearch (Engine.permissive Poi)).exec (lostAt p) 0 twoVersions
    (Storage.publishIndex ⟨1000, "1m".toList, 8, 100, ⟨false, 1⟩⟩ newFr .Public)

theorem publishNewFr_stops {p : Nat}
    (h : (publishNewFr p).1 = p + 1 ∧ (publishNewFr p).2.2.toBool = false) :
    ∃ s' e, publishNewFr p = (p + 1, s', .error e) := by
  obtain ⟨hcount, herr⟩ := h
  generalize publishNewFr p = r at hcount herr ⊢
  obtain ⟨n, s', result⟩ := r
  cases result with
  | ok => cases herr
  | error e => exact ⟨s', e, by rw [← hcount]⟩

theorem unlisted_publication_changes_nothing :
    ∃ s' e, publishNewFr 1 = (1 + 1, s', .error e) ∧ Unchanged newFr twoVersions s' := by
  obtain ⟨s', e, h⟩ := publishNewFr_stops (p := 1) (by decide +kernel)
  refine ⟨s', e, h, (publish_rollback_iff ?_ h).mpr (.inr ⟨by simp [effective, lostAt,
    Service.Fate.applies], .inl (by decide)⟩)⟩
  exact fun j hj => if_neg (Nat.ne_of_lt hj)

theorem second_alias_lost_changes_first :
    ∃ s' e, publishNewFr 3 = (3 + 1, s', .error e) ∧ ¬ Unchanged newFr twoVersions s' := by
  obtain ⟨s', e, h⟩ := publishNewFr_stops (p := 3) (by decide +kernel)
  refine ⟨s', e, h, fun hu => ?_⟩
  have hiff := stopped_unchanged_iff
    (i := ⟨⟨1000, "1m".toList, 8, 100, ⟨false, 1⟩⟩, ⟨[], [], .Public, 1, 1⟩,
      (.utc 2021 5 4 0 0 0 0), []⟩) rfl
    (fun j hj => if_neg (Nat.ne_of_lt hj)) h
  rcases hiff.mp hu with hout | ⟨hal, _⟩
  · exact hout (by decide +kernel)
  · have hold : oldFr ∈ twoVersions.resolves (rootDoctypeDataset newFr.doc_type newFr.dataset)
        (Among newFr) := ⟨by decide +kernel, .inr (by decide +kernel)⟩
    rw [hal _ (by decide +kernel), Set.mem_singleton_iff] at hold
    exact absurd hold (by decide +kernel)

end Mimirsbrunn
