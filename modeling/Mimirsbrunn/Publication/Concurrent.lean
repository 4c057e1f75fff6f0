import Mimirsbrunn.Publication.Settling

namespace Mimirsbrunn
open Regex Std Internal Phase

namespace Phase

variable {D : Type} [Document D]

theorem early_startFilling (i : Import D) (index : Index) : (i.startFilling index).Early := by
  rw [Import.startFilling]
  split
  · trivial
  · exact early_resumeFilling ..

def underway : Es D ModelError Index → Bool
  | .call (.createIndex ..) _ => false
  | .done _ => false
  | _ => true

theorem underway_client (i : Import D) (ph : Phase D) :
    underway (ph.client i) = true ↔ ph.Active := by
  cases hr : ph.request i with
  | some r =>
      rw [client_of_request i hr]
      cases ph with
      | filling | ended => cases hr
      | creating =>
          obtain rfl := Option.some.inj hr
          exact ⟨fun h => (by cases h), False.elim⟩
      | _ =>
          obtain rfl := Option.some.inj hr
          exact ⟨fun _ => trivial, fun _ => rfl⟩
  | none =>
      cases ph with
      | filling => exact ⟨fun _ => trivial, fun _ => rfl⟩
      | ended => exact ⟨fun h => (by cases h), False.elim⟩
      | _ => cases hr

end Phase

namespace Settling

variable {D ι : Type} [Document D] [DecidableEq ι] {docType dataset : Text}
  {runs : ι → Import D} {s s' : Store D} {ph : ι → Phase D} {ph' : Phase D} {j : ι} {E : Engine D}
  {r : Request D} {x : Response}

theorem step_early (h : Settling docType dataset runs s ph) {phase : Phase D} (hj : ph j = phase)
    (hact : phase.Active) (hearly : phase.Early) (hs : Phase.Step E (runs j) s phase r x s' ph')
    (ha : s.Agree s')
    (hc : ∀ m, m ≠ (runs j).indexName → s'.contentOf m = s.contentOf m) (hph : ph'.Early) :
    Settling docType dataset runs s' (Function.update ph j ph') := by
  subst hj
  exact h.quiet hact hearly ha hc hph (holding_step hs (h.held j hact))

theorem step_creating (h : Settling docType dataset runs s ph) (hj : ph j = .creating) :
    Settling docType dataset runs
      (s.createIndex E (runs j).indexName (runs j).config.number_of_shards
        (runs j).config.number_of_replicas).1
      (Function.update ph j ((Phase.creating : Phase D).next (runs j)
        (s.createIndex E (runs j).indexName (runs j).config.number_of_shards
          (runs j).config.number_of_replicas).2)) := by
  by_cases hc : (runs j).indexName ∉ s.indices ∧ E.accepts (runs j).indexName = true
  · simp only [next, createIndex_served _ _ hc.1 hc.2]
    exact h.create hj _ _ hc.1 hc.2
  · rw [Store.createIndex_refused _ _ hc]
    simp only [next]
    split
    · next hx =>
      obtain ⟨hn, hacc, _⟩ := created (E := E) (s := s) .served hx
      exact absurd ⟨hn, hacc⟩ hc
    · exact h.stop (by rw [hj]; trivial) _ _

theorem step_filling (h : Settling docType dataset runs s ph) {index : Index}
    {pre post : List (Request D)} {answers : List Response}
    (hj : ph j = .filling index (pre ++ r :: post) answers)
    (hs : Phase.Step E (runs j) s (.filling index (pre ++ r :: post) answers) r x s'
      (Import.resumeFilling index (joinBlock x).toBool (pre ++ post) (answers ++ [x])))
    (hs' : s' = (s.serve E r).1) :
    Settling docType dataset runs s' (Function.update ph j
      (Import.resumeFilling index (joinBlock x).toBool (pre ++ post) (answers ++ [x]))) := by
  have hheld := h.held j (by rw [hj]; trivial)
  rw [hj] at hheld
  obtain ⟨hi, chunks, docs, hcont, hpend, _⟩ := hheld
  have hin : (runs j).indexName ∈ s.indices := Store.mem_of_contentOf hcont
  obtain ⟨ops, _, rfl⟩ : ∃ ops ∈ chunks, Request.bulk index.name ops = r := by
    have hr : r ∈ chunks.map (Request.bulk index.name) := by rw [← hpend]; simp
    exact List.mem_map.mp hr
  rw [hi.1] at hs'
  refine h.step_early hj trivial trivial hs ?_ ?_ (early_resumeFilling ..)
  · rw [hs']; exact Store.agree_bulk ops hin
  · intro m hm
    rw [hs']; exact Store.contentOf_bulk_ne ops hm

theorem step (ht : Piece docType) (hd : Piece dataset)
    (hruns : ∀ k, (runs k).PublicFor docType dataset) (h : Settling docType dataset runs s ph)
    (hs : Phase.Step E (runs j) s (ph j) r x s' ph')
    (hs' : s' = (s.serve E r).1) (hx : x = (s.serve E r).2)
    (halone : ∀ pattern, r = .getAlias pattern → ∀ k, k ≠ j → ¬ (ph k).Active) :
    Settling docType dataset runs s' (Function.update ph j ph') := by
  generalize hj : ph j = phase at hs
  have hstep := hs
  cases hs with
  | fill hw ha hsp => exact h.step_filling hj hstep hs'
  | call hr ha =>
    cases phase with
    | filling => cases hr
    | ended => cases hr
    | creating =>
        obtain rfl := Option.some.inj hr
        rw [hs', hx]
        exact h.step_creating hj
    | finding =>
        obtain rfl := Option.some.inj hr
        obtain rfl : s' = s := hs'
        refine h.step_early hj trivial trivial hstep (.refl s') (fun _ _ => rfl) ?_
        simp only [next]
        split
        · trivial
        · exact early_stop _ _
        · exact early_stop _ _
    | piping index =>
        obtain rfl := Option.some.inj hr
        have hi : s'.indices = s.indices := by rw [hs']; rfl
        refine h.step_early hj trivial trivial hstep (Store.agree_of_indices hi)
          (fun m _ => by simp only [Store.contentOf, hi]) ?_
        simp only [next]
        split
        · exact early_startFilling _ _
        · exact early_stop _ _
    | refreshing index =>
        obtain rfl := Option.some.inj hr
        have hheld := h.held j (by rw [hj]; trivial)
        rw [hj] at hheld
        refine h.step_early hj trivial trivial hstep ?_ ?_ ?_
        · rw [hs']; exact Store.agree_refresh
        · intro m hm
          rw [hs']; exact Store.contentOf_refresh_ne (hheld.1.1 ▸ hm)
        · simp only [next]
          split
          · trivial
          · exact early_stop _ _
    | listing index =>
        obtain rfl := Option.some.inj hr
        obtain rfl : s' = s := hs'
        obtain ⟨found', hf⟩ : ∃ found', findAliasesReply (Phase.pattern index)
            (s'.getAlias (Phase.pattern index)) = .ok found' := ⟨_, rfl⟩
        have hnext : (Phase.listing index : Phase D).next (runs j) x =
            (runs j).startMoving index (previousOf index found') ((runs j).plan index) := by
          rw [hx]
          simp only [next, Store.serve]
          rw [show aliasPattern (rootDoctypeDataset index.doc_type index.dataset) =
            Phase.pattern index from rfl, hf]
        rw [hnext]
        exact step_listing ht hd (hruns j) h hj (halone _ rfl) (listed (E := E) .served hf)
    | moving index previous a todo =>
        obtain rfl := Option.some.inj hr
        have hpubj : (ph j).Publishing := by rw [hj]; trivial
        have hheld := h.held j hpubj.active
        have hmem := h.doomed_mem j
        rw [hj] at hheld hmem
        have hin : index.name ∈ s.indices := hheld.1.1.1 ▸ h.active_mem hpubj.active
        have hserved : updateAliasReply a
            (s.updateAliases (aliasActions a [index.name] previous)).2 = .ok () :=
          updateAliases_served hin hmem
        have hfold : s' = (aliasActions a [index.name] previous).foldl Store.act s := by
          rw [hs']
          exact (aliased (E := E) .served hserved).1
        have hnext : (Phase.moving index previous a todo : Phase D).next (runs j) x =
            (runs j).startMoving index previous todo := by
          rw [hx]
          simp only [next, Store.serve, hserved]
        rw [hnext, hfold]
        exact step_moving ht hd (hruns j) h hj
    | deleting index n todo =>
        obtain rfl := Option.some.inj hr
        have hmem := h.doomed_mem j
        rw [hj] at hmem
        have hserved := deleteIndex_served (hmem n List.mem_cons_self)
        have hnext : (Phase.deleting index n todo : Phase D).next (runs j) x =
            (runs j).startDeleting index todo := by
          rw [hx]
          simp only [next, Store.serve, hserved]
        rw [hnext, hs']
        exact step_deleting h hj
    | merging index =>
        obtain rfl := Option.some.inj hr
        obtain rfl : s' = s := hs'
        have hpubj : (ph j).Publishing := by rw [hj]; trivial
        obtain ⟨hheld, hsw, -, -⟩ := h.publisher hj trivial
        simp only [next]
        split
        · exact h.publish hpubj.active (h.only_publisher hpubj) trivial hheld (fun _ _ _ => rfl)
            (fun k hk hak => h.fresh k hak (h.only_publisher hpubj k hk)) (by simp [doomed])
            (by simp [doomed]) hsw
        · next e _ => cases e <;> exact h.finish hsw hheld _
    | locating index =>
        obtain rfl := Option.some.inj hr
        obtain rfl : s' = s := hs'
        have hpubj : (ph j).Publishing := by rw [hj]; trivial
        obtain ⟨hheld, hsw, -, -⟩ := h.publisher hj trivial
        simp only [next]
        split
        · exact h.finish hsw hheld _
        · exact h.finish hsw hheld _
        · next e _ => cases e <;> exact h.finish hsw hheld _

end Settling

variable {D ι : Type} [Document D] [DecidableEq ι]

def Import.starts (runs : ι → Import D) (s : Store D) : Store D × (ι → Es D ModelError Index) :=
  (s, fun k => (runs k).run)

def ListsAlone (p : Store D × (ι → Es D ModelError Index)) (j : ι) (r : Request D) : Prop :=
  ∀ pattern, r = .getAlias pattern → ∀ k, k ≠ j → underway (p.2 k) = false

variable {docType dataset : Text} {runs : ι → Import D} {s₀ : Store D} {E : Engine D}
  {p : Store D × (ι → Es D ModelError Index)}

theorem crowd_settling (ht : Piece docType) (hd : Piece dataset)
    (hruns : ∀ k, (runs k).PublicFor docType dataset)
    (h : (elasticsearch E).CrowdReach ListsAlone (Import.starts runs s₀) p) :
    ∃ ph : ι → Phase D, (∀ k, p.2 k = (ph k).client (runs k)) ∧
      Settling docType dataset runs p.1 ph := by
  refine Service.crowd_invariant (fun p => ∃ ph : ι → Phase D,
    (∀ k, p.2 k = (ph k).client (runs k)) ∧ Settling docType dataset runs p.1 ph) ?_ ?_ h
  · refine ⟨fun _ => .creating, fun _ => rfl, ?_, ?_, ?_, ?_, ?_, ?_, ?_, .inr (.inl ?_)⟩
    · exact fun _ hk => hk.elim
    · exact fun _ hk => hk.elim
    · exact fun _ _ hk => hk.elim
    · exact fun _ _ hk => hk.elim
    · simp [doomed]
    · simp [doomed]
    · exact fun _ => trivial
    · simp
  · rintro p _ ⟨ph, hclient, hsettling⟩ ⟨j, r, c', hguard, hstep, rfl⟩
    rw [hclient j] at hstep
    obtain ⟨ph', rfl, hs⟩ := step_of_client hstep
    refine ⟨Function.update ph j ph', fun k => ?_, hsettling.step ht hd hruns hs rfl rfl ?_⟩
    · rcases eq_or_ne k j with rfl | hk
      · simp
      · simp only [Function.update_of_ne hk, hclient]
    · intro pattern hr k hk hact
      have hu := hguard pattern hr k hk
      rw [hclient k, (underway_client _ _).mpr hact] at hu
      cases hu

theorem concurrent_imports_safe (ht : Piece docType) (hd : Piece dataset)
    (hruns : ∀ k, (runs k).PublicFor docType dataset)
    (h : (elasticsearch E).CrowdReach ListsAlone (Import.starts runs s₀) p) :
    (∀ k, underway (p.2 k) = true → (runs k).indexName ∈ p.1.indices) ∧
      ((∀ k, ∃ result, p.2 k = Client.done result) →
        (∃ k index, p.2 k = Client.done (.ok index)) →
        ∃ k, Published docType dataset (runs k) p.1) := by
  obtain ⟨ph, hclient, hsettling⟩ := crowd_settling ht hd hruns h
  refine ⟨fun k hk => ?_, fun hall hok => ?_⟩
  · rw [hclient k, underway_client] at hk
    exact hsettling.active_mem hk
  · rcases hsettling.settled with ⟨k, hk⟩ | hnone | hpub
    · obtain ⟨result, hr⟩ := hall k
      rw [hclient k] at hr
      rw [client_done hr] at hk
      exact hk.elim
    · obtain ⟨k, index, hr⟩ := hok
      rw [hclient k] at hr
      exact absurd (client_done hr) (hnone k index)
    · exact hpub

def Response.failed : Response → Bool
  | .transport => true
  | .rejected _ => true
  | .unparsable => true
  | .acknowledged a => a ≠ .value true
  | .items statuses => statuses.any (fun item => !item.result.toBool)
  | _ => false

def Request.gone (s : Store D) : Request D → Bool
  | .deleteIndex n => n ∉ s.indices
  | _ => false

def onlyGoneFails (E : Engine D) (p : Store D × (ι → Es D ModelError Index)) (_j : ι)
    (r : Request D) : Bool :=
  !Response.failed (p.1.serve E r).2 || r.gone p.1

def twoImports : Bool → Import Poi
  | false => frImport (.utc 2021 5 5 0 0 0 0)
  | true => frImport (.utc 2021 5 6 0 0 0 0)

def frPublished : Store Poi :=
  .published (rootDoctypeDatasetTs "poi".toList "fr".toList (.utc 2021 5 4 0 0 0 0))
    (aliases "poi".toList "fr".toList)

def turns (b : Bool) (n : Nat) : List (Bool × Nat) := List.replicate n (b, 0)

def isOk : Es Poi ModelError Index → Bool
  | .done (.ok _) => true
  | _ => false

def isDone : Es Poi ModelError Index → Bool
  | .done _ => true
  | _ => false

theorem of_isDone {c : Es Poi ModelError Index} (h : isDone c = true) :
    ∃ result, c = Client.done result := by
  cases c with
  | done a => exact ⟨a, rfl⟩
  | _ => cases h

theorem of_isOk {c : Es Poi ModelError Index} (h : isOk c = true) :
    ∃ index, c = Client.done (.ok index) := by
  cases c with
  | done a => cases a with
    | ok index => exact ⟨index, rfl⟩
    | error e => cases h
  | _ => cases h

def listsAlone (p : Store Poi × (Bool → Es Poi ModelError Index)) (j : Bool) :
    Request Poi → Bool
  | .getAlias _ => !underway (p.2 !j)
  | _ => true

theorem listsAlone_sound {p : Store Poi × (Bool → Es Poi ModelError Index)} {j : Bool}
    {r : Request Poi} (h : listsAlone p j r = true) : ListsAlone p j r := by
  rintro pattern rfl k hk
  obtain rfl : k = !j := by revert hk; cases k <;> cases j <;> decide
  simpa [listsAlone] using h

theorem two_imports_in_turn :
    ∃ p, (elasticsearch (Engine.permissive Poi)).CrowdReach ListsAlone
      (Import.starts twoImports frPublished) p ∧
      ∃ k, Published "poi".toList "fr".toList (twoImports k) p.1 := by
  have hrun : ((elasticsearch (Engine.permissive Poi)).drive listsAlone
      (turns false 11 ++ turns true 11) (Import.starts twoImports frPublished)).map
        (fun p => isOk (p.2 false) && isOk (p.2 true)) = some true := by decide +kernel
  obtain ⟨p, hp, hok⟩ := Option.map_eq_some_iff.mp hrun
  rw [Bool.and_eq_true] at hok
  have hreach : (elasticsearch (Engine.permissive Poi)).CrowdReach ListsAlone
      (Import.starts twoImports frPublished) p :=
    Service.crowd_mono (fun _ _ _ => listsAlone_sound) (Service.drive_reach hp)
  obtain ⟨first, hfirst⟩ := of_isOk hok.1
  obtain ⟨second, hsecond⟩ := of_isOk hok.2
  have hruns : ∀ k, (twoImports k).PublicFor "poi".toList "fr".toList := by
    intro k; cases k <;> exact frImport_for _
  refine ⟨p, hreach, (concurrent_imports_safe (by decide) (by decide) hruns hreach).2 ?_ ?_⟩
  · intro k
    cases k
    · exact ⟨_, hfirst⟩
    · exact ⟨_, hsecond⟩
  · exact ⟨false, first, hfirst⟩

-- Both runs list while the other one is filling its index. Each takes the other's index for a
-- previous one: the first run deletes the index that the second one has just published, and the
-- second one then ends on the old index, which is gone.
def crossed : List (Bool × Nat) :=
  turns false 5 ++ turns true 5 ++ turns false 1 ++ turns true 1 ++ turns false 3 ++ turns true 3 ++
    turns false 2

theorem crossed_imports_lose_dataset :
    ∃ p q, (elasticsearch (Engine.permissive Poi)).CrowdReach
        (fun p j r => onlyGoneFails (Engine.permissive Poi) p j r = true)
        (Import.starts twoImports frPublished) p ∧
      (underway (p.2 true) = true ∧ (twoImports true).indexName ∉ p.1.indices) ∧
      (elasticsearch (Engine.permissive Poi)).CrowdReach
        (fun p j r => onlyGoneFails (Engine.permissive Poi) p j r = true)
        (Import.starts twoImports frPublished) q ∧
      (∀ k, ∃ result, q.2 k = Client.done result) ∧
      (∃ k index, q.2 k = Client.done (.ok index)) ∧
      ¬ ∃ k, Published "poi".toList "fr".toList (twoImports k) q.1 := by
  have hlost : ((elasticsearch (Engine.permissive Poi)).drive
      (onlyGoneFails (Engine.permissive Poi)) crossed (Import.starts twoImports frPublished)).map
        (fun p => underway (p.2 true) && (twoImports true).indexName ∉ p.1.indices) =
          some true := by decide +kernel
  have hended : ((elasticsearch (Engine.permissive Poi)).drive
      (onlyGoneFails (Engine.permissive Poi)) (crossed ++ turns false 1 ++ turns true 1)
        (Import.starts twoImports frPublished)).map (fun p => isOk (p.2 false) &&
          isDone (p.2 true) && (p.1.resolve root).isEmpty) = some true := by decide +kernel
  obtain ⟨p, hp, hunder⟩ := Option.map_eq_some_iff.mp hlost
  obtain ⟨q, hq, hdone⟩ := Option.map_eq_some_iff.mp hended
  simp only [Bool.and_eq_true, decide_eq_true_eq] at hunder hdone
  obtain ⟨⟨hok, hother⟩, hempty⟩ := hdone
  obtain ⟨index, hindex⟩ := of_isOk hok
  refine ⟨p, q, Service.drive_reach hp, hunder, Service.drive_reach hq, fun k => ?_,
    ⟨false, index, hindex⟩, ?_⟩
  · cases k
    · exact ⟨_, hindex⟩
    · exact of_isDone hother
  · rintro ⟨k, hpub⟩
    have hal := Settling.published_aliased hpub
    have hmem : (twoImports k).indexName ∈ q.1.resolve root :=
      List.mem_filter.mpr ⟨TreeMap.mem_keys.mpr hal.mem, decide_eq_true hal⟩
    rw [List.isEmpty_iff.mp hempty] at hmem
    cases hmem

end Mimirsbrunn
